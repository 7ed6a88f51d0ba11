import MediaSeal.Proofs.Bystanders
import MediaSeal.Proofs.History

/-!
# What an observer hears of an endpoint

Between two frames the owner of an endpoint may switch it, turn to another key
or put another observer in the place of the first, and everybody else may do
what they like to the keys. None of this adds to the history of the endpoint or
takes from it. Only frames do, and what they change in it goes to the observer
that is registered at that moment, one report after the other.

A run has one invariant, `Session.Hosts`, and what is known of each step is put
together in `Session.Course`, which says the same of a run as of a step. So the
run takes no more than that courses can be put one behind the other.

What observers do about a report is left out of the picture by `LeftAlone`:
they may control other endpoints, but not this one.
-/

namespace MediaSeal

theorem Observer.foldl_hear (observer : Observer) (notices : List Notice) :
    notices.foldl hear observer =
      { observer with
        heard := if observer.keeps then observer.heard ++ notices else observer.heard } := by
  induction notices generalizing observer with
  | nil => simp
  | cons notice rest ih =>
      rw [List.foldl_cons, ih, hear]
      cases hkeeps : observer.keeps <;> simp [hkeeps]

/-! ## A run of one endpoint -/

/-- What happens to an endpoint, or to what it works with. -/
inductive Handling
  | setEnabled (value : Bool)
  | setKeyIndex (index : Int)
  /-- An observer is registered, in place of any other. -/
  | observe (observer : String)
  | unobserve
  | frame (frame : Frame)
  /-- Others have used the key store or the source, or changed them. -/
  | rekey (store : KeyStore) (entropy : Entropy)

/-- The frame, if it is one that is handed in. -/
def Handling.frame? : Handling → Option Frame
  | frame given => some given
  | _ => none

/-- A frame handed to an endpoint as that was then, what the endpoint had to work with,
and what became of the frame. -/
structure Passage where
  endpoint : Endpoint (Ref .observer)
  store : KeyStore
  entropy : Entropy
  frame : Frame
  output : Option Frame
  /-- What was to be reported of it. -/
  transitions : List Outcome

namespace Passage

/-- What encrypting or decrypting the frame comes to. Only a frame that is decrypted can
take steps of the ratchet. -/
def result (passage : Passage) : Except FrameError Opened :=
  let endpoint := passage.endpoint
  match endpoint.direction with
  | .sender =>
    match (passage.frame.encrypt passage.store endpoint.participant endpoint.algorithm
      endpoint.keyIndex passage.entropy).1 with
    | .ok wire => .ok ⟨wire, 0⟩
    | .error error => .error error
  | .receiver =>
    (passage.store.decrypt endpoint.participant endpoint.algorithm passage.frame.payload).1

/-- What the frame adds to the history. -/
def history (passage : Passage) : List Outcome :=
  if passage.endpoint.enabled then
    match passage.result with
    | .ok opened => if opened.steps = 0 then [.ok] else [.keyRatcheted, .ok]
    | .error error => [error.outcome]
  else []

/-- The history of a run, with the passage that each outcome comes from. -/
def histories (passages : List Passage) : List (Passage × Outcome) :=
  passages.flatMap fun passage => passage.history.map (Prod.mk passage)

/-- All that was to be reported of a run, with the passage it comes from. -/
def reports (passages : List Passage) : List (Passage × Outcome) :=
  passages.flatMap fun passage => passage.transitions.map (Prod.mk passage)

/-- The reports of those passages at which an observer was registered. -/
def noticesTo (participant : Participant) (observer : Ref .observer) (passages : List Passage) :
    List Notice :=
  ((reports passages).filter fun report => report.1.endpoint.observer = some observer).map
    fun report => ⟨participant, report.2⟩

/-- What holds of every passage of an endpoint. -/
structure Lawful (passage : Passage) (direction : Direction) : Prop where
  direction_eq : passage.endpoint.direction = direction
  enabled : passage.endpoint.enabled = true →
    passage.output =
      passage.result.toOption.map fun opened => passage.frame.withPayload opened.payload
  disabled : passage.endpoint.enabled = false →
    passage.output = some passage.frame ∧ passage.history = []
  catchUp : .keyRatcheted ∈ passage.history → passage.transitions = [.keyRatcheted, .ok]
  sender : direction = .sender → ∀ outcome ∈ passage.history,
    outcome ≠ .keyRatcheted ∧ outcome ≠ .decryptionFailed
  receiver : direction = .receiver → ∀ outcome ∈ passage.history, outcome ≠ .encryptionFailed

theorem map_snd_histories (passages : List Passage) :
    (histories passages).map Prod.snd = passages.flatMap (·.history) := by
  rw [histories, List.map_flatMap]
  simp only [List.map_map, Function.comp_def, List.map_id']

theorem noticesTo_append (participant : Participant) (observer : Ref .observer)
    (first second : List Passage) :
    noticesTo participant observer (first ++ second) =
      noticesTo participant observer first ++ noticesTo participant observer second := by
  rw [noticesTo, reports, List.flatMap_append, List.filter_append, List.map_append]
  rfl

theorem noticesTo_singleton (participant : Participant) (observer : Ref .observer)
    (passage : Passage) :
    noticesTo participant observer [passage] =
      if passage.endpoint.observer = some observer then
        passage.transitions.map (Notice.mk participant)
      else [] := by
  unfold noticesTo reports
  rw [List.flatMap_singleton, List.filter_map]
  by_cases h : passage.endpoint.observer = some observer
  · simp [h, Function.comp_def]
  · simp [h, Function.comp_def]

variable {passage : Passage}

/-- The endpoint works on the frame as was said. -/
theorem result_eq (passage : Passage) :
    (passage.endpoint.process passage.store passage.entropy passage.frame).1 = passage.result := by
  cases hdirection : passage.endpoint.direction with
  | sender =>
      simp only [result, Endpoint.process, hdirection]
      cases (passage.frame.encrypt passage.store passage.endpoint.participant
        passage.endpoint.algorithm passage.endpoint.keyIndex passage.entropy).1 <;> rfl
  | receiver => simp only [result, Endpoint.process, hdirection]

/-- What the endpoint makes of the frame is what the frame adds to the history. -/
theorem history_eq (passage : Passage) :
    passage.endpoint.added passage.store passage.entropy passage.frame = passage.history := by
  unfold Endpoint.added history
  rw [result_eq]
  split
  · cases passage.result with
    | error error => rfl
    | ok opened =>
        rw [Endpoint.history]
        by_cases hsteps : opened.steps = 0
        · rw [if_neg (Nat.not_lt.mpr (Nat.le_of_eq hsteps))]
          exact (if_pos hsteps).symm
        · rw [if_pos (Nat.pos_of_ne_zero hsteps)]
          exact (if_neg hsteps).symm
  · rfl

theorem mem_history_of_mem {outcome : Outcome} (h : outcome ∈ passage.history) :
    outcome ∈ Endpoint.history
      (passage.endpoint.process passage.store passage.entropy passage.frame).1 := by
  rw [← history_eq, Endpoint.added] at h
  split at h
  · exact h
  · cases h

/-- A passage is lawful if frame and reports fare as the attempt says. -/
theorem lawful_of_attempt
    (houtput : passage.output =
      (passage.endpoint.attempt passage.store passage.entropy passage.frame).output)
    (htransitions : passage.transitions =
      (passage.endpoint.attempt passage.store passage.entropy passage.frame).transitions)
    (hsettled : passage.endpoint.lastOutcome ≠ some .keyRatcheted) :
    passage.Lawful passage.endpoint.direction where
  direction_eq := rfl
  enabled := by
    intro henabled
    rw [houtput, Endpoint.attempt, if_pos henabled, ← result_eq]
  disabled := by
    intro hdisabled
    have hoff : ¬ passage.endpoint.enabled = true := Bool.eq_false_iff.mp hdisabled
    rw [houtput, Endpoint.attempt, if_neg hoff, history, if_neg hoff]
    exact ⟨rfl, rfl⟩
  catchUp := by
    intro hratcheted
    rw [htransitions, Endpoint.transitions_attempt]
    rw [← history_eq] at hratcheted
    rcases passage.endpoint.added_cases passage.store passage.entropy passage.frame with
      hnone | hcatchUp | ⟨outcome, hother, hsingle⟩
    · rw [hnone] at hratcheted
      cases hratcheted
    · rw [hcatchUp, Outcome.transitions, if_neg hsettled]
      rfl
    · rw [hsingle, List.mem_singleton] at hratcheted
      exact absurd hratcheted.symm hother
  sender := fun hsender outcome houtcome =>
    Endpoint.history_of_sender hsender outcome (mem_history_of_mem houtcome)
  receiver := fun hreceiver outcome houtcome =>
    Endpoint.history_of_receiver hreceiver outcome (mem_history_of_mem houtcome)

end Passage

namespace Session

/-- The passage of a frame through an endpoint. -/
def passage? (session : Session) (ref : Ref .endpoint) (frame : Frame) : Option Passage := do
  let station ← session.stations.get? ref
  let store ← session.stores.get? station.store
  let entropy ← session.entropies.get? station.entropy
  return {
    endpoint := station.endpoint
    store, entropy, frame
    output := (session.transform ref frame).1
    transitions := (station.endpoint.attempt store entropy frame).transitions }

/-- The endpoint of a name handled in some way. -/
def handle (session : Session) (name : String) (ref : Ref .endpoint) : Handling → Session
  | .setEnabled value => session.control (.setEnabled name value)
  | .setKeyIndex index => session.control (.setKeyIndex name index)
  | .observe observer => session.control (.observe name observer)
  | .unobserve => session.control (.unobserve name)
  | .frame frame => (session.transform ref frame).2
  | .rekey store entropy =>
    match session.stations.get? ref with
    | none => session
    | some station =>
      { session with
        stores := session.stores.set station.store store
        entropies := session.entropies.set station.entropy entropy }

/-- The passages that one handling consists of: one, if it is of a frame. -/
def passagesOf (session : Session) (ref : Ref .endpoint) : Handling → List Passage
  | .frame frame => (session.passage? ref frame).toList
  | _ => []

/-- The passages of a run, and the session after it. -/
def passages (name : String) (ref : Ref .endpoint) :
    Session → List Handling → List Passage × Session
  | session, [] => ([], session)
  | session, step :: rest =>
    let (later, after) := passages name ref (session.handle name ref step) rest
    (session.passagesOf ref step ++ later, after)

/-- An endpoint goes by this name, has all that it works with, has not been
given up, and is left alone by the observers. -/
structure Hosts (session : Session) (name : String) (ref : Ref .endpoint) (station : Station) :
    Prop where
  named : session.stations.find? name = some ref
  present : session.stations.get? ref = some station
  store : ∃ store, session.stores.get? station.store = some store
  entropy : ∃ entropy, session.entropies.get? station.entropy = some entropy
  held : station.endpoint.detached = false
  alone : session.LeftAlone ref
  settled : station.endpoint.lastOutcome ≠ some .keyRatcheted

/-- What is known of a run from the passages in it. -/
structure Course (session : Session) (station : Station) (passages : List Passage)
    (after : Session) (later : Station) : Prop where
  participant_eq : later.endpoint.participant = station.endpoint.participant
  direction_eq : later.endpoint.direction = station.endpoint.direction
  outcome_eq : later.endpoint.lastOutcome =
    Outcome.latest station.endpoint.lastOutcome (passages.flatMap (·.history))
  changes_eq : Passage.reports passages =
    Outcome.changes station.endpoint.lastOutcome (Passage.histories passages)
  heard : ∀ place, after.observers.get? place = (session.observers.get? place).map
    ((Passage.noticesTo station.endpoint.participant place passages).foldl Observer.hear)
  lawful : ∀ passage ∈ passages, passage.Lawful station.endpoint.direction

variable {session between after : Session} {name : String} {ref : Ref .endpoint}
  {station middle later : Station} {first second : List Passage}

theorem Course.refl (session : Session) (station : Station) :
    session.Course station [] session station where
  participant_eq := rfl
  direction_eq := rfl
  outcome_eq := rfl
  changes_eq := rfl
  heard := by
    intro place
    exact Option.map_id'.symm ▸ rfl
  lawful := fun _ hpassage => nomatch hpassage

theorem Course.trans (one : session.Course station first between middle)
    (two : between.Course middle second after later) :
    session.Course station (first ++ second) after later where
  participant_eq := two.participant_eq.trans one.participant_eq
  direction_eq := two.direction_eq.trans one.direction_eq
  outcome_eq := by
    rw [two.outcome_eq, one.outcome_eq, List.flatMap_append, Outcome.latest_append]
  changes_eq := by
    have hreports := two.changes_eq
    rw [one.outcome_eq, ← Passage.map_snd_histories] at hreports
    rw [Passage.reports, Passage.histories, List.flatMap_append, List.flatMap_append,
      Outcome.changes_append]
    exact congrArg₂ (· ++ ·) one.changes_eq hreports
  heard := by
    intro place
    rw [two.heard, one.heard, Option.map_map, one.participant_eq, Passage.noticesTo_append]
    congr 1
    funext listener
    exact List.foldl_append.symm
  lawful := by
    intro passage hpassage
    rcases List.mem_append.mp hpassage with hone | htwo
    · exact one.lawful passage hone
    · exact one.direction_eq ▸ two.lawful passage htwo

/-! ## One step -/

theorem Hosts.modify (h : session.Hosts name ref station)
    {change : Endpoint (Ref .observer) → Endpoint (Ref .observer)}
    (hparticipant : (change station.endpoint).participant = station.endpoint.participant)
    (hdirection : (change station.endpoint).direction = station.endpoint.direction)
    (houtcome : (change station.endpoint).lastOutcome = station.endpoint.lastOutcome)
    (hheld : (change station.endpoint).detached = station.endpoint.detached) :
    ∃ later, (session.modifyEndpoint ref change).Hosts name ref later ∧
      session.Course station [] (session.modifyEndpoint ref change) later := by
  refine ⟨{ station with endpoint := change station.endpoint }, ?_, ?_⟩
  · exact
      { named := h.named
        present := by
          rw [modifyEndpoint, Registry.get?_modify_same, h.present]
          rfl
        store := h.store
        entropy := h.entropy
        held := hheld.trans h.held
        alone := h.alone
        settled := houtcome ▸ h.settled }
  · have hrefl := Course.refl session station
    exact ⟨hparticipant, hdirection, houtcome, rfl, hrefl.heard, hrefl.lawful⟩

theorem Hosts.change (h : session.Hosts name ref station)
    (change : Endpoint (Ref .observer) → Endpoint (Ref .observer)) :
    control.change session name change = session.modifyEndpoint ref change := by
  simp only [control.change, h.named]

theorem Hosts.rekey (h : session.Hosts name ref station) (store : KeyStore) (entropy : Entropy) :
    (session.handle name ref (.rekey store entropy)).Hosts name ref station ∧
      session.Course station [] (session.handle name ref (.rekey store entropy)) station := by
  obtain ⟨oldStore, hstore⟩ := h.store
  obtain ⟨oldEntropy, hentropy⟩ := h.entropy
  simp only [handle, h.present]
  constructor
  · exact
      { h with
        store := ⟨_, Registry.get?_set_self hstore⟩
        entropy := ⟨_, Registry.get?_set_self hentropy⟩ }
  · exact { Course.refl session station with }

theorem passage?_eq {store : KeyStore} {entropy : Entropy}
    (hstation : session.stations.get? ref = some station)
    (hstore : session.stores.get? station.store = some store)
    (hentropy : session.entropies.get? station.entropy = some entropy) (frame : Frame) :
    session.passage? ref frame =
      let attempt := station.endpoint.attempt store entropy frame
      some
        { endpoint := station.endpoint
          store, entropy, frame
          output := attempt.output
          transitions := attempt.transitions } := by
  simp only [passage?, Option.bind_eq_bind, hstation, Option.bind_some, hstore, hentropy,
    transform_eq hstation hstore hentropy, Option.pure_def]

theorem Hosts.lawful (h : session.Hosts name ref station) {frame : Frame} {passage : Passage}
    (hpassage : session.passage? ref frame = some passage) :
    passage.Lawful station.endpoint.direction := by
  obtain ⟨store, hstore⟩ := h.store
  obtain ⟨entropy, hentropy⟩ := h.entropy
  rw [passage?_eq h.present hstore hentropy] at hpassage
  injection hpassage with hpassage
  subst hpassage
  exact Passage.lawful_of_attempt rfl rfl h.settled

theorem Hosts.frame (h : session.Hosts name ref station) (frame : Frame) :
    ∃ later, (session.handle name ref (.frame frame)).Hosts name ref later ∧
      session.Course station (session.passagesOf ref (.frame frame))
        (session.handle name ref (.frame frame)) later := by
  obtain ⟨store, hstore⟩ := h.store
  obtain ⟨entropy, hentropy⟩ := h.entropy
  have hpassage := passage?_eq h.present hstore hentropy frame
  have hlawful := h.lawful hpassage
  rw [handle, passagesOf, hpassage, transform_eq h.present hstore hentropy, Option.toList_some]
  -- How the attempt came about is of no concern from here on, only that it has
  -- changed the last outcome and what the changes were.
  generalize hattempt : station.endpoint.attempt store entropy frame = attempt
  have hendpoint := Endpoint.endpoint_attempt station.endpoint store entropy frame
  have htransitions := Endpoint.transitions_attempt station.endpoint store entropy frame
  rw [hattempt] at hendpoint htransitions
  have hplace : (session.settle ref station attempt).stations.get? ref =
      some { station with endpoint := attempt.endpoint } := Registry.get?_set_self h.present
  have halone : (session.settle ref station attempt).LeftAlone ref := h.alone
  have hheld : attempt.endpoint.detached = false := by
    rw [hendpoint]
    exact h.held
  have hfound : (session.settle ref station attempt).endpoint? ref = some attempt.endpoint := by
    rw [endpoint?, hplace]
    rfl
  have hkeeps := keepsRecord_report (session.settle ref station attempt) ref attempt.endpoint
    attempt.transitions
  obtain ⟨hspares, hquiet, hheard⟩ := halone.report hfound hheld attempt.transitions
  -- Stores and sources come out of `hkeeps`, the endpoint out of `hspares`.
  refine ⟨{ station with endpoint := attempt.endpoint }, ?_, ?_⟩
  · exact
      { named := (hspares.find?_iff name).mpr h.named
        present := hspares.station_eq.trans hplace
        store := ⟨attempt.store, by rw [hkeeps.stores_eq]; exact Registry.get?_set_self hstore⟩
        entropy :=
          ⟨attempt.entropy, by rw [hkeeps.entropies_eq]; exact Registry.get?_set_self hentropy⟩
        held := hheld
        alone := hquiet
        settled := by
          rw [hendpoint]
          exact Endpoint.latest_added_ne h.settled }
  · exact
      { participant_eq := by rw [hendpoint]
        direction_eq := by rw [hendpoint]
        outcome_eq := by rw [hendpoint, List.flatMap_singleton, ← Passage.history_eq]
        changes_eq := by
          rw [Passage.reports, Passage.histories, List.flatMap_singleton, List.flatMap_singleton,
            Outcome.changes_map, ← Passage.history_eq, htransitions]
        heard := by
          intro place
          rw [hheard, Passage.noticesTo_singleton, hendpoint]
          rfl
        lawful := by
          intro passage hmem
          rw [List.mem_singleton.mp hmem, ← hattempt]
          exact hlawful }

theorem Hosts.handle (h : session.Hosts name ref station) (step : Handling) :
    ∃ later, (session.handle name ref step).Hosts name ref later ∧
      session.Course station (session.passagesOf ref step) (session.handle name ref step)
        later := by
  cases step with
  | setEnabled value =>
      rw [Session.handle, control, h.change]
      exact h.modify rfl rfl rfl rfl
  | setKeyIndex index =>
      rw [Session.handle, control, h.change]
      exact h.modify rfl rfl rfl rfl
  | observe observer =>
      rw [Session.handle, control]
      split
      · rw [h.change]
        exact h.modify rfl rfl rfl rfl
      · exact ⟨station, h, .refl session station⟩
  | unobserve =>
      rw [Session.handle, control, h.change]
      exact h.modify rfl rfl rfl rfl
  | frame frame => exact h.frame frame
  | rekey store entropy => exact ⟨station, h.rekey store entropy⟩

theorem Hosts.map_frame_passagesOf (h : session.Hosts name ref station) (step : Handling) :
    (session.passagesOf ref step).map (·.frame) = step.frame?.toList := by
  cases step with
  | frame frame =>
      obtain ⟨store, hstore⟩ := h.store
      obtain ⟨entropy, hentropy⟩ := h.entropy
      rw [passagesOf, passage?_eq h.present hstore hentropy]
      rfl
  | _ => rfl

/-! ## The whole run -/

theorem Hosts.run (h : session.Hosts name ref station) (steps : List Handling) :
    ∃ later, (session.passages name ref steps).2.Hosts name ref later ∧
      session.Course station (session.passages name ref steps).1
        (session.passages name ref steps).2 later := by
  induction steps generalizing session station with
  | nil => exact ⟨station, h, .refl session station⟩
  | cons step rest ih =>
      obtain ⟨middle, hmiddle, hstep⟩ := h.handle step
      obtain ⟨later, hlater, hrest⟩ := ih hmiddle
      exact ⟨later, hlater, hstep.trans hrest⟩

theorem Hosts.map_frame_passages (h : session.Hosts name ref station) (steps : List Handling) :
    (session.passages name ref steps).1.map (·.frame) = steps.filterMap Handling.frame? := by
  induction steps generalizing session station with
  | nil => rfl
  | cons step rest ih =>
      obtain ⟨middle, hmiddle, -⟩ := h.handle step
      rw [passages, List.map_append, h.map_frame_passagesOf, ih hmiddle]
      cases step <;> rfl

/-- An endpoint that was just set up under a name of its own has a run before it,
if no observer controls an endpoint of this name. -/
theorem hosts_of_setUpNamed {started : Session} {participant : Participant}
    {direction : Direction} {algorithm : Algorithm} {store : Ref .store} {entropy : Ref .entropy}
    {path : Ref .path}
    (h : session.setUpNamed name participant direction algorithm store entropy path = .ok started)
    (hstore : ∃ found, session.stores.get? store = some found)
    (hentropy : ∃ found, session.entropies.get? entropy = some found)
    (hfree : session.stations.find? name = none)
    (hnext : ∀ other, session.stations.find? other ≠ some session.stations.next)
    (halone : ∀ place observer, session.observers.get? place = some observer →
      ∀ reaction ∈ observer.reactions, reaction.control.target ≠ name) :
    ∃ station, started.Hosts name session.stations.next station ∧
      station.endpoint.lastOutcome = none ∧ started.observers = session.observers ∧
      station.endpoint.participant = participant ∧ station.endpoint.direction = direction := by
  unfold setUpNamed setUp at h
  simp only [hfree, bind, Except.bind, pure, Except.pure] at h
  cases hnew : Endpoint.new participant direction algorithm
      (((session.paths.get? path).map (·.kind)).getD .audio) with
  | error error =>
      rw [hnew] at h
      cases h
  | ok endpoint =>
      rw [hnew] at h
      injection h with h
      subst h
      obtain ⟨hlast, hheld, hparticipant, hdirection⟩ : endpoint.lastOutcome = none ∧
          endpoint.detached = false ∧ endpoint.participant = participant ∧
            endpoint.direction = direction := by
        unfold Endpoint.new at hnew
        split at hnew
        · cases hnew
        · injection hnew with hnew
          subst hnew
          exact ⟨rfl, rfl, rfl, rfl⟩
      refine ⟨{ endpoint, store, entropy, path }, ?_, hlast, rfl, hparticipant, hdirection⟩
      exact
        { named := by
            show Registry.find? (Registry.assign _ name session.stations.next) name = _
            rw [Registry.find?_assign, if_pos rfl]
          present := Registry.get?_add_next session.stations _
          store := hstore
          entropy := hentropy
          held := hheld
          alone := by
            intro place observer hobserver reaction hreaction
            show Registry.find? (Registry.assign _ name session.stations.next) _ ≠ _
            rw [Registry.find?_assign, if_neg (halone place observer hobserver reaction hreaction)]
            exact hnext _
          settled := by
            rw [hlast]
            exact nofun }

end Session

/-- What is to be reported of an endpoint is its history without the outcomes
that are like the one before, and each observer hears of it what falls into the
time that it was registered. The history is read off what encrypting or
decrypting each frame comes to, with the keys and the source of that moment.
Between frames the endpoint remembers the last outcome of the history, which is
never the ratchet. -/
theorem reports_are_changes_of_history {session : Session} {name : String}
    {ref : Ref .endpoint} {station : Station} (h : session.Hosts name ref station)
    (hnew : station.endpoint.lastOutcome = none) (steps : List Handling) :
    let run := session.passages name ref steps
    let history := Passage.histories run.1
    run.1.map (·.frame) = steps.filterMap Handling.frame? ∧
    (∃ endpoint, run.2.endpoint? ref = some endpoint ∧
      endpoint.lastOutcome = (history.map Prod.snd).getLast? ∧
      endpoint.lastOutcome ≠ some .keyRatcheted) ∧
    Passage.reports run.1 = history.destutter (fun earlier later => earlier.2 ≠ later.2) ∧
    (∀ place listener, session.observers.get? place = some listener →
      let notices := Passage.noticesTo station.endpoint.participant place run.1
      run.2.observers.get? place = some
        { listener with
          heard := if listener.keeps then listener.heard ++ notices else listener.heard }) ∧
    ∀ passage ∈ run.1, passage.Lawful station.endpoint.direction := by
  intro run history
  obtain ⟨later, hlater, hcourse⟩ := h.run steps
  refine ⟨h.map_frame_passages steps, ⟨later.endpoint, ?_, ?_, hlater.settled⟩, ?_, ?_,
    hcourse.lawful⟩
  · rw [Session.endpoint?, hlater.present]
    rfl
  · rw [hcourse.outcome_eq, hnew, Outcome.latest_eq_getLast?, Option.or_none,
      ← Passage.map_snd_histories]
  · rw [hcourse.changes_eq, hnew, Outcome.changes_eq_destutter]
  · intro place listener hlistener notices
    rw [hcourse.heard, hlistener, Option.map_some, Observer.foldl_hear]

/-- A session with a store, a source, a path and one observer, who only
listens. -/
def listening : Session :=
  { Session.empty with
    stores := ⟨[⟨⟨true, [], 0, [7], 1, none⟩, ⟨[], none, [none], 0, false⟩, []⟩], []⟩
    entropies := ⟨[.constant 5], []⟩
    paths := ⟨[.new .audio], []⟩
    observers := ⟨[.new []], [("listener", ⟨0⟩)]⟩ }

/-- An endpoint observed for three frames of four. -/
def observedRun : List Handling :=
  [.observe "listener", .setEnabled true, .frame ⟨.audio, false, []⟩, .frame ⟨.audio, false, [1]⟩,
    .frame ⟨.audio, false, [1]⟩, .unobserve, .frame ⟨.audio, false, []⟩]

theorem reports_are_changes_of_observedRun :
    ∃ started, listening.setUpNamed "bob" ⟨"a"⟩ .receiver .aesGcm ⟨0⟩ ⟨0⟩ ⟨0⟩ = .ok started ∧
      let after := (started.passages "bob" ⟨0⟩ observedRun).2
      after.observers.get? ⟨0⟩ =
        some ⟨true, [⟨⟨"a"⟩, .ok⟩, ⟨⟨"a"⟩, .internalError⟩], []⟩ ∧
      (after.endpoint? ⟨0⟩).bind (·.lastOutcome) = some .ok := by
  have hstarted : listening.setUpNamed "bob" ⟨"a"⟩ .receiver .aesGcm ⟨0⟩ ⟨0⟩ ⟨0⟩ = .ok _ := rfl
  have hlistener : ∀ place observer, listening.observers.get? place = some observer →
      ∀ reaction ∈ observer.reactions, reaction.control.target ≠ "bob" := by
    intro place observer hobserver
    have hsilent : observer ∈ [Observer.new []] := List.mem_of_getElem? hobserver
    rw [List.mem_singleton.mp hsilent]
    exact nofun
  obtain ⟨station, hhosts, hnew, -, hparticipant, -⟩ :=
    Session.hosts_of_setUpNamed hstarted ⟨_, rfl⟩ ⟨_, rfl⟩ rfl (fun _ => nofun) hlistener
  obtain ⟨-, ⟨endpoint, hendpoint, hlast, -⟩, -, hheard, -⟩ :=
    reports_are_changes_of_history hhosts hnew observedRun
  have hnotices := hheard ⟨0⟩ (.new []) rfl
  rw [hparticipant] at hnotices
  refine ⟨_, hstarted, hnotices, ?_⟩
  have hplace : listening.stations.next = ⟨0⟩ := rfl
  rw [← hplace, hendpoint, Option.bind_some, hlast]
  rfl

end MediaSeal
