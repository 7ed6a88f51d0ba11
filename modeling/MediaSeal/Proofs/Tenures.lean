import MediaSeal.Proofs.Controls
import MediaSeal.Proofs.History

/-!
# Which endpoints are in use

Endpoints are set up one after the other and given up in any order, perhaps
long after others have taken their place: by their owner, under their name,
because the name goes to another endpoint, or by an observer in the middle of a
frame. Of all that can be known of an endpoint it matters here which path it
was set up on and whether it was given up, its tenure, and most of what happens
in a session changes nobody's tenure.

That an endpoint was given up is a mark on it, which is never taken off. The
marks are compared with the steps of a run: `Turns` says what a step may do to
the endpoints that are there, and `Tally` counts which were set up and which
were given up. Only observers can make the two differ.
-/

namespace MediaSeal

namespace Registry

variable {kind : Asset} {α : Type} {registry : Registry kind α} {ref : Ref kind} {value found : α}

theorem get?_next (registry : Registry kind α) : registry.get? registry.next = none :=
  List.getElem?_eq_none (Nat.le_refl _)

theorem get?_add_of_some (h : registry.get? ref = some found) :
    (registry.add value).get? ref = some found := by
  obtain ⟨hlt, -⟩ := List.getElem?_eq_some_iff.mp h
  exact (List.getElem?_append_left hlt).trans h

end Registry

/-- What may happen to endpoints and on paths. -/
inductive PathStep
  | setUp (name : String) (participant : Participant) (direction : Direction)
      (algorithm : Algorithm) (store : Ref .store) (entropy : Ref .entropy) (path : Ref .path)
  | giveUp (ref : Ref .endpoint)
  | control (command : Control)
  | push (path : Ref .path) (frame : Frame)

/-- Whether a frame is pushed along a path. -/
def PathStep.isPushOn (path : Ref .path) : PathStep → Bool
  | push place _ => decide (place = path)
  | _ => false

namespace Session

variable {session after : Session} {path : Ref .path} {ref : Ref .endpoint}

/-! ## Tenures -/

/-- Where an endpoint was set up, and whether it was given up. -/
def tenure? (session : Session) (ref : Ref .endpoint) : Option (Ref .path × Bool) :=
  (session.stations.get? ref).map fun station => (station.path, station.endpoint.detached)

/-- Whether an endpoint is there and was not given up. -/
def inUse (session : Session) (ref : Ref .endpoint) : Bool :=
  (session.endpoint? ref).any (!·.detached)

theorem inUse_eq (session : Session) (ref : Ref .endpoint) :
    session.inUse ref = (session.tenure? ref).any (!·.2) := by
  rw [inUse, endpoint?, tenure?, Option.any_map, Option.any_map]

theorem inUse_congr (h : after.tenure? ref = session.tenure? ref) :
    after.inUse ref = session.inUse ref := by
  rw [inUse_eq, inUse_eq, h]

theorem tenure?_giveUp (session : Session) (ref other : Ref .endpoint) :
    (session.giveUp ref).tenure? other =
      if ref = other then (session.tenure? other).map fun tenure => (tenure.1, true)
      else session.tenure? other := by
  rw [tenure?, tenure?, get?_stations_giveUp, Option.map_map]
  split
  · rw [Option.map_map]
    rfl
  · rfl

theorem paths_giveUp {station : Station} (h : session.stations.get? ref = some station) :
    (session.giveUp ref).paths = session.paths.modify station.path (·.detach (.endpoint ref)) := by
  simp only [giveUp, h]
  rfl

theorem tenure?_control (session : Session) (command : Control) :
    ((∀ other, (session.control command).tenure? other = session.tenure? other) ∧
      (session.control command).paths = session.paths) ∨
    ∃ name ref, command = .drop name ∧ session.stations.find? name = some ref ∧
      (∀ other, (session.control command).tenure? other = (session.giveUp ref).tenure? other) ∧
      (session.control command).paths = (session.giveUp ref).paths := by
  rcases session.control_cases command with
    (hsame | ⟨ref, adjusted, -, hadjusts, hadjusted⟩) | ⟨name, ref, rfl, hname, hdropped⟩
  · rw [hsame]
    exact .inl ⟨fun _ => rfl, rfl⟩
  · rw [hadjusted]
    refine .inl ⟨fun other => ?_, rfl⟩
    rw [tenure?, tenure?, get?_stations_modifyEndpoint, Option.map_map]
    congr 1
    funext station
    by_cases hother : ref = other
    · simp only [Function.comp_apply, hother, if_true, hadjusts.detached_eq]
    · simp only [Function.comp_apply, hother, if_false, id_eq]
  · rw [hdropped]
    exact .inr ⟨name, ref, rfl, hname, fun _ => rfl, rfl⟩

theorem tenure?_settle {station : Station} {attempt : Attempt (Ref .observer)}
    (h : session.stations.get? ref = some station)
    (hdetached : attempt.endpoint.detached = station.endpoint.detached) (other : Ref .endpoint) :
    (session.settle ref station attempt).tenure? other = session.tenure? other := by
  unfold tenure? settle
  by_cases hother : ref = other
  · subst hother
    rw [Registry.get?_set_self h, h]
    exact congrArg (fun detached => some (station.path, detached)) hdetached
  · rw [Registry.get?_set_of_ne hother]

/-! ## Setting up -/

/-- A session with a new endpoint, which has a name and a path. -/
def withStation (session : Session) (name : String) (station : Station) : Session :=
  { session with
    stations := (session.stations.add station).assign name session.stations.next
    paths := session.paths.modify station.path (·.attach (.endpoint session.stations.next)) }

/-- The endpoint that went by a name before is given up. -/
def giveUpOlder (session : Session) (older : Option (Ref .endpoint)) : Session :=
  match older with
  | some older => session.giveUp older
  | none => session

theorem setUpNamed_of_empty {participant : Participant} (h : participant.isEmpty = true)
    (session : Session) (name : String) (direction : Direction) (algorithm : Algorithm)
    (store : Ref .store) (entropy : Ref .entropy) (path : Ref .path) :
    session.setUpNamed name participant direction algorithm store entropy path =
      .error .emptyParticipant := by
  simp only [setUpNamed, setUp, Endpoint.new, h, if_true, bind, Except.bind]

theorem setUpNamed_of_not_empty {participant : Participant} (h : participant.isEmpty = false)
    (session : Session) (name : String) (direction : Direction) (algorithm : Algorithm)
    (store : Ref .store) (entropy : Ref .entropy) (path : Ref .path) :
    ∃ endpoint : Endpoint (Ref .observer), endpoint.detached = false ∧
      session.setUpNamed name participant direction algorithm store entropy path =
        .ok ((session.withStation name ⟨endpoint, store, entropy, path⟩).giveUpOlder
          (session.stations.find? name)) := by
  have hno : ¬ participant.isEmpty = true := Bool.eq_false_iff.mp h
  simp only [setUpNamed, setUp, Endpoint.new, hno, bind, Except.bind, pure, Except.pure]
  exact ⟨_, rfl, rfl⟩

theorem tenure?_withStation (session : Session) (name : String) (station : Station) :
    (session.withStation name station).tenure? session.stations.next =
      some (station.path, station.endpoint.detached) := by
  have hnew : (session.withStation name station).stations.get? session.stations.next =
      some station := Registry.get?_add_next session.stations station
  rw [tenure?, hnew]
  rfl

theorem tenure?_withStation_of_some {tenure : Ref .path × Bool}
    (h : session.tenure? ref = some tenure) (name : String) (station : Station) :
    (session.withStation name station).tenure? ref = some tenure := by
  obtain ⟨found, hfound, htenure⟩ := Option.map_eq_some_iff.mp h
  have hkept : (session.withStation name station).stations.get? ref = some found :=
    Registry.get?_add_of_some hfound
  rw [tenure?, hkept]
  exact congrArg some htenure

theorem tenure?_next (session : Session) : session.tenure? session.stations.next = none := by
  rw [tenure?, Registry.get?_next]
  rfl

/-! ## Steps -/

/-- The session after a step. An endpoint that cannot be set up is not there
afterwards. -/
def perform (session : Session) : PathStep → Session
  | .setUp name participant direction algorithm store entropy path =>
    match session.setUpNamed name participant direction algorithm store entropy path with
    | .ok after => after
    | .error _ => session
  | .giveUp ref => session.giveUp ref
  | .control command => session.control command
  | .push path frame => (session.push path frame).2

/-- The session after some steps. -/
def performAll (session : Session) (steps : List PathStep) : Session := steps.foldl perform session

/-- The endpoint that a step sets up on a path. -/
def setsUp? (session : Session) (path : Ref .path) : PathStep → Option (Ref .endpoint)
  | .setUp name participant direction algorithm store entropy place =>
    if place = path ∧
        (session.setUpNamed name participant direction algorithm store entropy place).isOk then
      some session.stations.next
    else none
  | _ => none

/-- The endpoint that a step gives up. -/
def givesUp? (session : Session) : PathStep → Option (Ref .endpoint)
  | .setUp name participant direction algorithm store entropy place =>
    if (session.setUpNamed name participant direction algorithm store entropy place).isOk then
      session.stations.find? name
    else none
  | .giveUp ref => if (session.stations.get? ref).isSome then some ref else none
  | .control (.drop name) => session.stations.find? name
  | _ => none

/-- What comes out of a path in a step. -/
def output? (session : Session) (path : Ref .path) : PathStep → Option (Option Frame)
  | .push place frame => if place = path then some (session.push place frame).1 else none
  | _ => none

/-- What the steps of a run have for results of some kind. -/
def collect {Result : Type} (result? : Session → PathStep → Option Result) :
    Session → List PathStep → List Result
  | _, [] => []
  | session, step :: rest =>
    (result? session step).toList ++ collect result? (session.perform step) rest

/-! ## Who was given up -/

/-- No observer gives an endpoint up because of what it hears. -/
def Quiet (session : Session) : Prop :=
  ∀ place observer, session.observers.get? place = some observer →
    ∀ reaction ∈ observer.reactions, ∀ name, reaction.control ≠ .drop name

/-- What becomes of the endpoints when at most this one is given up on
purpose. -/
structure Turns (session : Session) (given? : Option (Ref .endpoint)) (after : Session) : Prop where
  present : ∀ ref, (session.tenure? ref).isSome → (after.tenure? ref).isSome
  gone : ∀ ref, (session.tenure? ref).isSome → session.inUse ref = false ∨ given? = some ref →
    after.inUse ref = false
  stays : session.Quiet → after.Quiet ∧ ∀ ref, session.inUse ref = true → given? ≠ some ref →
    after.inUse ref = true
  named : ∀ name ref, after.stations.find? name = some ref →
    session.stations.find? name = some ref ∨ (after.tenure? ref).isSome

namespace Turns

variable {given? later? : Option (Ref .endpoint)} {between : Session}

theorem of_same (htenure : ∀ ref, after.tenure? ref = session.tenure? ref)
    (hnames : ∀ name ref, after.stations.find? name = some ref →
      session.stations.find? name = some ref)
    (hquiet : session.Quiet → after.Quiet) : session.Turns none after where
  present := by
    intro ref hpresent
    rw [htenure]
    exact hpresent
  gone := by
    rintro ref - (hgone | hgiven)
    · rw [inUse_congr (htenure ref)]
      exact hgone
    · cases hgiven
  stays := by
    intro h
    refine ⟨hquiet h, fun ref hinUse _ => ?_⟩
    rw [inUse_congr (htenure ref)]
    exact hinUse
  named := fun name ref hname => .inl (hnames name ref hname)

theorem refl (session : Session) : session.Turns none session :=
  of_same (fun _ => rfl) (fun _ _ h => h) fun h => h

/-- One after the other; what counts as given up on purpose in both is to be
chosen, and need not fit if observers give up what they like. -/
theorem chain {first? second? : Option (Ref .endpoint)} (first : session.Turns first? between)
    (second : between.Turns second? after)
    (hgiven : ∀ ref, given? = some ref → first? = some ref ∨ second? = some ref)
    (hother : session.Quiet → ∀ ref, given? ≠ some ref → first? ≠ some ref ∧ second? ≠ some ref) :
    session.Turns given? after where
  present := fun ref hpresent => second.present ref (first.present ref hpresent)
  gone := by
    intro ref hpresent hgone
    have hbetween := first.present ref hpresent
    rcases hgone with hgone | href
    · exact second.gone ref hbetween (.inl (first.gone ref hpresent (.inl hgone)))
    · rcases hgiven ref href with hfirst | hsecond
      · exact second.gone ref hbetween (.inl (first.gone ref hpresent (.inr hfirst)))
      · exact second.gone ref hbetween (.inr hsecond)
  stays := by
    intro h
    obtain ⟨hbetween, hfirst⟩ := first.stays h
    obtain ⟨hafter, hsecond⟩ := second.stays hbetween
    refine ⟨hafter, fun ref hinUse href => ?_⟩
    obtain ⟨hnotFirst, hnotSecond⟩ := hother h ref href
    exact hsecond ref (hfirst ref hinUse hnotFirst) hnotSecond
  named := by
    intro name ref hname
    rcases second.named name ref hname with hbetween | hpresent
    · exact (first.named name ref hbetween).imp id (second.present ref)
    · exact .inr hpresent

theorem trans (first : session.Turns given? between) (second : between.Turns later? after)
    (hlater : session.Quiet → later? = none) : session.Turns given? after := by
  refine first.chain second (fun _ h => .inl h) fun h ref href => ⟨href, ?_⟩
  rw [hlater h]
  exact nofun

theorem after_none (first : session.Turns none between) (second : between.Turns given? after) :
    session.Turns given? after :=
  first.chain second (fun _ h => .inr h) fun _ _ href => ⟨nofun, href⟩

end Turns

theorem observers_giveUp (session : Session) (ref : Ref .endpoint) :
    (session.giveUp ref).observers = session.observers := by
  unfold giveUp
  split <;> rfl

theorem isSome_of_inUse (h : session.inUse ref = true) : (session.tenure? ref).isSome := by
  rw [inUse_eq] at h
  cases htenure : session.tenure? ref with
  | none =>
      rw [htenure] at h
      cases h
  | some tenure => rfl

theorem turns_giveUp (session : Session) (ref : Ref .endpoint) :
    session.Turns (some ref) (session.giveUp ref) where
  present := by
    intro other hpresent
    rw [tenure?_giveUp]
    split
    · rw [Option.isSome_map]
      exact hpresent
    · exact hpresent
  gone := by
    intro other hpresent hgone
    rw [inUse_eq, tenure?_giveUp]
    split
    · cases session.tenure? other <;> rfl
    · next hother =>
        rcases hgone with hgone | hsame
        · rw [← inUse_eq]
          exact hgone
        · exact absurd (Option.some.inj hsame) hother
  stays := by
    intro h
    refine ⟨?_, fun other hinUse hother => ?_⟩
    · unfold Quiet
      rw [observers_giveUp]
      exact h
    · rw [inUse_eq, tenure?_giveUp, if_neg fun hsame => hother (congrArg some hsame), ← inUse_eq]
      exact hinUse
  named := by
    intro name other hname
    rw [find?_giveUp] at hname
    exact .inl hname

theorem givesUp?_control_of_ne {command : Control} (h : ∀ name, command ≠ .drop name) :
    session.givesUp? (.control command) = none := by
  cases command with
  | drop name => exact absurd rfl (h name)
  | _ => rfl

theorem turns_control (session : Session) (command : Control) :
    session.Turns (session.givesUp? (.control command)) (session.control command) := by
  by_cases hdrop : ∃ name, command = .drop name
  · obtain ⟨name, rfl⟩ := hdrop
    cases hname : session.stations.find? name with
    | none =>
        simp only [givesUp?, Session.control, hname]
        exact .refl session
    | some ref =>
        simp only [givesUp?, Session.control, hname]
        refine (session.turns_giveUp ref).trans (.of_same (fun _ => rfl) ?_ fun h => h)
          fun _ => rfl
        intro other found hfound
        rw [Registry.find?_forget] at hfound
        exact (Option.ite_none_left_eq_some.mp hfound).2
  · have hother : ∀ name, command ≠ .drop name := fun name h => hdrop ⟨name, h⟩
    rw [givesUp?_control_of_ne hother]
    rcases session.tenure?_control command with ⟨htenure, -⟩ | ⟨name, -, h, -⟩
    · refine .of_same htenure (fun _ _ => find?_of_control) fun h => ?_
      unfold Quiet
      rw [(session.reached_control command).observers_eq]
      exact h
    · exact absurd h (hother name)

theorem turns_tell (session : Session) (observer : Ref .observer) (notice : Notice) :
    session.Turns none (session.tell observer notice) := by
  refine tell_induction (motive := fun state => session.Turns none state) (.refl session) ?_ ?_
  · intro listener hlistener
    refine .of_same (fun _ => rfl) (fun _ _ h => h) fun h place other hother => ?_
    by_cases hplace : observer = place
    · subst hplace
      obtain rfl := Option.some.inj ((Registry.get?_set_self hlistener).symm.trans hother)
      rw [Observer.reactions_hear]
      exact h observer listener hlistener
    · exact h place other ((Registry.get?_set_of_ne hplace).symm.trans hother)
  · -- What an observer gives up is nobody's purpose; a quiet one gives nothing up.
    intro listener hlistener reaction hreaction state hstate
    exact hstate.trans (state.turns_control reaction.control) fun h =>
      givesUp?_control_of_ne (h observer listener hlistener reaction hreaction)

theorem turns_transform (session : Session) (ref : Ref .endpoint) (frame : Frame) :
    session.Turns none (session.transform ref frame).2 := by
  rcases session.transform_cases ref frame with
    hsame | ⟨station, store, entropy, hstation, -, -, htransform⟩
  · rw [hsame]
    exact .refl session
  · rw [htransform]
    refine report_induction (motive := fun state => session.Turns none state) ?_ ?_
    · refine .of_same (tenure?_settle hstation ?_) (fun _ _ h => h) fun h => h
      rw [Endpoint.endpoint_attempt]
    · intro state observer notice hstate
      exact hstate.trans (state.turns_tell observer notice) fun _ => rfl

theorem turns_push (session : Session) (place : Ref .path) (frame : Frame) :
    session.Turns none (session.push place frame).2 := by
  have hcount : ∀ (state : Session) (output : Option Frame),
      state.Turns none (state.modifyPath place (·.count output)) := fun state output =>
    .of_same (fun _ => rfl) (fun _ _ h => h) fun h => h
  cases hhook : (session.paths.get? place).bind (·.hook) with
  | none =>
      simp only [push, hhook]
      exact hcount session _
  | some hook =>
      have hthrough : session.Turns none (session.throughHook hook frame).2 := by
        cases hook with
        | endpoint ref => exact session.turns_transform ref frame
        | foreign ref =>
            cases hfound : session.hooks.get? ref <;>
              simp only [throughHook, hfound] <;> exact .refl session
      simp only [push, hhook]
      exact hthrough.trans (hcount _ _) fun _ => rfl

theorem turns_withStation (session : Session) (name : String) (station : Station) :
    session.Turns none (session.withStation name station) := by
  have hkept : ∀ ref, (session.tenure? ref).isSome →
      (session.withStation name station).tenure? ref = session.tenure? ref := by
    intro ref hpresent
    obtain ⟨tenure, htenure⟩ := Option.isSome_iff_exists.mp hpresent
    rw [htenure]
    exact tenure?_withStation_of_some htenure name station
  exact
    { present := by
        intro ref hpresent
        rw [hkept ref hpresent]
        exact hpresent
      gone := by
        rintro ref hpresent (hgone | hgiven)
        · rw [inUse_congr (hkept ref hpresent)]
          exact hgone
        · cases hgiven
      stays := by
        intro h
        refine ⟨h, fun ref hinUse _ => ?_⟩
        rw [inUse_congr (hkept ref (isSome_of_inUse hinUse))]
        exact hinUse
      named := by
        intro other ref hname
        rw [withStation, Registry.find?_assign] at hname
        split at hname
        · rw [← Option.some.inj hname, tenure?_withStation]
          exact .inr rfl
        · exact .inl hname }

theorem turns_perform (session : Session) (step : PathStep) :
    session.Turns (session.givesUp? step) (session.perform step) := by
  cases step with
  | control command => exact session.turns_control command
  | push place frame => exact session.turns_push place frame
  | giveUp ref =>
      cases hstation : session.stations.get? ref with
      | none =>
          simp only [givesUp?, perform, giveUp, hstation]
          exact .refl session
      | some station =>
          simp only [givesUp?, perform, hstation, Option.isSome_some, if_true]
          exact session.turns_giveUp ref
  | setUp name participant direction algorithm store entropy place =>
      cases hparticipant : participant.isEmpty with
      | true =>
          simp only [givesUp?, perform, setUpNamed_of_empty hparticipant, Except.isOk,
            Except.toBool, Bool.false_eq_true, if_false]
          exact .refl session
      | false =>
          obtain ⟨endpoint, -, hok⟩ := session.setUpNamed_of_not_empty hparticipant name
            direction algorithm store entropy place
          simp only [givesUp?, perform, hok, Except.isOk, Except.toBool, if_true]
          refine (session.turns_withStation name ⟨endpoint, store, entropy, place⟩).after_none ?_
          cases session.stations.find? name with
          | none => exact .refl _
          | some older => exact turns_giveUp _ older

/-! ## Steps and marks compared -/

/-- An endpoint that a run has set up is in use unless a step has given it up. -/
structure Tally (quiet : Prop) (session : Session) (built given : List (Ref .endpoint)) :
    Prop where
  named : ∀ name ref, session.stations.find? name = some ref → (session.tenure? ref).isSome
  present : ∀ ref ∈ built ++ given, (session.tenure? ref).isSome
  gone : ∀ ref ∈ built, ref ∈ given → session.inUse ref = false
  stays : quiet → session.Quiet ∧ ∀ ref ∈ built, ref ∉ given → session.inUse ref = true

namespace Tally

variable {quiet : Prop} {built given : List (Ref .endpoint)}

theorem present_of_givesUp? (h : session.Tally quiet built given) {step : PathStep}
    (hgiven : session.givesUp? step = some ref) : (session.tenure? ref).isSome := by
  cases step with
  | push place frame => cases hgiven
  | giveUp other =>
      obtain ⟨hpresent, hsame⟩ := Option.ite_none_right_eq_some.mp hgiven
      rw [← Option.some.inj hsame, tenure?, Option.isSome_map]
      exact hpresent
  | setUp name participant direction algorithm store entropy place =>
      exact h.named name ref (Option.ite_none_right_eq_some.mp hgiven).2
  | control command =>
      cases command with
      | drop name => exact h.named name ref hgiven
      | _ => cases hgiven

theorem inUse_of_setsUp? (h : session.Tally quiet built given) {step : PathStep}
    (hbuilt : session.setsUp? path step = some ref) :
    ref = session.stations.next ∧ (session.perform step).inUse ref = true := by
  cases step with
  | setUp name participant direction algorithm store entropy place =>
      obtain ⟨⟨-, hsucceeds⟩, hnext⟩ := Option.ite_none_right_eq_some.mp hbuilt
      obtain rfl := Option.some.inj hnext
      refine ⟨rfl, ?_⟩
      cases hparticipant : participant.isEmpty with
      | true =>
          rw [setUpNamed_of_empty hparticipant] at hsucceeds
          cases hsucceeds
      | false =>
          obtain ⟨endpoint, hheld, hok⟩ := session.setUpNamed_of_not_empty hparticipant name
            direction algorithm store entropy place
          have hnew := session.tenure?_withStation name ⟨endpoint, store, entropy, place⟩
          simp only [Session.perform, hok]
          cases holder : session.stations.find? name with
          | none =>
              rw [giveUpOlder, inUse_eq, hnew, hheld]
              rfl
          | some older =>
              have hother : older ≠ session.stations.next := by
                intro hsame
                have hpresent := h.named name older holder
                rw [hsame, tenure?_next] at hpresent
                cases hpresent
              rw [giveUpOlder, inUse_eq, tenure?_giveUp, if_neg hother, hnew, hheld]
              rfl
  | _ => cases hbuilt

theorem perform (h : session.Tally quiet built given) (path : Ref .path) (step : PathStep) :
    (session.perform step).Tally quiet (built ++ (session.setsUp? path step).toList)
      (given ++ (session.givesUp? step).toList) := by
  have hturns := session.turns_perform step
  have hnew : ∀ ref, session.setsUp? path step = some ref →
      session.tenure? ref = none ∧ (session.perform step).inUse ref = true := by
    intro ref href
    obtain ⟨rfl, hinUse⟩ := h.inUse_of_setsUp? href
    exact ⟨session.tenure?_next, hinUse⟩
  exact
    { named := by
        intro name ref hname
        rcases hturns.named name ref hname with hbefore | hpresent
        · exact hturns.present ref (h.named name ref hbefore)
        · exact hpresent
      present := by
        intro ref href
        simp only [List.mem_append, Option.mem_toList] at href
        rcases href with (hbuilt | hset) | (hgiven | hgiven)
        · exact hturns.present ref (h.present ref (List.mem_append_left _ hbuilt))
        · exact isSome_of_inUse (hnew ref hset).2
        · exact hturns.present ref (h.present ref (List.mem_append_right _ hgiven))
        · exact hturns.present ref (h.present_of_givesUp? hgiven)
      gone := by
        intro ref hbuilt hgiven
        simp only [List.mem_append, Option.mem_toList] at hbuilt hgiven
        have hpresent : (session.tenure? ref).isSome := by
          rcases hgiven with hgiven | hgiven
          · exact h.present ref (List.mem_append_right _ hgiven)
          · exact h.present_of_givesUp? hgiven
        rcases hbuilt with hbuilt | hset
        · exact hturns.gone ref hpresent (hgiven.imp (h.gone ref hbuilt) id)
        · -- What is given up was there before the step, and so it is not the new one.
          rw [(hnew ref hset).1] at hpresent
          cases hpresent
      stays := by
        intro hquiet
        obtain ⟨hbefore, hstays⟩ := h.stays hquiet
        obtain ⟨hafter, hkept⟩ := hturns.stays hbefore
        refine ⟨hafter, fun ref hbuilt hgiven => ?_⟩
        simp only [List.mem_append, Option.mem_toList, not_or] at hbuilt hgiven
        rcases hbuilt with hbuilt | hset
        · exact hkept ref (hstays ref hbuilt hgiven.1) hgiven.2
        · exact (hnew ref hset).2 }

theorem performAll (h : session.Tally quiet built given) (path : Ref .path)
    (steps : List PathStep) :
    (session.performAll steps).Tally quiet (built ++ collect (setsUp? · path) session steps)
      (given ++ collect givesUp? session steps) := by
  induction steps generalizing session built given with
  | nil =>
      rw [collect, collect, List.append_nil, List.append_nil]
      exact h
  | cons step rest ih =>
      rw [collect, collect, ← List.append_assoc, ← List.append_assoc]
      exact ih (h.perform path step)

end Tally

end Session

end MediaSeal
