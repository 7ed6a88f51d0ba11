import MediaSeal.Proofs.Tenures

/-!
# Frames that are interfered with

The outcomes of one frame are reported one after the other, and a lot can
happen before each: others take the observer off its endpoint, put another one
in its place or give the endpoint up, and so can the observer itself while it is
told. When a report is due the endpoint is looked at, and the observer that was
there when the attempt was made is told if it is still there, or is there again.
Nothing holds the endpoint between the look and the telling, so the others may
come in once more, and what they do then does not keep the observer from being
told.

So a frame is followed here together with what is done meanwhile, and each
report that falls due is kept with the session in which the endpoint was looked
at and with what was done after that. Where nothing is done meanwhile a frame
passes as it always does. The attempt is over before anybody is told, and so
what comes of it does not depend on who interferes.
-/

namespace MediaSeal

/-! ## Frames with interference -/

/-- What others do around a report that falls due. -/
structure Interlude where
  /-- What they do before the endpoint is looked at. -/
  before : List Control
  /-- What they do after that, and before anybody is told. -/
  between : List Control

/-- A report that fell due. -/
structure Offer where
  notice : Notice
  /-- The session in which the endpoint was looked at. -/
  checked : Session
  /-- What others did after that, and before anybody was told. -/
  between : List Control
  /-- Who was told. -/
  told : Option (Ref .observer)

/-- The session in which an observer was told, if any was. -/
def Offer.called (offer : Offer) : Session := offer.between.foldl Session.control offer.checked

/-- A frame handed to an endpoint. -/
structure Visit where
  found : Session
  frame : Frame
  offers : List Offer
  output : Option Frame
  /-- The session once the frame is through. -/
  left : Session

/-- What happens to an endpoint that frames are handed to. -/
inductive Incident
  | controls (commands : List Control)
  /-- A frame, and what others do around each of its reports. -/
  | frame (frame : Frame) (meanwhile : List Interlude)
  /-- Others have used the key store or the source, or changed them. -/
  | rekey (store : KeyStore) (entropy : Entropy)

/-- The frame, if it is one that is handed in. -/
def Incident.frame? : Incident → Option Frame
  | frame given _ => some given
  | _ => none

/-- All that an observer was told, in order. -/
def Visit.noticesTo (observer : Ref .observer) (visits : List Visit) : List Notice :=
  ((visits.flatMap (·.offers)).filter fun offer => offer.told = some observer).map (·.notice)

/-- The sessions in which a frame arrived and in which the endpoint was looked at and
observers were told. -/
def Visit.moments (visit : Visit) : List Session :=
  visit.found :: visit.offers.flatMap fun offer => [offer.checked, offer.called]

theorem Visit.noticesTo_append (observer : Ref .observer) (first second : List Visit) :
    noticesTo observer (first ++ second) =
      noticesTo observer first ++ noticesTo observer second := by
  rw [noticesTo, List.flatMap_append, List.filter_append, List.map_append]
  rfl

namespace Session

variable {session after : Session} {name : String} {ref : Ref .endpoint} {station : Station}

/-- An observer, if there is one to be told, hears a notice. -/
def tellAny (session : Session) (told : Option (Ref .observer)) (notice : Notice) : Session :=
  match told with
  | some observer => session.tell observer notice
  | none => session

/-- A report of an attempt falls due: others do something, the endpoint is looked at, and
others do something again. The attempt was made by an endpoint that was then as
`snapshot` says. -/
def offer (session : Session) (ref : Ref .endpoint) (snapshot : Endpoint (Ref .observer))
    (outcome : Outcome) (interlude : Interlude) : Offer :=
  let checked := interlude.before.foldl control session
  { notice := ⟨snapshot.participant, outcome⟩
    checked
    between := interlude.between
    told := snapshot.observer.filter (checked.reportsTo ref ·) }

/-- The reports of an attempt fall due one by one, and each is made before the next. -/
def offerAmid (ref : Ref .endpoint) (snapshot : Endpoint (Ref .observer)) :
    Session → List Outcome → List Interlude → List Offer × Session
  | session, [], _ => ([], session)
  | session, outcome :: rest, meanwhile =>
    let offer := session.offer ref snapshot outcome (meanwhile.headD ⟨[], []⟩)
    let next := offer.called.tellAny offer.told offer.notice
    let (later, last) := offerAmid ref snapshot next rest meanwhile.tail
    (offer :: later, last)

/-- A frame handed to an endpoint while others interfere. -/
def visit (session : Session) (ref : Ref .endpoint) (frame : Frame)
    (meanwhile : List Interlude) : Visit :=
  match session.stations.get? ref with
  | none => ⟨session, frame, [], some frame, session⟩
  | some station =>
    match session.stores.get? station.store, session.entropies.get? station.entropy with
    | some store, some entropy =>
      let attempt := station.endpoint.attempt store entropy frame
      let (offers, left) := offerAmid ref attempt.endpoint (session.settle ref station attempt)
        attempt.transitions meanwhile
      ⟨session, frame, offers, attempt.output, left⟩
    | _, _ => ⟨session, frame, [], some frame, session⟩

/-- A session in which others have left this key store and this source to an
endpoint. -/
def rekey (session : Session) (ref : Ref .endpoint) (store : KeyStore) (entropy : Entropy) :
    Session :=
  match session.stations.get? ref with
  | none => session
  | some station =>
    { session with
      stores := session.stores.set station.store store
      entropies := session.entropies.set station.entropy entropy }

/-- The frames of a run, and the session after it. -/
def visits (ref : Ref .endpoint) : Session → List Incident → List Visit × Session
  | session, [] => ([], session)
  | session, .controls commands :: rest => visits ref (commands.foldl control session) rest
  | session, .frame frame meanwhile :: rest =>
    let visit := session.visit ref frame meanwhile
    let (later, last) := visits ref visit.left rest
    (visit :: later, last)
  | session, .rekey store entropy :: rest => visits ref (session.rekey ref store entropy) rest

theorem offerAmid_cons (session : Session) (ref : Ref .endpoint)
    (snapshot : Endpoint (Ref .observer)) (outcome : Outcome) (rest : List Outcome)
    (meanwhile : List Interlude) :
    offerAmid ref snapshot session (outcome :: rest) meanwhile =
      let offer := session.offer ref snapshot outcome (meanwhile.headD ⟨[], []⟩)
      let next := offer.called.tellAny offer.told offer.notice
      (offer :: (offerAmid ref snapshot next rest meanwhile.tail).1,
        (offerAmid ref snapshot next rest meanwhile.tail).2) := rfl

/-- Nobody has heard anything of what the others do around a report. -/
theorem observers_called (session : Session) (ref : Ref .endpoint)
    (snapshot : Endpoint (Ref .observer)) (outcome : Outcome) (interlude : Interlude) :
    (session.offer ref snapshot outcome interlude).called.observers = session.observers :=
  (observers_controls _ _).trans (observers_controls session _)

theorem offerAmid_nil (session : Session) (ref : Ref .endpoint)
    (snapshot : Endpoint (Ref .observer)) (transitions : List Outcome) :
    (offerAmid ref snapshot session transitions []).2 =
      session.report ref snapshot transitions := by
  unfold report
  cases hobserver : snapshot.observer with
  | none =>
      induction transitions generalizing session with
      | nil => rfl
      | cons outcome rest ih =>
          simp only [offerAmid, offer, Offer.called, hobserver, Option.filter_none,
            List.headD_nil, List.foldl_nil]
          exact ih session
  | some observer =>
      induction transitions generalizing session with
      | nil => rfl
      | cons outcome rest ih =>
          simp only [offerAmid, offer, Offer.called, hobserver, offerAll, List.headD_nil,
            List.foldl_nil]
          cases hlistening : session.reportsTo ref observer with
          | true =>
              rw [Option.filter_some_pos hlistening]
              exact ih _
          | false =>
              rw [Option.filter_some_neg hlistening]
              exact ih session

/-- Where nobody interferes, this is how any frame passes. -/
theorem visit_nil (session : Session) (ref : Ref .endpoint) (frame : Frame) :
    ((session.visit ref frame []).output, (session.visit ref frame []).left) =
      session.transform ref frame := by
  cases hstation : session.stations.get? ref with
  | none => simp only [visit, transform, hstation]
  | some station =>
      cases hstore : session.stores.get? station.store with
      | none => simp only [visit, transform, hstation, hstore]
      | some store =>
          cases hentropy : session.entropies.get? station.entropy with
          | none => simp only [visit, transform, hstation, hstore, hentropy]
          | some entropy =>
              simp only [visit, transform_eq hstation hstore hentropy, hstation, hstore,
                hentropy, offerAmid_nil]

/-! ## Endpoints that were given up -/

/-- An endpoint was given up. -/
def Gone (session : Session) (ref : Ref .endpoint) : Prop :=
  ∃ endpoint, session.endpoint? ref = some endpoint ∧ endpoint.detached = true

theorem gone_iff : session.Gone ref ↔ (session.tenure? ref).isSome ∧ session.inUse ref = false := by
  unfold Gone inUse tenure? endpoint?
  cases session.stations.get? ref with
  | none => simp
  | some station => simp

theorem Turns.gone_of_gone {given? : Option (Ref .endpoint)} (h : session.Turns given? after)
    (hgone : session.Gone ref) : after.Gone ref := by
  obtain ⟨hpresent, hleft⟩ := gone_iff.mp hgone
  exact gone_iff.mpr ⟨h.present ref hpresent, h.gone ref hpresent (.inl hleft)⟩

theorem Gone.controls (h : session.Gone ref) (commands : List Control) :
    (commands.foldl control session).Gone ref := by
  induction commands generalizing session with
  | nil => exact h
  | cons command rest ih => exact ih ((session.turns_control command).gone_of_gone h)

/-! ## The reports of one attempt -/

/-- An observer is registered with an endpoint that was not given up. -/
def Observes (session : Session) (ref : Ref .endpoint) (observer : Ref .observer) : Prop :=
  ∃ endpoint, session.endpoint? ref = some endpoint ∧ endpoint.observer = some observer ∧
    endpoint.detached = false

theorem reportsTo_iff {observer : Ref .observer} :
    session.reportsTo ref observer = true ↔ session.Observes ref observer := by
  unfold reportsTo Observes
  cases session.endpoint? ref with
  | none => simp
  | some endpoint => simp [Endpoint.reportsTo, and_comm]

/-- Where the others leave the endpoint alone after it was looked at, who observes it then
observes it still when the report is made. -/
theorem observes_called_iff {offer : Offer} {observer : Ref .observer}
    (h : ∀ command ∈ offer.between, offer.checked.stations.find? command.target ≠ some ref) :
    offer.called.Observes ref observer ↔ offer.checked.Observes ref observer := by
  have hsame : offer.called.endpoint? ref = offer.checked.endpoint? ref :=
    congrArg _ (spares_controls h).station_eq
  rw [Observes, Observes, hsame]

/-- What is true of the reports of an attempt from this session on, and of the
session after them. -/
structure Offers (session : Session) (ref : Ref .endpoint) (snapshot : Endpoint (Ref .observer))
    (transitions : List Outcome) (offers : List Offer) (left : Session) : Prop where
  notices_eq : offers.map (·.notice) = transitions.map (Notice.mk snapshot.participant)
  told_iff : ∀ offer ∈ offers, ∀ observer, offer.told = some observer ↔
    snapshot.observer = some observer ∧ offer.checked.Observes ref observer
  heard : ∀ place, left.observers.get? place = (session.observers.get? place).map
    (((offers.filter fun offer => offer.told = some place).map (·.notice)).foldl Observer.hear)
  keeps : session.KeepsRecord left
  stays_gone : (session :: (offers.flatMap fun offer => [offer.checked, offer.called]) ++
      [left]).Pairwise fun earlier later => earlier.Gone ref → later.Gone ref

theorem get?_observers_tellAny (session : Session) (told : Option (Ref .observer))
    (notice : Notice) (place : Ref .observer) :
    (session.tellAny told notice).observers.get? place =
      (session.observers.get? place).map
        ((if told = some place then [notice] else []).foldl Observer.hear) := by
  cases told with
  | none => exact Option.map_id'.symm ▸ rfl
  | some observer =>
      rw [tellAny, get?_observers_tell]
      by_cases hplace : observer = place
      · simp only [hplace, if_true, List.foldl_cons, List.foldl_nil]
      · simp only [hplace, if_false, Option.some.injEq, List.foldl_nil, Option.map_id']

theorem keepsRecord_tellAny (session : Session) (told : Option (Ref .observer))
    (notice : Notice) : session.KeepsRecord (session.tellAny told notice) := by
  cases told with
  | none => exact .refl session
  | some observer => exact session.keepsRecord_tell observer notice

theorem turns_tellAny (session : Session) (told : Option (Ref .observer)) (notice : Notice) :
    session.Turns none (session.tellAny told notice) := by
  cases told with
  | none => exact .refl session
  | some observer => exact session.turns_tell observer notice

theorem offers_offerAmid (session : Session) (ref : Ref .endpoint)
    (snapshot : Endpoint (Ref .observer)) (transitions : List Outcome)
    (meanwhile : List Interlude) :
    session.Offers ref snapshot transitions (offerAmid ref snapshot session transitions meanwhile).1
      (offerAmid ref snapshot session transitions meanwhile).2 := by
  induction transitions generalizing session meanwhile with
  | nil =>
      exact
        { notices_eq := rfl
          told_iff := nofun
          heard := fun place => Option.map_id'.symm ▸ rfl
          keeps := .refl session
          stays_gone := by simp [offerAmid] }
  | cons outcome rest ih =>
      -- What the observer does comes after its report, and before the rest.
      let offer := session.offer ref snapshot outcome (meanwhile.headD ⟨[], []⟩)
      let next := offer.called.tellAny offer.told offer.notice
      have hrest := ih next meanwhile.tail
      have hobservers : offer.called.observers = session.observers :=
        session.observers_called ref snapshot outcome _
      have hkeeps : session.KeepsRecord offer.called :=
        (session.keepsRecord_controls _).trans (offer.checked.keepsRecord_controls _)
      have hchecked : session.Gone ref → offer.checked.Gone ref := fun h => h.controls _
      have hcalled : offer.checked.Gone ref → offer.called.Gone ref := fun h => h.controls _
      have hnext : offer.called.Gone ref → next.Gone ref :=
        (offer.called.turns_tellAny offer.told offer.notice).gone_of_gone
      have hcons : offerAmid ref snapshot session (outcome :: rest) meanwhile =
          (offer :: (offerAmid ref snapshot next rest meanwhile.tail).1,
            (offerAmid ref snapshot next rest meanwhile.tail).2) :=
        session.offerAmid_cons ref snapshot outcome rest meanwhile
      rw [hcons]
      generalize offerAmid ref snapshot next rest meanwhile.tail = later at hrest
      obtain ⟨offers, left⟩ := later
      exact
        { notices_eq := congrArg (offer.notice :: ·) hrest.notices_eq
          told_iff := by
            intro other hother observer
            rcases List.mem_cons.mp hother with rfl | hlater
            · rw [← reportsTo_iff]
              exact Option.filter_eq_some_iff
            · exact hrest.told_iff other hlater observer
          heard := by
            intro place
            rw [hrest.heard, get?_observers_tellAny, hobservers, Option.map_map]
            by_cases htold : offer.told = some place
            · simp only [htold, if_true, List.filter_cons, decide_true]
              rfl
            · simp only [htold, if_false, List.filter_cons, decide_false]
              rfl
          keeps := (hkeeps.trans (offer.called.keepsRecord_tellAny offer.told offer.notice)).trans
            hrest.keeps
          stays_gone := by
            have hlater := hrest.stays_gone
            simp only [List.flatMap_cons, List.cons_append, List.nil_append,
              List.pairwise_cons] at hlater ⊢
            refine ⟨fun other hother h => ?_, fun other hother h => ?_, fun other hother h => ?_,
              hlater.2⟩
            · simp only [List.mem_cons] at hother
              rcases hother with rfl | rfl | hother
              · exact hchecked h
              · exact hcalled (hchecked h)
              · exact hlater.1 other hother (hnext (hcalled (hchecked h)))
            · rcases List.mem_cons.mp hother with rfl | hother
              · exact hcalled h
              · exact hlater.1 other hother (hnext (hcalled h))
            · exact hlater.1 other hother (hnext h) }

/-! ## An endpoint that frames can be handed to -/

/-- An endpoint has all that it works with. There is one name by which it can be
reached, and none once it was given up. -/
structure Staged (session : Session) (name : String) (ref : Ref .endpoint) : Prop where
  present : ∃ station store entropy, session.stations.get? ref = some station ∧
    session.stores.get? station.store = some store ∧
    session.entropies.get? station.entropy = some entropy
  sole : ∀ other, session.stations.find? other = some ref →
    other = name ∧ session.inUse ref = true

namespace Staged

theorem control (h : session.Staged name ref) (command : Control) :
    (session.control command).Staged name ref where
  present := by
    obtain ⟨station, store, entropy, hstation, hstore, hentropy⟩ := h.present
    obtain ⟨change, hchange⟩ := session.get?_stations_control command ref
    have hkeeps := (session.reached_control command).keepsRecord
    refine ⟨_, store, entropy, hchange.trans (congrArg _ hstation), ?_, ?_⟩
    · rw [hkeeps.stores_eq]
      exact hstore
    · rw [hkeeps.entropies_eq]
      exact hentropy
  sole := by
    intro other hother
    obtain ⟨rfl, hinUse⟩ := h.sole other (find?_of_control hother)
    refine ⟨rfl, ?_⟩
    rcases session.tenure?_control command with
      ⟨htenure, -⟩ | ⟨dropped, given, rfl, hdropped, htenure, -⟩
    · rw [inUse_congr (htenure ref)]
      exact hinUse
    · by_cases hgiven : given = ref
      · -- It can only have been dropped under its own name, which is gone now.
        subst hgiven
        obtain ⟨rfl, -⟩ := h.sole dropped hdropped
        rw [find?_control_drop] at hother
        cases hother
      · have hsame : (session.control (.drop dropped)).tenure? ref = session.tenure? ref := by
          rw [htenure, tenure?_giveUp, if_neg hgiven]
        rw [inUse_congr hsame]
        exact hinUse

theorem controls (h : session.Staged name ref) (commands : List Control) :
    (commands.foldl Session.control session).Staged name ref := by
  induction commands generalizing session with
  | nil => exact h
  | cons command rest ih => exact ih (h.control command)

theorem tellAny (h : session.Staged name ref) (told : Option (Ref .observer)) (notice : Notice) :
    (session.tellAny told notice).Staged name ref := by
  cases told with
  | none => exact h
  | some observer =>
      exact tell_induction (motive := (·.Staged name ref)) h (fun _ _ => ⟨h.present, h.sole⟩)
        fun _ _ reaction _ state hstate => hstate.control reaction.control

theorem offerAmid (h : session.Staged name ref) (snapshot : Endpoint (Ref .observer))
    (transitions : List Outcome) (meanwhile : List Interlude) :
    (offerAmid ref snapshot session transitions meanwhile).2.Staged name ref := by
  induction transitions generalizing session meanwhile with
  | nil => exact h
  | cons outcome rest ih => exact ih (((h.controls _).controls _).tellAny _ _) meanwhile.tail

theorem settle (h : session.Staged name ref) {attempt : Attempt (Ref .observer)}
    (hstation : session.stations.get? ref = some station)
    (hdetached : attempt.endpoint.detached = station.endpoint.detached) :
    (session.settle ref station attempt).Staged name ref where
  present := by
    obtain ⟨found, store, entropy, hfound, hstore, hentropy⟩ := h.present
    obtain rfl := Option.some.inj (hfound.symm.trans hstation)
    exact ⟨_, attempt.store, attempt.entropy, Registry.get?_set_self hfound,
      Registry.get?_set_self hstore, Registry.get?_set_self hentropy⟩
  sole := by
    intro other hother
    obtain ⟨hname, hinUse⟩ := h.sole other hother
    rw [inUse_congr (tenure?_settle hstation hdetached ref)]
    exact ⟨hname, hinUse⟩

theorem rekey (h : session.Staged name ref) (store : KeyStore) (entropy : Entropy) :
    (session.rekey ref store entropy).Staged name ref := by
  obtain ⟨station, oldStore, oldEntropy, hstation, hstore, hentropy⟩ := h.present
  simp only [Session.rekey, hstation]
  exact
    { present := ⟨station, store, entropy, hstation, Registry.get?_set_self hstore,
        Registry.get?_set_self hentropy⟩
      sole := h.sole }

end Staged

/-! ## One frame -/

theorem visit_eq {store : KeyStore} {entropy : Entropy}
    (hstation : session.stations.get? ref = some station)
    (hstore : session.stores.get? station.store = some store)
    (hentropy : session.entropies.get? station.entropy = some entropy) (frame : Frame)
    (meanwhile : List Interlude) :
    session.visit ref frame meanwhile =
      let attempt := station.endpoint.attempt store entropy frame
      let offered := offerAmid ref attempt.endpoint (session.settle ref station attempt)
        attempt.transitions meanwhile
      ⟨session, frame, offered.1, attempt.output, offered.2⟩ := by
  simp only [visit, hstation, hstore, hentropy]

end Session

/-- A frame has fared as the attempt at it says. Each transition came up once,
and an observer was told of it exactly if it was there at the time of the
attempt and was there when the endpoint was looked at, which had not been given
up by then. If nobody has turned to the endpoint after that, it was there when it
was told. -/
structure Visit.AsAttempted (visit : Visit) (ref : Ref .endpoint) (station : Station)
    (store : KeyStore) (entropy : Entropy) : Prop where
  station_eq : visit.found.stations.get? ref = some station
  store_eq : visit.found.stores.get? station.store = some store
  entropy_eq : visit.found.entropies.get? station.entropy = some entropy
  output_eq : visit.output = (station.endpoint.attempt store entropy visit.frame).output
  outcome_eq : (visit.left.endpoint? ref).map (·.lastOutcome) =
    some (station.endpoint.attempt store entropy visit.frame).endpoint.lastOutcome
  stores_eq : visit.left.stores = visit.found.stores.set station.store
    (station.endpoint.attempt store entropy visit.frame).store
  notices_eq : visit.offers.map (·.notice) =
    (station.endpoint.attempt store entropy visit.frame).transitions.map
      (Notice.mk station.endpoint.participant)
  told_iff : ∀ offer ∈ visit.offers, ∀ observer, offer.told = some observer ↔
    station.endpoint.observer = some observer ∧ offer.checked.Observes ref observer
  called_iff : ∀ offer ∈ visit.offers,
    (∀ command ∈ offer.between, offer.checked.stations.find? command.target ≠ some ref) →
    ∀ observer, offer.told = some observer ↔
      station.endpoint.observer = some observer ∧ offer.called.Observes ref observer

namespace Session

variable {session after : Session} {name : String} {ref : Ref .endpoint} {station : Station}

theorem asAttempted_visit {store : KeyStore} {entropy : Entropy}
    (hstation : session.stations.get? ref = some station)
    (hstore : session.stores.get? station.store = some store)
    (hentropy : session.entropies.get? station.entropy = some entropy) (frame : Frame)
    (meanwhile : List Interlude) :
    (session.visit ref frame meanwhile).AsAttempted ref station store entropy ∧
      (∀ place, (session.visit ref frame meanwhile).left.observers.get? place =
        (session.observers.get? place).map
          ((Visit.noticesTo place [session.visit ref frame meanwhile]).foldl Observer.hear)) ∧
      ((session.visit ref frame meanwhile).moments ++
          [(session.visit ref frame meanwhile).left]).Pairwise
        fun earlier later => earlier.Gone ref → later.Gone ref := by
  rw [visit_eq hstation hstore hentropy]
  dsimp only
  have hendpoint := Endpoint.endpoint_attempt station.endpoint store entropy frame
  generalize hattempt : station.endpoint.attempt store entropy frame = attempt at hendpoint
  have hoffers := offers_offerAmid (session.settle ref station attempt) ref attempt.endpoint
    attempt.transitions meanwhile
  generalize offerAmid ref attempt.endpoint (session.settle ref station attempt)
    attempt.transitions meanwhile = offered at hoffers
  obtain ⟨offers, left⟩ := offered
  have hsettled : session.Turns none (session.settle ref station attempt) := by
    refine .of_same (tenure?_settle hstation ?_) (fun _ _ h => h) fun h => h
    rw [hendpoint]
  have htold : ∀ offer ∈ offers, ∀ observer, offer.told = some observer ↔
      station.endpoint.observer = some observer ∧ offer.checked.Observes ref observer := by
    intro offer hoffer observer
    rw [hoffers.told_iff offer hoffer observer, hendpoint]
  refine ⟨?_, ?_, ?_⟩
  · exact
      { station_eq := hstation
        store_eq := hstore
        entropy_eq := hentropy
        output_eq := by rw [hattempt]
        outcome_eq := by
          rw [hattempt]
          refine (hoffers.keeps.outcome_eq ref).trans ?_
          rw [settle, endpoint?, Registry.get?_set_self hstation]
          rfl
        stores_eq := by
          rw [hattempt]
          exact hoffers.keeps.stores_eq
        notices_eq := by
          rw [hattempt]
          exact hoffers.notices_eq.trans (by rw [hendpoint])
        told_iff := htold
        called_iff := by
          intro offer hoffer halone observer
          rw [htold offer hoffer observer, observes_called_iff halone] }
  · intro place
    rw [Visit.noticesTo, List.flatMap_singleton]
    exact hoffers.heard place
  · have hlater := hoffers.stays_gone
    simp only [Visit.moments, List.cons_append, List.pairwise_cons] at hlater ⊢
    exact ⟨fun other hother h => hlater.1 other hother (hsettled.gone_of_gone h), hlater.2⟩

end Session

end MediaSeal
