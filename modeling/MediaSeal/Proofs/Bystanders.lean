import MediaSeal.Session.Frames

/-!
# What a report can stir up

An observer that is told something may answer with controls, and a control may
switch an endpoint, give it another observer or give it up. So a good deal of
the session can be different once a frame has passed. Two things limit it.

Whatever the controls are, key stores and sources are as they were, and every
endpoint keeps the outcome it had last: these belong to the frames.

And a control reaches one endpoint, the one that goes by the name in it. For
all others it is as if nothing had happened. They cannot even be mistaken for
others afterwards, since a control gives no names and takes none but the one
it drops.
-/

namespace MediaSeal

/-! ## Places and names -/

namespace Registry

variable {kind : Asset} {α : Type} {registry : Registry kind α} {ref other : Ref kind}
  {value found : α}

theorem get?_set_self (h : registry.get? ref = some found) :
    (registry.set ref value).get? ref = some value := by
  obtain ⟨hlt, -⟩ := List.getElem?_eq_some_iff.mp h
  exact List.getElem?_set_self hlt

theorem get?_set_of_ne (h : ref ≠ other) :
    (registry.set ref value).get? other = registry.get? other := by
  refine List.getElem?_set_ne fun hplace => h ?_
  cases ref
  cases other
  exact congrArg Ref.mk hplace

theorem set_of_get? (h : registry.get? ref = some value) : registry.set ref value = registry := by
  obtain ⟨hlt, hvalue⟩ := List.getElem?_eq_some_iff.mp h
  rw [set, ← hvalue, List.set_getElem_self]

theorem find?_forget (registry : Registry kind α) (name other : String) :
    (registry.forget name).find? other =
      if other = name then none else registry.find? other := by
  unfold forget find?
  induction registry.names with
  | nil => rw [List.filter_nil, List.lookup_nil, ite_self]
  | cons entry rest ih =>
      obtain ⟨first, place⟩ := entry
      by_cases hfirst : first = name
      · rw [List.filter_cons_of_neg (by simp [hfirst]), ih]
        by_cases hother : other = name
        · rw [if_pos hother, if_pos hother]
        · have hne : (other == first) = false := beq_eq_false_iff_ne.mpr (hfirst ▸ hother)
          rw [if_neg hother, if_neg hother, List.lookup_cons, hne]
      · rw [List.filter_cons_of_pos (by simp [hfirst]), List.lookup_cons, List.lookup_cons, ih]
        by_cases hother : other = first
        · rw [hother, beq_self_eq_true]
          exact (if_neg hfirst).symm
        · rw [beq_eq_false_iff_ne.mpr hother]

theorem find?_assign (registry : Registry kind α) (name : String) (ref : Ref kind)
    (other : String) :
    (registry.assign name ref).find? other =
      if other = name then some ref else registry.find? other := by
  have hrest := registry.find?_forget name other
  unfold forget find? at hrest
  unfold assign find?
  rw [List.lookup_cons]
  by_cases hother : other = name
  · rw [hother, beq_self_eq_true, if_pos rfl]
  · rw [beq_eq_false_iff_ne.mpr hother, if_neg hother]
    exact hrest.trans (if_neg hother)

end Registry

/-- The name of the endpoint that a control is meant for. -/
def Control.target : Control → String
  | setEnabled endpoint _ | setKeyIndex endpoint _ | observe endpoint _ | unobserve endpoint
  | drop endpoint => endpoint

theorem Observer.reactions_hear (observer : Observer) (notice : Notice) :
    (observer.hear notice).reactions = observer.reactions := by
  unfold hear
  split <;> rfl

namespace Session

variable {session after : Session} {ref : Ref .endpoint}

theorem endpoint?_modifyEndpoint (session : Session) (ref other : Ref .endpoint)
    (change : Endpoint (Ref .observer) → Endpoint (Ref .observer)) :
    (session.modifyEndpoint ref change).endpoint? other =
      if ref = other then (session.endpoint? other).map change else session.endpoint? other := by
  unfold endpoint? modifyEndpoint
  by_cases h : ref = other
  · subst h
    rw [if_pos rfl, Registry.get?_modify_same, Option.map_map, Option.map_map]
    rfl
  · rw [if_neg h, Registry.get?_modify_of_ne _ _ h]

/-! ## All that a control can do -/

/-- The session in which a name stands for no endpoint. -/
def forget (session : Session) (name : String) : Session :=
  { session with stations := session.stations.forget name }

/-- What a control for the endpoint of a name can make of a session. -/
inductive Reached (session : Session) (name : String) : Session → Prop
  | same : Reached session name session
  | changed {ref : Ref .endpoint} {change : Endpoint (Ref .observer) → Endpoint (Ref .observer)}
      (named : session.stations.find? name = some ref)
      (outcome_eq : ∀ endpoint, (change endpoint).lastOutcome = endpoint.lastOutcome) :
      Reached session name (session.modifyEndpoint ref change)
  | dropped {ref : Ref .endpoint} (named : session.stations.find? name = some ref) :
      Reached session name ((session.giveUp ref).forget name)

theorem reached_change {name : String}
    {change : Endpoint (Ref .observer) → Endpoint (Ref .observer)}
    (h : ∀ endpoint, (change endpoint).lastOutcome = endpoint.lastOutcome) :
    session.Reached name (control.change session name change) := by
  unfold control.change
  split
  · next ref hname => exact .changed hname h
  · exact .same

theorem reached_control (session : Session) (command : Control) :
    session.Reached command.target (session.control command) := by
  cases command with
  | setEnabled name value => exact reached_change fun _ => rfl
  | setKeyIndex name index => exact reached_change fun _ => rfl
  | unobserve name => exact reached_change fun _ => rfl
  | observe name observer =>
      simp only [control]
      split
      · exact reached_change fun _ => rfl
      · exact .same
  | drop name =>
      simp only [control]
      split
      · next ref hname => exact .dropped hname
      · exact .same

/-! ## What belongs to the frames -/

/-- No key store has moved, no source has been drawn from, and every endpoint
has the last outcome that it had. -/
structure KeepsRecord (session after : Session) : Prop where
  stores_eq : after.stores = session.stores
  entropies_eq : after.entropies = session.entropies
  outcome_eq : ∀ ref, (after.endpoint? ref).map (·.lastOutcome) =
    (session.endpoint? ref).map (·.lastOutcome)

namespace KeepsRecord

theorem refl (session : Session) : session.KeepsRecord session := ⟨rfl, rfl, fun _ => rfl⟩

theorem trans {between : Session} (first : session.KeepsRecord between)
    (second : between.KeepsRecord after) : session.KeepsRecord after where
  stores_eq := second.stores_eq.trans first.stores_eq
  entropies_eq := second.entropies_eq.trans first.entropies_eq
  outcome_eq := fun ref => (second.outcome_eq ref).trans (first.outcome_eq ref)

end KeepsRecord

theorem keepsRecord_modifyEndpoint {change : Endpoint (Ref .observer) → Endpoint (Ref .observer)}
    (h : ∀ endpoint, (change endpoint).lastOutcome = endpoint.lastOutcome) :
    session.KeepsRecord (session.modifyEndpoint ref change) where
  stores_eq := rfl
  entropies_eq := rfl
  outcome_eq := by
    intro other
    rw [endpoint?_modifyEndpoint]
    split
    · rw [Option.map_map]
      congr 1
      exact funext h
    · rfl

theorem keepsRecord_giveUp (session : Session) (ref : Ref .endpoint) :
    session.KeepsRecord (session.giveUp ref) := by
  unfold giveUp
  split
  · exact .refl session
  · next station hstation =>
      have hpath : session.KeepsRecord
          (session.modifyPath station.path (·.detach (.endpoint ref))) := ⟨rfl, rfl, fun _ => rfl⟩
      exact hpath.trans (keepsRecord_modifyEndpoint fun _ => rfl)

theorem Reached.keepsRecord {name : String} (h : session.Reached name after) :
    session.KeepsRecord after := by
  cases h with
  | same => exact .refl session
  | changed named outcome_eq => exact keepsRecord_modifyEndpoint outcome_eq
  | dropped named => exact (session.keepsRecord_giveUp _).trans ⟨rfl, rfl, fun _ => rfl⟩

theorem keepsRecord_controls (session : Session) (commands : List Control) :
    session.KeepsRecord (commands.foldl control session) := by
  induction commands generalizing session with
  | nil => exact .refl session
  | cons command rest ih => exact (session.reached_control command).keepsRecord.trans (ih _)

theorem keepsRecord_tell (session : Session) (observer : Ref .observer) (notice : Notice) :
    session.KeepsRecord (session.tell observer notice) := by
  unfold tell
  split
  · exact .refl session
  · next listener hlistener =>
      have hheard : session.KeepsRecord
          { session with observers := session.observers.set observer (listener.hear notice) } :=
        ⟨rfl, rfl, fun _ => rfl⟩
      exact hheard.trans (keepsRecord_controls _ _)

/-- Whatever the observers do about it, a report leaves all this as it was. -/
theorem keepsRecord_report (session : Session) (ref : Ref .endpoint)
    (endpoint : Endpoint (Ref .observer)) (transitions : List Outcome) :
    session.KeepsRecord (session.report ref endpoint transitions) := by
  unfold report
  split
  · exact .refl session
  · next observer hobserver =>
      induction transitions generalizing session with
      | nil => exact .refl session
      | cons outcome rest ih =>
          rw [offerAll]
          split
          · exact (session.keepsRecord_tell _ _).trans (ih _)
          · exact ih session

/-! ## A frame at a station -/

section Transform

variable {station : Station} {store : KeyStore} {entropy : Entropy}

/-- The session in which an attempt has been made and nobody was told. -/
def settle (session : Session) (ref : Ref .endpoint) (station : Station)
    (attempt : Attempt (Ref .observer)) : Session :=
  { session with
    stations := session.stations.set ref { station with endpoint := attempt.endpoint }
    stores := session.stores.set station.store attempt.store
    entropies := session.entropies.set station.entropy attempt.entropy }

theorem transform_eq (hstation : session.stations.get? ref = some station)
    (hstore : session.stores.get? station.store = some store)
    (hentropy : session.entropies.get? station.entropy = some entropy) (frame : Frame) :
    session.transform ref frame =
      let attempt := station.endpoint.attempt store entropy frame
      (attempt.output,
        (session.settle ref station attempt).report ref attempt.endpoint attempt.transitions) := by
  simp only [transform, hstation, hstore, hentropy, settle]

theorem lastOutcome_transform (hstation : session.stations.get? ref = some station)
    (hstore : session.stores.get? station.store = some store)
    (hentropy : session.entropies.get? station.entropy = some entropy) (frame : Frame) :
    ((session.transform ref frame).2.endpoint? ref).map (·.lastOutcome) =
      some (station.endpoint.attempt store entropy frame).endpoint.lastOutcome := by
  rw [transform_eq hstation hstore hentropy, (keepsRecord_report _ _ _ _).outcome_eq, settle,
    endpoint?, Registry.get?_set_self hstation]
  rfl

end Transform

/-! ## What is no concern of a control -/

/-- An endpoint is as it was, and the names that it goes by are the same. -/
structure Spares (session : Session) (ref : Ref .endpoint) (after : Session) : Prop where
  station_eq : after.stations.get? ref = session.stations.get? ref
  find?_iff : ∀ name, after.stations.find? name = some ref ↔
    session.stations.find? name = some ref

namespace Spares

theorem refl (session : Session) (ref : Ref .endpoint) : session.Spares ref session :=
  ⟨rfl, fun _ => Iff.rfl⟩

theorem trans {between : Session} (first : session.Spares ref between)
    (second : between.Spares ref after) : session.Spares ref after where
  station_eq := second.station_eq.trans first.station_eq
  find?_iff := fun name => (second.find?_iff name).trans (first.find?_iff name)

end Spares

theorem spares_modifyEndpoint {other : Ref .endpoint} (h : other ≠ ref)
    (change : Endpoint (Ref .observer) → Endpoint (Ref .observer)) :
    session.Spares ref (session.modifyEndpoint other change) where
  station_eq := Registry.get?_modify_of_ne _ _ h
  find?_iff := fun _ => Iff.rfl

theorem spares_giveUp {other : Ref .endpoint} (h : other ≠ ref) :
    session.Spares ref (session.giveUp other) := by
  unfold giveUp
  split
  · exact .refl session ref
  · next station hstation =>
      have hpath : session.Spares ref
          (session.modifyPath station.path (·.detach (.endpoint other))) :=
        ⟨rfl, fun _ => Iff.rfl⟩
      exact hpath.trans (spares_modifyEndpoint h _)

theorem spares_forget {name : String} (h : session.stations.find? name ≠ some ref) :
    session.Spares ref (session.forget name) where
  station_eq := rfl
  find?_iff := by
    intro other
    rw [forget, Registry.find?_forget]
    by_cases hother : other = name
    · rw [if_pos hother, hother]
      constructor
      · intro hnone
        cases hnone
      · intro hnamed
        exact absurd hnamed h
    · rw [if_neg hother]

theorem Reached.spares {name : String} (h : session.Reached name after)
    (hname : session.stations.find? name ≠ some ref) : session.Spares ref after := by
  cases h with
  | same => exact .refl session ref
  | changed named outcome_eq =>
      refine spares_modifyEndpoint ?_ _
      rintro rfl
      exact hname named
  | @dropped other named =>
      have hgiven : session.Spares ref (session.giveUp other) := by
        refine spares_giveUp ?_
        rintro rfl
        exact hname named
      exact hgiven.trans (spares_forget fun hnamed => hname ((hgiven.find?_iff _).mp hnamed))

theorem spares_controls {commands : List Control}
    (h : ∀ command ∈ commands, session.stations.find? command.target ≠ some ref) :
    session.Spares ref (commands.foldl control session) := by
  induction commands generalizing session with
  | nil => exact .refl session ref
  | cons command rest ih =>
      have hfirst := (session.reached_control command).spares (h command (List.mem_cons_self ..))
      refine hfirst.trans (ih fun other hother hnamed => ?_)
      exact h other (List.mem_cons_of_mem _ hother) ((hfirst.find?_iff _).mp hnamed)

/-! ## Reports that are not answered -/

theorem Reached.observers_eq {name : String} (h : session.Reached name after) :
    after.observers = session.observers := by
  cases h with
  | same => rfl
  | changed => rfl
  | dropped =>
      unfold forget giveUp
      split <;> rfl

theorem observers_controls (session : Session) (commands : List Control) :
    (commands.foldl control session).observers = session.observers := by
  induction commands generalizing session with
  | nil => rfl
  | cons command rest ih => exact (ih _).trans (session.reached_control command).observers_eq

theorem get?_observers_tell (session : Session) (observer other : Ref .observer)
    (notice : Notice) :
    (session.tell observer notice).observers.get? other =
      if observer = other then (session.observers.get? other).map (·.hear notice)
      else session.observers.get? other := by
  unfold tell
  split
  · next hnobody =>
      split
      · next hsame =>
          subst hsame
          rw [hnobody]
          rfl
      · rfl
  · next listener hlistener =>
      rw [observers_controls]
      split
      · next hsame =>
          subst hsame
          rw [Registry.get?_set_self hlistener, hlistener]
          rfl
      · next hother => exact Registry.get?_set_of_ne hother

/-- No observer answers anything with a control for this endpoint. -/
def LeftAlone (session : Session) (ref : Ref .endpoint) : Prop :=
  ∀ place observer, session.observers.get? place = some observer →
    ∀ reaction ∈ observer.reactions, session.stations.find? reaction.control.target ≠ some ref

theorem LeftAlone.spares_tell (h : session.LeftAlone ref) (observer : Ref .observer)
    (notice : Notice) : session.Spares ref (session.tell observer notice) := by
  unfold tell
  split
  · exact .refl session ref
  · next listener hlistener =>
      have hheard : session.Spares ref
          { session with observers := session.observers.set observer (listener.hear notice) } :=
        ⟨rfl, fun _ => Iff.rfl⟩
      refine hheard.trans (spares_controls fun command hcommand => ?_)
      obtain ⟨reaction, hreaction, rfl⟩ := List.mem_map.mp hcommand
      exact h observer listener hlistener reaction (List.mem_filter.mp hreaction).1

theorem LeftAlone.tell (h : session.LeftAlone ref) (observer : Ref .observer) (notice : Notice) :
    (session.tell observer notice).LeftAlone ref := by
  intro place listener hlistener reaction hreaction hnamed
  have hbefore := ((h.spares_tell observer notice).find?_iff _).mp hnamed
  rw [get?_observers_tell] at hlistener
  split at hlistener
  · obtain ⟨earlier, hearlier, rfl⟩ := Option.map_eq_some_iff.mp hlistener
    rw [Observer.reactions_hear] at hreaction
    exact h place earlier hearlier reaction hreaction hbefore
  · exact h place listener hlistener reaction hreaction hbefore

theorem Spares.endpoint?_eq (h : session.Spares ref after) :
    after.endpoint? ref = session.endpoint? ref := by
  rw [endpoint?, endpoint?, h.station_eq]

/-- Where nobody answers, an observer takes in every report of a frame, once and
in order, and the endpoint is not touched by it. -/
theorem LeftAlone.report {endpoint : Endpoint (Ref .observer)} (h : session.LeftAlone ref)
    (hendpoint : session.endpoint? ref = some endpoint) (hheld : endpoint.detached = false)
    (transitions : List Outcome) :
    session.Spares ref (session.report ref endpoint transitions) ∧
      (session.report ref endpoint transitions).LeftAlone ref ∧
      ∀ place, (session.report ref endpoint transitions).observers.get? place =
        (session.observers.get? place).map
          ((if endpoint.observer = some place then
              transitions.map (Notice.mk endpoint.participant) else []).foldl
            Observer.hear) := by
  unfold Session.report
  cases hobserver : endpoint.observer with
  | none =>
      refine ⟨.refl session ref, h, fun place => ?_⟩
      simp
  | some observer =>
      induction transitions generalizing session with
      | nil =>
          refine ⟨.refl session ref, h, fun place => ?_⟩
          simp [offerAll]
      | cons outcome rest ih =>
          have hlistening : session.reportsTo ref observer = true := by
            simp only [reportsTo, hendpoint, Endpoint.reportsTo, hheld, hobserver, Bool.not_false,
              decide_true, Bool.and_self]
          simp only [offerAll, hlistening, if_true]
          have hspares := h.spares_tell observer ⟨endpoint.participant, outcome⟩
          have htold := h.tell observer ⟨endpoint.participant, outcome⟩
          obtain ⟨hrest, halone, hheard⟩ := ih htold (hspares.endpoint?_eq.trans hendpoint)
          refine ⟨hspares.trans hrest, halone, fun place => ?_⟩
          rw [hheard, get?_observers_tell]
          by_cases hplace : observer = place
          · subst hplace
            simp only [if_true, Option.map_map, List.map_cons, List.foldl_cons]
            rfl
          · simp only [Option.some.injEq, hplace, if_false, List.foldl_nil]

end Session

end MediaSeal
