import MediaSeal.Proofs.Bystanders

/-!
# What a control can do

A control comes to one of three things. It has no effect; or it sets what an
owner may set at the endpoint that it names; or it is the end of that endpoint,
which is given up and loses its name. So no name is ever given by a control,
and nothing but its end takes an endpoint off its path.

Reports consist of controls and of observers taking in what they are told, so
what is kept by both is kept by a report, and this is how much of a session can
be relied on after a frame.
-/

namespace MediaSeal.Session

variable {session : Session}

/-! ## One control -/

/-- A change of what can be set while an endpoint is in use. -/
def Adjusts (change : Endpoint (Ref .observer) → Endpoint (Ref .observer)) : Prop :=
  ∀ endpoint, ∃ enabled keyIndex observer,
    change endpoint = { endpoint with enabled, keyIndex, observer }

theorem Adjusts.detached_eq {change : Endpoint (Ref .observer) → Endpoint (Ref .observer)}
    (h : Adjusts change) (endpoint : Endpoint (Ref .observer)) :
    (change endpoint).detached = endpoint.detached := by
  obtain ⟨enabled, keyIndex, observer, hchange⟩ := h endpoint
  rw [hchange]

theorem change_cases (session : Session) (name : String)
    {change : Endpoint (Ref .observer) → Endpoint (Ref .observer)} (h : Adjusts change) :
    control.change session name change = session ∨
      ∃ ref adjusted, session.stations.find? name = some ref ∧ Adjusts adjusted ∧
        control.change session name change = session.modifyEndpoint ref adjusted := by
  cases hname : session.stations.find? name with
  | none =>
      left
      simp only [control.change, hname]
  | some ref =>
      right
      refine ⟨ref, change, rfl, h, ?_⟩
      simp only [control.change, hname]

theorem control_cases (session : Session) (command : Control) :
    (session.control command = session ∨
      ∃ ref adjusted, session.stations.find? command.target = some ref ∧ Adjusts adjusted ∧
        session.control command = session.modifyEndpoint ref adjusted) ∨
    ∃ name ref, command = .drop name ∧ session.stations.find? name = some ref ∧
      session.control command = (session.giveUp ref).forget name := by
  cases command with
  | setEnabled name value => exact .inl (session.change_cases name fun e => ⟨value, _, _, rfl⟩)
  | setKeyIndex name index => exact .inl (session.change_cases name fun e => ⟨_, index, _, rfl⟩)
  | unobserve name => exact .inl (session.change_cases name fun e => ⟨_, _, none, rfl⟩)
  | observe name observer =>
      left
      cases hobserver : session.observers.find? observer with
      | none =>
          left
          simp only [control, hobserver]
      | some found =>
          simp only [control, hobserver]
          exact session.change_cases name fun e => ⟨_, _, some found, rfl⟩
  | drop name =>
      cases hname : session.stations.find? name with
      | none =>
          left
          left
          simp only [control, hname]
      | some ref =>
          right
          refine ⟨name, ref, rfl, hname, ?_⟩
          simp only [control, hname, forget]

/-! ## Stations and names -/

theorem get?_stations_modifyEndpoint (session : Session) (ref other : Ref .endpoint)
    (change : Endpoint (Ref .observer) → Endpoint (Ref .observer)) :
    (session.modifyEndpoint ref change).stations.get? other =
      (session.stations.get? other).map fun station =>
        { station with endpoint := (if ref = other then change else id) station.endpoint } := by
  unfold modifyEndpoint
  by_cases h : ref = other
  · subst h
    simp only [if_true, Registry.get?_modify_same]
  · simp only [h, if_false, id_eq, Registry.get?_modify_of_ne _ _ h, Option.map_id']

theorem get?_stations_giveUp (session : Session) (ref other : Ref .endpoint) :
    (session.giveUp ref).stations.get? other =
      (session.stations.get? other).map fun station =>
        { station with
          endpoint := (if ref = other then Endpoint.giveUp else id) station.endpoint } := by
  cases hstation : session.stations.get? ref with
  | none =>
      by_cases h : ref = other
      · subst h
        simp only [giveUp, hstation, Option.map_none]
      · simp only [giveUp, hstation, h, if_false, id_eq, Option.map_id']
  | some station =>
      simp only [giveUp, hstation]
      exact get?_stations_modifyEndpoint _ ref other _

/-- All that a control can change of what an endpoint was set up with is its own
state. -/
theorem get?_stations_control (session : Session) (command : Control) (ref : Ref .endpoint) :
    ∃ change : Endpoint (Ref .observer) → Endpoint (Ref .observer),
      (session.control command).stations.get? ref =
        (session.stations.get? ref).map fun station =>
          { station with endpoint := change station.endpoint } := by
  rcases session.control_cases command with
    (hsame | ⟨other, adjusted, -, -, hadjusted⟩) | ⟨dropped, other, -, -, hdropped⟩
  · refine ⟨id, ?_⟩
    rw [hsame]
    exact Option.map_id'.symm ▸ rfl
  · rw [hadjusted]
    exact ⟨_, session.get?_stations_modifyEndpoint other ref adjusted⟩
  · rw [hdropped]
    exact ⟨_, session.get?_stations_giveUp other ref⟩

theorem find?_giveUp (session : Session) (ref : Ref .endpoint) (name : String) :
    (session.giveUp ref).stations.find? name = session.stations.find? name := by
  unfold giveUp
  split <;> rfl

/-- No control gives anything a name. -/
theorem find?_of_control {command : Control} {name : String} {ref : Ref .endpoint}
    (h : (session.control command).stations.find? name = some ref) :
    session.stations.find? name = some ref := by
  rcases session.control_cases command with
    (hsame | ⟨other, adjusted, -, -, hadjusted⟩) | ⟨dropped, other, -, -, hdropped⟩
  · rw [hsame] at h
    exact h
  · rw [hadjusted] at h
    exact h
  · rw [hdropped, forget, Registry.find?_forget, find?_giveUp] at h
    exact (Option.ite_none_left_eq_some.mp h).2

theorem control_drop {name : String} {ref : Ref .endpoint}
    (h : session.stations.find? name = some ref) :
    session.control (.drop name) = (session.giveUp ref).forget name := by
  simp only [control, h, forget]

theorem find?_control_drop (session : Session) (name : String) :
    (session.control (.drop name)).stations.find? name = none := by
  cases hname : session.stations.find? name with
  | none => simp only [control, hname]
  | some ref =>
      rw [control_drop hname]
      exact (Registry.find?_forget _ name name).trans (if_pos rfl)

theorem endpoint?_control_drop {name : String} {ref : Ref .endpoint}
    (h : session.stations.find? name = some ref) :
    (session.control (.drop name)).endpoint? ref = (session.endpoint? ref).map (·.giveUp) := by
  rw [control_drop h]
  show ((session.giveUp ref).stations.get? ref).map _ = _
  rw [get?_stations_giveUp, endpoint?, Option.map_map, Option.map_map, if_pos rfl]
  rfl

/-! ## Reports and frames -/

/-- What is kept when an observer takes a notice in, and by each of its reactions. -/
theorem tell_induction {motive : Session → Prop} {observer : Ref .observer} {notice : Notice}
    (h : motive session)
    (hear : ∀ listener, session.observers.get? observer = some listener →
      motive { session with observers := session.observers.set observer (listener.hear notice) })
    (react : ∀ listener, session.observers.get? observer = some listener →
      ∀ reaction ∈ listener.reactions, ∀ state : Session, motive state →
        motive (state.control reaction.control)) :
    motive (session.tell observer notice) := by
  cases hlistener : session.observers.get? observer with
  | none =>
      simp only [tell, hlistener]
      exact h
  | some listener =>
      simp only [tell, hlistener]
      have hheard := hear listener hlistener
      have hreact := react listener hlistener
      generalize { session with
        observers := session.observers.set observer (listener.hear notice) } = state at hheard
      have hall : ∀ command ∈ listener.reactionsTo notice.outcome,
          ∃ reaction ∈ listener.reactions, reaction.control = command := by
        intro command hcommand
        obtain ⟨reaction, hreaction, hcontrol⟩ := List.mem_map.mp hcommand
        exact ⟨reaction, (List.mem_filter.mp hreaction).1, hcontrol⟩
      -- The reactions are those of the observer as it was, whatever becomes of it meanwhile.
      generalize listener.reactionsTo notice.outcome = commands at hall
      induction commands generalizing state with
      | nil => exact hheard
      | cons command rest ih =>
          obtain ⟨reaction, hreaction, rfl⟩ := hall command (List.mem_cons_self ..)
          exact ih _ (hreact reaction hreaction state hheard) fun other hother =>
            hall other (List.mem_cons_of_mem _ hother)

theorem report_induction {motive : Session → Prop} {ref : Ref .endpoint}
    {endpoint : Endpoint (Ref .observer)} {transitions : List Outcome} (h : motive session)
    (tell : ∀ (state : Session) (observer : Ref .observer) (notice : Notice),
      motive state → motive (state.tell observer notice)) :
    motive (session.report ref endpoint transitions) := by
  unfold report
  split
  · exact h
  · next observer hobserver =>
      induction transitions generalizing session with
      | nil => exact h
      | cons outcome rest ih =>
          rw [offerAll]
          split
          · exact ih (tell _ _ _ h)
          · exact ih h

/-- A frame passes untouched where something is missing that it takes. -/
theorem transform_cases (session : Session) (ref : Ref .endpoint) (frame : Frame) :
    session.transform ref frame = (some frame, session) ∨
    ∃ station store entropy, session.stations.get? ref = some station ∧
      session.stores.get? station.store = some store ∧
      session.entropies.get? station.entropy = some entropy ∧
      session.transform ref frame =
        let attempt := station.endpoint.attempt store entropy frame
        (attempt.output,
          (session.settle ref station attempt).report ref attempt.endpoint attempt.transitions) := by
  cases hstation : session.stations.get? ref with
  | none =>
      left
      simp only [transform, hstation]
  | some station =>
      cases hstore : session.stores.get? station.store with
      | none =>
          left
          simp only [transform, hstation, hstore]
      | some store =>
          cases hentropy : session.entropies.get? station.entropy with
          | none =>
              left
              simp only [transform, hstation, hstore, hentropy]
          | some entropy =>
              right
              exact ⟨station, store, entropy, rfl, hstore, hentropy,
                transform_eq hstation hstore hentropy frame⟩

end MediaSeal.Session
