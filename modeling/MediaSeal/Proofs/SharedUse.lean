import MediaSeal.Proofs.Lockstep

/-!
# One ring for all

In shared mode there is no telling who asked. A call on behalf of a participant
works on the shared ring, as it would for anybody else, and for the three calls
that exist on the shared ring itself it makes no difference either whether a
participant is named.

The one call that does look among the participants' own rings is the one that
takes a ring out. In shared mode nobody ever gets a ring of its own, so it finds
none, and this is the invariant (`AllShare`) that the whole run rests on.
-/

namespace MediaSeal

/-- The same call, made on behalf of a participant. -/
def SharedCall.onBehalf : SharedCall → MemberCall
  | setKey index raw => .setKey index raw
  | ratchetKey index => .ratchetKey index
  | getKey index => .getKey index

/-- What is asked for in a call, whoever asks. -/
def StoreCall.request : StoreCall → MemberCall
  | member _ call => call
  | shared call => call.onBehalf

theorem StoreCall.target_of_shared {options : KeyOptions} (h : options.shared = true)
    (participant : Participant) {call : MemberCall} (hcall : call ≠ .remove) :
    (StoreCall.member participant call).target options = .everyone := by
  cases call with
  | remove => exact absurd rfl hcall
  | _ => simp only [target, KeyOptions.ownerFor, h, if_true]

namespace KeyStore

variable {store : KeyStore}

/-- Rings are shared, and nobody has one of its own. -/
structure AllShare (store : KeyStore) : Prop where
  shared : store.options.shared = true
  members_eq : store.members = []

theorem AllShare.ring?_eq (h : store.AllShare) (participant : Participant) :
    store.ring? participant = some store.sharedRing := by
  rw [ring?, if_pos h.shared]

theorem AllShare.withRing_eq (h : store.AllShare) (participant : Participant) (ring : KeyRing) :
    store.withRing participant ring = { store with sharedRing := ring } := by
  rw [withRing, if_pos h.shared]

/-! ## One call -/

theorem AllShare.ask_remove (h : store.AllShare) (participant : Participant) :
    store.ask participant .remove = (.removed false, store) := by
  obtain ⟨options, ring, members⟩ := store
  obtain rfl : members = [] := h.members_eq
  rfl

/-- What is done for one participant is done for any other in the same way. -/
theorem AllShare.ask_eq (h : store.AllShare) (participant other : Participant)
    (call : MemberCall) : store.ask other call = store.ask participant call := by
  by_cases hremove : call = .remove
  · rw [hremove, h.ask_remove, h.ask_remove]
  -- Every other call has the shared ring for its target, whoever makes it.
  have htarget := fun who => StoreCall.target_of_shared h.shared who hremove
  have hring : Option.Rel Eq
      (store.ringOf? ((StoreCall.member participant call).target store.options))
      (store.ringOf? ((StoreCall.member other call).target store.options)) := by
    rw [htarget, htarget]
    exact rel_refl (fun _ => rfl) _
  have hstep := ask_inStep (KeyRing.simulation_eq store.options) rfl hring fun _ _ => trivial
  rw [htarget, htarget] at hstep
  obtain ⟨hanswer, hstore⟩ := hstep.agree (P := fun after after' => after' = after) rfl
    (fun hrings => by rw [hrings]) (fun howner _ => nomatch howner)
  exact Prod.ext hanswer hstore

theorem AllShare.ask_onBehalf (h : store.AllShare) (participant : Participant)
    (call : SharedCall) : store.ask participant call.onBehalf = store.askShared call := by
  cases call with
  | setKey index raw =>
      simp only [SharedCall.onBehalf, ask, askShared, setKey, setSharedKey, h.ring?_eq,
        h.withRing_eq, Option.getD_some]
  | ratchetKey index =>
      simp only [SharedCall.onBehalf, ask, askShared, ratchetKey, ratchetSharedKey, h.ring?_eq,
        h.withRing_eq]
  | getKey index =>
      simp only [SharedCall.onBehalf, ask, askShared, getKey?_eq, key?, getSharedKey?,
        h.ring?_eq, Option.bind_some]

/-- Any call might as well have been made for a given participant. -/
theorem AllShare.perform_eq (h : store.AllShare) (participant : Participant) (call : StoreCall) :
    store.perform call = store.ask participant call.request := by
  cases call with
  | member other call => exact h.ask_eq participant other call
  | shared call => exact (h.ask_onBehalf participant call).symm

theorem AllShare.perform_congr (h : store.AllShare) {call other : StoreCall}
    (hrequest : other.request = call.request) : store.perform other = store.perform call := by
  rw [h.perform_eq default other, hrequest, ← h.perform_eq default call]

/-- No call gives a participant a ring of its own. -/
theorem AllShare.perform (h : store.AllShare) (call : StoreCall) :
    (store.perform call).2.AllShare := by
  by_cases hremove : call.request = .remove
  · rw [h.perform_eq default, hremove, h.ask_remove]
    exact h
  · rw [h.perform_eq default]
    have htarget := StoreCall.target_of_shared h.shared default hremove
    rcases store.perform_cases (.member default call.request) with
      hsame | ⟨ring, hring⟩ | ⟨participant, howner, -⟩
    · exact hsame.symm ▸ h
    · rw [htarget] at hring
      exact hring.symm ▸ ⟨h.shared, h.members_eq⟩
    · rw [htarget] at howner
      cases howner

/-! ## Runs -/

theorem AllShare.afterRun (h : store.AllShare) (calls : List StoreCall) :
    (store.afterRun calls).AllShare := by
  induction calls generalizing store with
  | nil => exact h
  | cons call rest ih => exact ih (h.perform call)

theorem AllShare.run_congr (h : store.AllShare) {calls others : List StoreCall}
    (hrequests : others.map (·.request) = calls.map (·.request)) :
    (store.exchanges others).map (·.answer) = (store.exchanges calls).map (·.answer) ∧
      store.afterRun others = store.afterRun calls := by
  induction calls generalizing store others with
  | nil =>
      rw [List.map_eq_nil_iff.mp hrequests]
      exact ⟨rfl, rfl⟩
  | cons call rest ih =>
      obtain ⟨other, others, rfl, hrequest, hrest⟩ := List.map_eq_cons_iff.mp hrequests
      obtain ⟨hanswers, hend⟩ := ih (h.perform call) hrest
      simp only [exchanges, List.map_cons, afterRun_cons, h.perform_congr hrequest]
      exact ⟨congrArg _ hanswers, hend⟩

/-- A store that was built in shared mode, whatever has become of its ring by
now, serves a run of calls by what they ask for. The participants in them may
be exchanged, one by one, and calls that exist on the shared ring may be made
there: the answers are the same, and so is the store at the end. Nobody is ever
found to take out. -/
theorem answers_depend_on_requests {options : KeyOptions} {built : KeyStore}
    (hbuilt : KeyStore.new options = .ok built) (hshared : options.shared = true)
    (ring : KeyRing) (calls : List StoreCall) :
    let store : KeyStore := { built with sharedRing := ring }
    let later := store.afterRun calls
    (∀ others : List StoreCall, others.map (·.request) = calls.map (·.request) →
      (store.exchanges others).map (·.answer) = (store.exchanges calls).map (·.answer) ∧
        store.afterRun others = later) ∧
    ∀ participant,
      (∀ call : SharedCall, later.ask participant call.onBehalf = later.askShared call) ∧
        later.ask participant .remove = (.removed false, later) := by
  intro store later
  obtain ⟨-, rfl⟩ := new_eq_ok_iff.mp hbuilt
  have hstore : store.AllShare := ⟨hshared, rfl⟩
  have hlater := hstore.afterRun calls
  refine ⟨fun others hrequests => hstore.run_congr hrequests, fun participant => ⟨?_, ?_⟩⟩
  · exact fun call => hlater.ask_onBehalf participant call
  · exact hlater.ask_remove participant

/-- One ring of two slots that tolerates no failure. -/
def oneRing : KeyOptions :=
  { shared := true, salt := [], window := 0, marker := [7], ringSize := 2, tolerance := some 0 }

/-- A key is set and used for a frame that is too short for its tag. From then
on the ring is invalid, which shows when the same frame comes again. -/
def spoiltRing (setter first getter remover second : Participant) : List StoreCall :=
  let frame := Bytes.zeros 12 ++ [0, 1, 12, 1]
  [.member setter (.setKey 1 [1]), .member first (.decrypt .aesGcm frame),
    .member getter (.getKey 1), .member remover .remove, .member second (.decrypt .aesGcm frame)]

theorem answers_depend_on_requests_in_oneRing :
    ∃ built, KeyStore.new oneRing = .ok built ∧ oneRing.shared = true ∧
      ∀ setter first getter remover second,
        (built.exchanges (spoiltRing setter first getter remover second)).map (·.answer) =
          [.set (.ok ()), .decrypted (.error (.decryptionFailed 1 1)), .key (some [1]),
            .removed false, .decrypted (.error (.keyInvalidated 1))] := by
  have hbuilt : KeyStore.new oneRing = .ok ⟨oneRing, oneRing.emptyRing, []⟩ := rfl
  refine ⟨_, hbuilt, rfl, fun setter first getter remover second => ?_⟩
  obtain ⟨hanswers, -⟩ := (answers_depend_on_requests hbuilt rfl oneRing.emptyRing
    (spoiltRing ⟨"a"⟩ ⟨"b"⟩ ⟨"b"⟩ ⟨"a"⟩ ⟨"b"⟩)).1 (spoiltRing setter first getter remover second) rfl
  exact hanswers

end KeyStore

end MediaSeal
