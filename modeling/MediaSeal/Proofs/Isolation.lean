import MediaSeal.Proofs.Lockstep
import MediaSeal.Proofs.RoundTrip

/-!
# Participants do not notice each other

In a store where every participant has a ring of its own, the calls on behalf
of one of them can be cut out of a run and made alone: they are answered as
before, whatever else was asked in between. The same goes for the calls on the
shared ring, which then is nobody's own.

The two runs are compared from the point of view of one owner. All that the
owner's calls depend on is how the store is set up and the owner's ring, and
no other call reaches either. So the two stores need not agree on anything
else, and do not.
-/

namespace MediaSeal

/-- Whom a call is about. -/
def StoreCall.owner : StoreCall → Owner
  | .member participant _ => .participant participant
  | .shared _ => .everyone

theorem StoreCall.target_eq_owner {options : KeyOptions} (h : options.shared = false)
    (call : StoreCall) : call.target options = call.owner := by
  cases call with
  | member participant call =>
      cases call <;> simp only [target, owner, KeyOptions.ownerFor, h, Bool.false_eq_true, if_false]
  | shared call => rfl

namespace KeyStore

variable {store other : KeyStore} {owner : Owner} {call : StoreCall}

/-- A call about somebody else leaves an owner's ring alone. -/
theorem ringOf?_perform_of_ne (hshared : store.options.shared = false)
    (hne : call.owner ≠ owner) : (store.perform call).2.ringOf? owner = store.ringOf? owner := by
  rcases store.perform_cases call with hsame | ⟨ring, hring⟩ | ⟨participant, htarget, hremove⟩
  · rw [hsame]
  · rw [hring, ringOf?_withRingOf, StoreCall.target_eq_owner hshared, if_neg hne]
  · rw [StoreCall.target_eq_owner hshared] at htarget
    rw [hremove, ringOf?_remove, if_neg fun e => hne (htarget.trans e.symm)]

/-! ## What two stores look like to one owner -/

/-- Rings are not shared, the two stores are set up alike, and the owner's ring
is the same in both. -/
structure SameFor (owner : Owner) (store other : KeyStore) : Prop where
  apart : store.options.shared = false
  options_eq : other.options = store.options
  ring_eq : other.ringOf? owner = store.ringOf? owner

/-- The owner's own calls are answered alike, and it has the same ring again. -/
theorem SameFor.both (h : SameFor owner store other) (hcall : call.owner = owner) :
    (other.perform call).1 = (store.perform call).1 ∧
      SameFor owner (store.perform call).2 (other.perform call).2 := by
  have htarget : call.target store.options = owner :=
    (StoreCall.target_eq_owner h.apart call).trans hcall
  have hring : Option.Rel Eq (store.ringOf? (call.target store.options))
      (other.ringOf? (call.target store.options)) := by
    rw [htarget, h.ring_eq]
    exact rel_refl (fun _ => rfl) _
  have hstep := perform_inStep (KeyRing.simulation_eq store.options) h.options_eq hring
    fun _ _ => trivial
  rw [htarget] at hstep
  refine hstep.agree h ?_ ?_
  · rintro ring _ rfl
    refine ⟨?_, ?_, ?_⟩
    · rw [options_withRingOf, h.apart]
    · rw [options_withRingOf, options_withRingOf, h.options_eq]
    · rw [ringOf?_withRingOf, ringOf?_withRingOf, if_pos rfl, if_pos rfl]
  · rintro participant _ rfl hsame
    obtain rfl := Owner.participant.inj hsame
    refine ⟨h.apart, h.options_eq, ?_⟩
    rw [ringOf?_remove, ringOf?_remove, if_pos rfl, if_pos rfl]

/-- Calls about others may be made in one store and not in the other. -/
theorem SameFor.first (h : SameFor owner store other) (hcall : call.owner ≠ owner) :
    SameFor owner (store.perform call).2 other where
  apart := by rw [options_perform, h.apart]
  options_eq := by rw [options_perform, h.options_eq]
  ring_eq := by rw [ringOf?_perform_of_ne h.apart hcall, h.ring_eq]

theorem SameFor.run (h : SameFor owner store other) (calls : List StoreCall) :
    other.exchanges (calls.filter (·.owner = owner)) =
        (store.exchanges calls).filter (·.call.owner = owner) ∧
      SameFor owner (store.afterRun calls) (other.afterRun (calls.filter (·.owner = owner))) := by
  have hcalls : ((store.exchanges calls).filter (·.call.owner = owner)).map (·.call) =
      calls.filter (·.owner = owner) := by
    conv_rhs => rw [← store.map_call_exchanges calls, List.filter_map]
    rfl
  rw [← hcalls]
  refine (thinned_filter (·.call.owner = owner) (store.exchanges calls)).unwind (SameFor owner)
    (fun _ => True) (·.owner = owner) ?_ ?_ h (fun _ _ => trivial) ?_
  · exact fun hsame hcall _ => hsame.both hcall
  · exact fun hsame hcall _ => hsame.first (of_decide_eq_false hcall)
  · exact fun exchange hexchange => of_decide_eq_true (List.mem_filter.mp hexchange).2

/-- Where rings are not shared, cutting a run down to the calls about one owner
changes none of their answers, nor the owner's ring at the end. What was done
to a participant before it was taken out is forgotten: from then on it is
served as by a new store. -/
theorem runs_are_isolated (hshared : store.options.shared = false) (calls : List StoreCall) :
    (∀ owner,
      store.exchanges (calls.filter (·.owner = owner)) =
          (store.exchanges calls).filter (·.call.owner = owner) ∧
        (store.afterRun (calls.filter (·.owner = owner))).ringOf? owner =
          (store.afterRun calls).ringOf? owner) ∧
    ∀ participant later,
      let owner := Owner.participant participant
      let removed := store.afterRun (calls ++ [.member participant .remove])
      let unused : KeyStore := ⟨store.options, store.options.emptyRing, []⟩
      unused.exchanges (later.filter (·.owner = owner)) =
          (removed.exchanges later).filter (·.call.owner = owner) ∧
        (unused.afterRun (later.filter (·.owner = owner))).ringOf? owner =
          (removed.afterRun later).ringOf? owner := by
  constructor
  · intro owner
    have hself : SameFor owner store store := ⟨hshared, rfl, rfl⟩
    obtain ⟨hanswers, hsame⟩ := hself.run calls
    exact ⟨hanswers, hsame.ring_eq⟩
  · intro participant later owner removed unused
    have hremoved : SameFor owner removed unused := by
      refine ⟨?_, ?_, ?_⟩
      · rw [options_afterRun, hshared]
      · rw [options_afterRun]
      · simp only [removed, afterRun_append, afterRun_cons, afterRun_nil, perform, ask,
          ringOf?_remove, owner, if_true]
        rfl
    obtain ⟨hanswers, hsame⟩ := hremoved.run later
    exact ⟨hanswers, hsame.ring_eq⟩

/-- Two participants and the shared ring under one index. The first participant
loses its ring over a frame that is too short for its tag. -/
def crossedCalls : List StoreCall :=
  [.member ⟨"a"⟩ (.setKey 0 [1]), .member ⟨"b"⟩ (.setKey 0 [2]), .shared (.setKey 0 [3]),
    .member ⟨"a"⟩ (.decrypt .aesGcm (Bytes.zeros 12 ++ [0, 1, 12, 0])),
    .member ⟨"b"⟩ (.getKey 0), .shared (.getKey 0)]

/-- The first participant has a key again and is shown the same frame. -/
def rekeyedCalls : List StoreCall :=
  [.member ⟨"b"⟩ .remove, .member ⟨"a"⟩ (.setKey 0 [4]),
    .member ⟨"a"⟩ (.decrypt .aesGcm (Bytes.zeros 12 ++ [0, 1, 12, 0]))]

theorem runs_are_isolated_in_lastSlotStore :
    let removed := lastSlotStore.afterRun (crossedCalls ++ [.member ⟨"a"⟩ .remove])
    lastSlotStore.options.shared = false ∧
      (lastSlotStore.exchanges crossedCalls).filter (·.call.owner = .participant ⟨"b"⟩) =
        [⟨.member ⟨"b"⟩ (.setKey 0 [2]), .set (.ok ())⟩,
          ⟨.member ⟨"b"⟩ (.getKey 0), .key (some [2])⟩] ∧
      ((removed.exchanges rekeyedCalls).filter (·.call.owner = .participant ⟨"a"⟩)).map
          (·.answer) =
        [.set (.ok ()), .decrypted (.error (.decryptionFailed 0 1))] := by
  intro removed
  have hshared : lastSlotStore.options.shared = false := rfl
  obtain ⟨hall, hremoved⟩ := runs_are_isolated hshared crossedCalls
  refine ⟨hshared, ?_, ?_⟩
  · rw [← (hall (.participant ⟨"b"⟩)).1]
    rfl
  · rw [← (hremoved ⟨"a"⟩ rekeyedCalls).1]
    rfl

end KeyStore

end MediaSeal
