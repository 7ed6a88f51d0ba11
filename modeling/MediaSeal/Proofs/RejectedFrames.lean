import Mathlib.Data.List.Infix
import MediaSeal.Proofs.FailureTolerance
import MediaSeal.Proofs.Lockstep
import MediaSeal.Proofs.Reception

/-!
# A rejected frame leaves no trace

Frames that a receiver rejects can be forged by anyone. Here they are struck
out of a run, any of them, and the rest of the run is made again: every answer
comes back as it was, and every slot holds the key that it held.

The stores of the two runs are not the same. The run with the forged frames
has counted more failures, as a rejected frame is counted and nothing else is
done about it. The count shows only when it goes over what is tolerated, so as
long as no ring becomes invalid, `Lags` is enough: the same ring, but for a
count that is behind. The first frame that is accepted, or a new key, brings
the two counts together.
-/

namespace MediaSeal

namespace KeyRing

/-- A valid ring, and the same ring with no more failures counted. -/
structure Lags (ring other : KeyRing) : Prop where
  valid : ring.invalidated = false
  behind : ∃ failures ≤ ring.failures, other = { ring with failures }

variable {options : KeyOptions} {ring other : KeyRing}

theorem countUp_mono {fewer more : UInt32} (h : fewer ≤ more) : countUp fewer ≤ countUp more := by
  rw [UInt32.le_iff_toNat_le] at h ⊢
  rw [toNat_countUp, toNat_countUp]
  omega

theorem le_countUp (count : UInt32) : count ≤ countUp count := by
  have hlt := count.toNat_lt
  rw [UInt32.le_iff_toNat_le, toNat_countUp]
  omega

theorem snd_recordFailure {tolerance : UInt32} (htolerance : ring.tolerance = some tolerance)
    (hvalid : ring.invalidated = false) :
    ring.recordFailure.2 =
      { ring with
        failures := countUp ring.failures
        invalidated := decide (tolerance < countUp ring.failures) } := by
  simp only [recordFailure, htolerance, hvalid, Bool.not_false, Bool.true_and]
  split
  · next hmany => rw [hmany]
  · next hfew => rw [Bool.eq_false_iff.mpr hfew]

theorem Lags.refl (hvalid : ring.invalidated = false) : ring.Lags ring :=
  ⟨hvalid, ring.failures, UInt32.le_refl _, rfl⟩

/-- A failure that only the first ring counts. -/
theorem Lags.first (h : ring.Lags other) (hafter : ring.recordFailure.2.invalidated = false) :
    ring.recordFailure.2.Lags other := by
  obtain ⟨hvalid, failures, hle, rfl⟩ := h
  obtain hnone | ⟨tolerance, hsome⟩ := Option.eq_none_or_eq_some ring.tolerance
  · rw [recordFailure_of_tolerance hnone]
    exact ⟨hvalid, failures, hle, rfl⟩
  · rw [snd_recordFailure hsome hvalid] at hafter ⊢
    refine ⟨hafter, failures, UInt32.le_trans hle (le_countUp _), ?_⟩
    rw [KeyRing.mk.injEq]
    exact ⟨rfl, rfl, rfl, rfl, hvalid.trans hafter.symm⟩

/-- A failure that both rings count. -/
theorem Lags.recordFailure (h : ring.Lags other)
    (hafter : ring.recordFailure.2.invalidated = false) :
    ring.recordFailure.2.Lags other.recordFailure.2 := by
  have ⟨hvalid, failures, hle, hother⟩ := h
  have htolerance : other.tolerance = ring.tolerance := by rw [hother]
  have hvalid' : other.invalidated = false := by rw [hother, hvalid]
  obtain hnone | ⟨tolerance, hsome⟩ := Option.eq_none_or_eq_some ring.tolerance
  · rw [recordFailure_of_tolerance hnone,
      recordFailure_of_tolerance (htolerance.trans hnone)]
    exact h
  · have hcount := countUp_mono hle
    rw [snd_recordFailure hsome hvalid] at hafter ⊢
    rw [snd_recordFailure (htolerance.trans hsome) hvalid', hother]
    have hfew : ¬ tolerance < countUp failures := fun hmany =>
      of_decide_eq_false hafter (UInt32.lt_of_lt_of_le hmany hcount)
    refine ⟨hafter, _, hcount, ?_⟩
    rw [KeyRing.mk.injEq]
    exact ⟨rfl, rfl, rfl, rfl, (decide_eq_false hfew).trans hafter.symm⟩

/-- Advancing a key neither reads nor writes the count. -/
theorem ratchetKey_with_failures (ring : KeyRing) (failures : UInt32) (index : Int) :
    { ring with failures }.ratchetKey index =
      (ring.ratchetKey index).map fun result => (result.1, { result.2 with failures }) := by
  have hslot : { ring with failures }.slot index = ring.slot index := rfl
  simp only [ratchetKey, hslot]
  cases ring.slot index with
  | error error => rfl
  | ok slot =>
      cases hkey : ring.slots.getD slot none with
      | none => simp only [hkey, Except.map]
      | some key =>
          cases hnext : key.ratchet ring.salt with
          | error error => simp only [hkey, hnext, Except.map]
          | ok next => simp only [hkey, hnext, Except.map]

/-- Every operation keeps a count that is behind behind. -/
theorem simulation_lags (options : KeyOptions) :
    KeyRing.Simulation options Lags (·.invalidated = false) where
  emptyRing := Lags.refl rfl
  key?_eq := by
    rintro ring _ ⟨-, failures, -, rfl⟩ index
    exact key?_congr rfl index
  invalidated_eq := by
    rintro ring _ ⟨-, failures, -, rfl⟩
    rfl
  setKey := by
    rintro ring _ ⟨-, failures, -, rfl⟩ index raw
    cases hset : ring.setKey index raw with
    | error error => exact .inl ⟨error, rfl, hset⟩
    | ok changed =>
        obtain ⟨slot, -, -, rfl⟩ := setKey_eq_ok_iff.mp hset
        exact .inr ⟨_, _, rfl, hset, Lags.refl rfl⟩
  ratchetKey := by
    rintro ring _ ⟨hvalid, failures, hle, rfl⟩ index
    rw [ratchetKey_with_failures ring failures]
    cases hratchet : ring.ratchetKey index with
    | error error => exact .inl ⟨error, rfl, rfl⟩
    | ok result =>
        obtain ⟨raw, changed⟩ := result
        obtain ⟨slot, key, following, -, -, -, -, -, rfl⟩ := ratchetKey_eq_ok_iff.mp hratchet
        exact .inr ⟨_, _, rfl, rfl, rfl, hvalid, failures, hle, rfl⟩
  openSealed := by
    intro ring other h frame base hkey hwithin
    have ⟨hvalid, failures, hle, hother⟩ := h
    have hkey' : other.key? frame.trailer.keyIndex.toNat = some base :=
      (key?_congr (by rw [hother]) _).trans hkey
    have hsalt : other.salt = ring.salt := by rw [hother]
    cases hfound : frame.findKey? ring.salt options.window.toNat 0 base with
    | none =>
        rw [openSealed_of_none hfound] at hwithin ⊢
        rw [openSealed_of_none (hsalt ▸ hfound)]
        exact ⟨rfl, h.recordFailure hwithin⟩
    | some found =>
        rw [openSealed_of_found hkey hfound, openSealed_of_found hkey' (hsalt ▸ hfound)]
        subst hother
        exact ⟨rfl, hvalid, 0, UInt32.le_refl 0, rfl⟩

end KeyRing

/-! ## Two stores, one of which has seen less -/

theorem Members.mem_of_find? {members : Members} {participant : Participant} {ring : KeyRing}
    (h : members.find? participant = some ring) : (participant, ring) ∈ members := by
  induction members with
  | nil => cases h
  | cons entry rest ih =>
      obtain ⟨owner, first⟩ := entry
      rw [find?] at h
      split at h
      · next howner =>
          obtain rfl := Option.some.inj h
          exact howner ▸ List.mem_cons_self
      · exact List.mem_cons_of_mem _ (ih h)

/-- No ring of the store is invalid. -/
def KeyStore.AllValid (store : KeyStore) : Prop :=
  store.sharedRing.invalidated = false ∧ ∀ entry ∈ store.members, entry.2.invalidated = false

instance (store : KeyStore) : Decidable store.AllValid := inferInstanceAs (Decidable (_ ∧ _))

/-- A frame was to be decrypted and was refused. -/
def Exchange.IsRejection (exchange : Exchange) : Prop :=
  ∃ participant algorithm payload error,
    exchange = ⟨.member participant (.decrypt algorithm payload), .decrypted (.error error)⟩

namespace KeyStore

/-- Set up alike, and each ring of the second is that of the first but for a
count that is behind. -/
structure Lags (store other : KeyStore) : Prop where
  options_eq : other.options = store.options
  rings : ∀ owner, Option.Rel KeyRing.Lags (store.ringOf? owner) (other.ringOf? owner)

variable {options : KeyOptions} {store other : KeyStore} {call : StoreCall}

theorem AllValid.of_ringOf? (h : store.AllValid) {owner : Owner} {ring : KeyRing}
    (hring : store.ringOf? owner = some ring) : ring.invalidated = false := by
  cases owner with
  | participant participant => exact h.2 _ (Members.mem_of_find? hring)
  | everyone =>
      obtain rfl := Option.some.inj hring
      exact h.1

theorem lags_of_new (h : new options = .ok store) : store.Lags store where
  options_eq := rfl
  rings := by
    obtain ⟨-, rfl⟩ := new_eq_ok_iff.mp h
    intro owner
    cases owner with
    | participant participant => exact .none
    | everyone => exact .some (KeyRing.Lags.refl rfl)

theorem Lags.withRingOf {ring ring' : KeyRing} (h : store.Lags other) (hrings : ring.Lags ring')
    (owner : Owner) : (store.withRingOf owner ring).Lags (other.withRingOf owner ring') where
  options_eq := by rw [options_withRingOf, options_withRingOf, h.options_eq]
  rings := by
    intro place
    rw [ringOf?_withRingOf, ringOf?_withRingOf]
    split
    · exact .some hrings
    · exact h.rings place

theorem Lags.remove (h : store.Lags other) (participant : Participant) :
    (store.remove participant).2.Lags (other.remove participant).2 where
  options_eq := h.options_eq
  rings := by
    intro place
    rw [ringOf?_remove, ringOf?_remove]
    split
    · exact .none
    · exact h.rings place

/-- A call that both stores get. -/
theorem Lags.both (h : store.Lags other) (hvalid : (store.perform call).2.AllValid) :
    (other.perform call).1 = (store.perform call).1 ∧
      (store.perform call).2.Lags (other.perform call).2 := by
  refine (perform_inStep (KeyRing.simulation_lags store.options) h.options_eq (h.rings _)
    fun _ => hvalid.of_ringOf?).agree h (fun hrings => h.withRingOf hrings _) ?_
  intro participant participant' howner howner'
  obtain rfl := Owner.participant.inj (howner.symm.trans howner')
  exact h.remove participant

/-- A frame that only the first store gets, and refuses. -/
theorem Lags.first (h : store.Lags other)
    (hrejection : (Exchange.mk call (store.perform call).1).IsRejection)
    (hvalid : (store.perform call).2.AllValid) : (store.perform call).2.Lags other := by
  obtain ⟨participant, algorithm, payload, error, hexchange⟩ := hrejection
  obtain ⟨rfl, hanswer⟩ := Exchange.mk.inj hexchange
  rw [perform_decrypt] at hanswer hvalid ⊢
  rcases store_of_decrypt_error (Answer.decrypted.inj hanswer) with hsame | ⟨ring, hring, hcount⟩
  · rw [hsame]
    exact h
  · rw [ring?_eq_ringOf?] at hring
    rw [hcount, withRing_eq_withRingOf] at hvalid ⊢
    have hcounted : ring.recordFailure.2.invalidated = false :=
      hvalid.of_ringOf? (by rw [ringOf?_withRingOf, if_pos rfl])
    refine ⟨by rw [options_withRingOf, h.options_eq], fun owner => ?_⟩
    rw [ringOf?_withRingOf]
    split
    · next howner =>
        subst howner
        have hrings := h.rings (store.options.ownerFor participant)
        rw [hring] at hrings
        generalize other.ringOf? (store.options.ownerFor participant) = found at hrings ⊢
        cases hrings with
        | some hlags => exact .some (hlags.first hcounted)
    · exact h.rings owner

/-- The counts are no part of the keys. -/
theorem Lags.sameKeys (h : store.Lags other) : store.SameKeys other := by
  have hslots : ∀ owner, (other.ringOf? owner).map (·.slots) =
      (store.ringOf? owner).map (·.slots) := by
    intro owner
    have hrings := h.rings owner
    generalize store.ringOf? owner = found, other.ringOf? owner = found' at hrings ⊢
    cases hrings with
    | none => rfl
    | some hlags =>
        obtain ⟨-, failures, -, rfl⟩ := hlags
        rfl
  exact ⟨h.options_eq, Option.some.inj (hslots .everyone), fun participant =>
    hslots (.participant participant)⟩

/-- As long as no ring of a new store becomes invalid, frames that were
rejected can be struck out of a run, all or some of them: the calls that
remain get the answers they got, and every slot of every ring ends with the
key it ended with. -/
theorem rejected_frames_leave_no_trace (hnew : new options = .ok store)
    {calls : List StoreCall} {kept : List Exchange}
    (hvalid : ∀ earlier, earlier <+: calls → (store.afterRun earlier).AllValid)
    (hkept : Thinned Exchange.IsRejection (store.exchanges calls) kept) :
    store.exchanges (kept.map (·.call)) = kept ∧
      (store.afterRun calls).SameKeys (store.afterRun (kept.map (·.call))) := by
  obtain ⟨hanswers, hlags⟩ := hkept.unwind Lags AllValid (fun _ => True)
    (fun h _ hafter => h.both hafter) (fun h hrejection hafter => h.first hrejection hafter)
    (lags_of_new hnew) hvalid (fun _ _ => trivial)
  exact ⟨hanswers, hlags.sameKeys⟩

/-- Stores that let one failure pass. -/
def lenientOptions : KeyOptions :=
  { shared := false
    salt := []
    window := 0
    marker := []
    ringSize := 1
    tolerance := some 1 }

def lenientStore : KeyStore := ⟨lenientOptions, lenientOptions.emptyRing, []⟩

/-- Of the two frames here, the first is tried and counted as a failure, as it
is too short for its tag; the second is too short for a frame. -/
def forgedCalls : List StoreCall :=
  [.member ⟨"a"⟩ (.setKey 0 [1]),
    .member ⟨"a"⟩ (.decrypt .aesGcm (Bytes.zeros 12 ++ [0, 1, 12, 0])),
    .member ⟨"a"⟩ (.decrypt .aesGcm [0]), .member ⟨"a"⟩ (.getKey 0)]

theorem allValid_forgedCalls :
    ∀ earlier ∈ forgedCalls.inits, (lenientStore.afterRun earlier).AllValid := by
  decide

theorem rejected_frames_leave_no_trace_first :
    let kept := (lenientStore.exchanges forgedCalls).eraseIdx 1
    new lenientOptions = .ok lenientStore ∧
      (∀ earlier, earlier <+: forgedCalls → (lenientStore.afterRun earlier).AllValid) ∧
      Thinned Exchange.IsRejection (lenientStore.exchanges forgedCalls) kept ∧
      lenientStore.exchanges (kept.map (·.call)) = kept ∧
      (lenientStore.afterRun forgedCalls).SameKeys
        (lenientStore.afterRun (kept.map (·.call))) := by
  have hnew : new lenientOptions = .ok lenientStore := rfl
  have hvalid : ∀ earlier, earlier <+: forgedCalls → (lenientStore.afterRun earlier).AllValid :=
    fun earlier hearlier => allValid_forgedCalls earlier ((List.mem_inits _ _).mpr hearlier)
  have hthinned : Thinned Exchange.IsRejection (lenientStore.exchanges forgedCalls)
      ((lenientStore.exchanges forgedCalls).eraseIdx 1) :=
    .keep _ (.skip ⟨_, _, _, _, rfl⟩ (.keep _ (.keep _ .nil)))
  exact ⟨hnew, hvalid, hthinned, rejected_frames_leave_no_trace hnew hvalid hthinned⟩

end KeyStore

end MediaSeal
