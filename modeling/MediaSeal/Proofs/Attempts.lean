import MediaSeal.Proofs.Exhaustion
import MediaSeal.Proofs.FailureTolerance

/-!
# How many keys a frame was tried under

A frame that cannot be decrypted is refused with a number of attempts. The search
does not count: the number is the width of the window and one more, worked out
afterwards and kept within thirty-two bits. So it has to be compared with what the
search does, and for that the search is told here once more with a record of the
keys that it tries.

A search in vain tries the key that it starts from and every later generation in the
window, and it stops early where there are no more generations. The number does not
know of that. It is right as long as the last generation is not before the end of the
window, and too large otherwise. There is one window for which things are the other
way round, the widest one: it has no room for one more, so that the number falls short
by one for a key as it was supplied, and agrees with the search for the next generation,
where the search stops one short of the window as well.
-/

namespace MediaSeal

variable {salt : Bytes}

namespace SealedFrame

/-- The search for the key of a frame, with the keys that the frame was tried under, in
the order in which they were tried. -/
def search (frame : SealedFrame) (salt : Bytes) :
    (window : Nat) → (steps : Nat) → (key : KeyMaterial) → Option FoundKey × List KeyMaterial
  | window, steps, key =>
    match frame.openWith? key with
    | some payload => (some ⟨key, ⟨payload, steps⟩⟩, [key])
    | none =>
      match window with
      | 0 => (none, [key])
      | window + 1 =>
        match key.ratchet salt with
        | .error _ => (none, [key])
        | .ok next =>
          let (found, tried) := frame.search salt window (steps + 1) next
          (found, key :: tried)

/-- The record changes nothing about what is found. -/
theorem fst_search (frame : SealedFrame) (salt : Bytes) (window steps : Nat)
    (key : KeyMaterial) :
    (frame.search salt window steps key).1 = frame.findKey? salt window steps key := by
  induction window generalizing steps key with
  | zero =>
      unfold search findKey?
      cases frame.openWith? key <;> rfl
  | succ window ih =>
      unfold search findKey?
      cases frame.openWith? key with
      | some payload => rfl
      | none =>
          cases key.ratchet salt with
          | error error => rfl
          | ok next => exact ih (steps + 1) next

section InVain

variable {frame : SealedFrame} {window first : Nat} {base next : KeyMaterial}

theorem search_zero (h : frame.openWith? base = none) :
    frame.search salt 0 first base = (none, [base]) := by
  unfold search
  simp only [h]

theorem search_last {error : CipherError} (h : frame.openWith? base = none)
    (hlast : base.ratchet salt = .error error) :
    frame.search salt window first base = (none, [base]) := by
  unfold search
  cases window with
  | zero => simp only [h]
  | succ window => simp only [h, hlast]

theorem search_succ (h : frame.openWith? base = none) (hnext : base.ratchet salt = .ok next) :
    frame.search salt (window + 1) first base =
      ((frame.search salt window (first + 1) next).1,
        base :: (frame.search salt window (first + 1) next).2) := by
  rw [search]
  simp only [h, hnext]

/-- A search in vain has found that no key in the window opens the frame, to begin with the
first. -/
theorem openWith?_of_search (h : (frame.search salt window first base).1 = none) :
    frame.openWith? base = none := by
  rw [fst_search] at h
  cases hopen : frame.openWith? base with
  | none => rfl
  | some payload =>
      rw [findKey?_of_opens hopen] at h
      cases h

/-- The keys that were tried are the one that the search started from and those after it, to
the end of the window or of the generations. -/
theorem getElem?_search (h : (frame.search salt window first base).1 = none) (steps : Nat)
    (key : KeyMaterial) :
    (frame.search salt window first base).2[steps]? = some key ↔
      steps ≤ window ∧ base.advance salt steps = .ok key := by
  induction window generalizing first base steps with
  | zero =>
      rw [search_zero (openWith?_of_search h)]
      cases steps with
      | zero => simp
      | succ steps => simp
  | succ window ih =>
      have hbase := openWith?_of_search h
      cases hnext : base.ratchet salt with
      | error error =>
          rw [search_last hbase hnext]
          cases steps with
          | zero => simp
          | succ steps => simp [KeyMaterial.advance, hnext]
      | ok next =>
          rw [search_succ hbase hnext] at h ⊢
          cases steps with
          | zero => simp
          | succ steps =>
              rw [List.getElem?_cons_succ, ih h steps, Nat.succ_le_succ_iff,
                KeyMaterial.advance, hnext]

/-- So there are as many as there are generations left, or as the window allows, and one
more. -/
theorem length_search (h : (frame.search salt window first base).1 = none) :
    (frame.search salt window first base).2.length = min window base.left + 1 := by
  induction window generalizing first base with
  | zero =>
      rw [search_zero (openWith?_of_search h), Nat.zero_min]
      rfl
  | succ window ih =>
      have hbase := openWith?_of_search h
      cases hnext : base.ratchet salt with
      | error error =>
          rw [search_last hbase hnext, KeyMaterial.left_of_refused hnext, Nat.min_zero]
          rfl
      | ok next =>
          rw [search_succ hbase hnext] at h ⊢
          rw [List.length_cons, ih h, KeyMaterial.left_of_ratchet hnext, Nat.succ_min_succ]

end InVain

end SealedFrame

/-! ## The number in the error -/

/-- The number is that of the keys if the window ends no later than the generations do,
unless it is the widest; and for the widest if one generation is gone. -/
theorem countUp_eq_tried_iff (window : UInt32) (base : KeyMaterial) :
    (KeyRing.countUp window).toNat = min window.toNat base.left + 1 ↔
      (window ≠ 0xffffffff ∧ base.generation.toNat + window.toNat ≤ lastGeneration.toNat) ∨
        (window = 0xffffffff ∧ base.generation = 1) := by
  have hwindow := window.toNat_lt
  have hgeneration := base.generation.toNat_lt
  have hwidest : window = 0xffffffff ↔ window.toNat = 0xffffffff := UInt32.toNat_inj.symm
  have hone : base.generation = 1 ↔ base.generation.toNat = 1 := UInt32.toNat_inj.symm
  rw [KeyRing.toNat_countUp, KeyMaterial.left, ne_eq, hwidest, hone]
  simp only [lastGeneration, UInt32.reduceToNat]
  omega

namespace KeyStore

open SealedFrame

/-- A payload that is refused after a number of attempts is a frame that reached the cipher
and was tried under the key at its index and every one after it, as far as the window and
the generations go. The number counts these keys exactly if the generations last to the end
of the window and the window leaves room for one more, or, for the window that leaves none,
if one generation is gone. -/
theorem attempts_are_keys_tried_iff {store : KeyStore} {participant : Participant}
    {algorithm : Algorithm} {payload : Bytes} {index : UInt8} {attempts : UInt32}
    (h : (store.decrypt participant algorithm payload).1 =
      .error (.decryptionFailed index attempts)) :
    ∃ frame ring base,
      store.ReachesCipher participant algorithm payload frame ring base ∧
      frame.trailer.keyIndex = index ∧
      let window := store.options.window
      let search := frame.search ring.salt window.toNat 0 base
      search.1 = frame.findKey? ring.salt window.toNat 0 base ∧ search.1 = none ∧
      (∀ steps key, search.2[steps]? = some key ↔
        steps ≤ window.toNat ∧ base.advance ring.salt steps = .ok key) ∧
      search.2.length =
        min window.toNat (lastGeneration.toNat - base.generation.toNat) + 1 ∧
      attempts.toNat = min (window.toNat + 1) 0xffffffff ∧
      (attempts.toNat = search.2.length ↔
        (window ≠ 0xffffffff ∧ base.generation.toNat + window.toNat ≤ lastGeneration.toNat) ∨
          (window = 0xffffffff ∧ base.generation = 1)) := by
  have houtcome := store.decrypts participant algorithm payload
  generalize store.decrypt participant algorithm payload = outcome at h houtcome
  cases houtcome with
  | leftClear hclear => cases h
  | turnedAway haway =>
      rw [Except.error.inj h] at haway
      cases haway
  | opened reaches within advanced opens least => cases h
  | @failed frame ring base reaches closed =>
      obtain ⟨rfl, rfl⟩ := FrameError.decryptionFailed.inj (Except.error.inj h)
      have hfound := fst_search frame ring.salt store.options.window.toNat 0 base
      have hnone := hfound.trans (findKey?_eq_none closed)
      have hlength := length_search hnone
      refine ⟨frame, ring, base, reaches, rfl, hfound, hnone, getElem?_search hnone, hlength,
        KeyRing.toNat_countUp _, ?_⟩
      rw [hlength]
      exact countUp_eq_tried_iff _ base

/-- A store with one generation left at its second index, and a window of some width. -/
def agedWithin (window : UInt32) : KeyStore :=
  ⟨{ oneRing with window, tolerance := none }, { agedRing with tolerance := none }, []⟩

/-- A frame that is too short for the tag of its cipher. -/
def tagless : SealedFrame := ⟨[9], [0], List.replicate 12 5, ⟨1, .aesGcm, 12, 1⟩⟩

theorem reachesCipher_tagless (window : UInt32) :
    (agedWithin window).ReachesCipher ⟨"a"⟩ .aesGcm tagless.toBytes tagless
      (agedWithin window).sharedRing nearlyLast where
  nonempty := List.cons_ne_nil _ _
  unmarked := (by decide : Marker.strip? [7] tagless.toBytes = none)
  parsed := by decide
  algorithm_eq := rfl
  index_lt := (by decide : tagless.trailer.keyIndex.toNat < 2)
  ring_eq := rfl
  key_eq := rfl
  valid := rfl

/-- If the window is as wide as there are generations left, the keys that are tried are
counted. -/
theorem attempts_are_keys_tried_in_agedWithin :
    ((agedWithin 1).decrypt ⟨"a"⟩ .aesGcm tagless.toBytes).1 =
        .error (.decryptionFailed 1 2) ∧
      (tagless.search [] 1 0 nearlyLast).2.length = 2 := by
  have herror : ((agedWithin 1).decrypt ⟨"a"⟩ .aesGcm tagless.toBytes).1 =
      .error (.decryptionFailed 1 2) := rfl
  have hreaches := reachesCipher_tagless 1
  obtain ⟨frame, ring, base, hfound, -, -, -, -, -, -, hcounted⟩ :=
    attempts_are_keys_tried_iff herror
  obtain rfl : tagless = frame := Except.ok.inj (hreaches.parsed.symm.trans hfound.parsed)
  obtain rfl : (agedWithin 1).sharedRing = ring :=
    Option.some.inj (hreaches.ring_eq.symm.trans hfound.ring_eq)
  obtain rfl : nearlyLast = base := Option.some.inj (hreaches.key_eq.symm.trans hfound.key_eq)
  exact ⟨herror, (hcounted.mpr (.inl ⟨by decide, by decide⟩)).symm⟩

/-- In a state that calls lead to, a frame is tried under two keys, and the error speaks of
four attempts: the window is wider than there are generations left. -/
theorem attempts_exceed_keys_tried :
    KeyStore.Reached (agedWithin 3).options (agedWithin 3) ∧
      (agedWithin 3).ReachesCipher ⟨"a"⟩ .aesGcm tagless.toBytes tagless
        (agedWithin 3).sharedRing nearlyLast ∧
      ((agedWithin 3).decrypt ⟨"a"⟩ .aesGcm tagless.toBytes).1 =
        .error (.decryptionFailed 1 4) ∧
      (tagless.search [] 3 0 nearlyLast).2.length = 2 := by
  have hnone : (tagless.search [] 3 0 nearlyLast).1 = none := rfl
  have hlength := length_search hnone
  rw [show min 3 nearlyLast.left = 1 by decide] at hlength
  exact ⟨reached_aged 3 none, reachesCipher_tagless 3, rfl, hlength⟩

end KeyStore

end MediaSeal
