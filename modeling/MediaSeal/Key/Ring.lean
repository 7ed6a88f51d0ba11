import MediaSeal.Key.Error
import MediaSeal.Key.Material

/-!
# Key rings

A ring has a fixed number of slots, each empty or holding one generation of
key material. Applications fill a slot or advance it; a receiver that had to
search forward for the right generation commits what it found, and the commit
takes effect only if the slot still holds what the search started from.

A ring also counts the failures since the last success. If it tolerates only
so many, one more invalidates it, and it stays invalid until a new key comes.
-/

namespace MediaSeal

/-- The keys of one participant, or those that all share. -/
structure KeyRing where
  salt : Bytes
  /-- How many failures in a row are tolerated; any number if `none`. -/
  tolerance : Option UInt32
  slots : List (Option KeyMaterial)
  /-- Failures since the last success or new key, as far as the counter goes. -/
  failures : UInt32
  invalidated : Bool
deriving DecidableEq

namespace KeyRing

/-- A ring of empty slots. -/
def empty (size : Nat) (salt : Bytes) (tolerance : Option UInt32) : KeyRing :=
  ⟨salt, tolerance, List.replicate size none, 0, false⟩

/-- How many slots there are. -/
def size (ring : KeyRing) : Nat := ring.slots.length

/-- The slot that an index names. -/
def slot (ring : KeyRing) (index : Int) : Except KeyError Nat :=
  if 0 ≤ index ∧ index.toNat < ring.size then .ok index.toNat
  else .error (.invalidIndex index ring.size)

/-- The key at an index, if the index names a slot and the slot is filled. -/
def key? (ring : KeyRing) (index : Int) : Option KeyMaterial :=
  match ring.slot index with
  | .ok slot => ring.slots.getD slot none
  | .error _ => none

/-- The generation of the key at an index. -/
def generation? (ring : KeyRing) (index : Int) : Option UInt32 :=
  (ring.key? index).map (·.generation)

/-- Put a new key into a slot, whatever was there. The ring is valid again. -/
def setKey (ring : KeyRing) (index : Int) (raw : Bytes) : Except KeyError KeyRing :=
  match ring.slot index with
  | .error error => .error error
  | .ok slot =>
    .ok { ring with
      slots := ring.slots.set slot (some (.supplied raw ring.salt))
      failures := 0
      invalidated := false }

/-- Advance the key at an index by one generation; with the ring comes the new
raw material. -/
def ratchetKey (ring : KeyRing) (index : Int) : Except KeyError (Bytes × KeyRing) :=
  match ring.slot index with
  | .error error => .error error
  | .ok slot =>
    match ring.slots.getD slot none with
    | none => .error (.missingKey index)
    | some key =>
      match key.ratchet ring.salt with
      | .error _ => .error (.ratchetExhausted index key.generation)
      | .ok next => .ok (next.raw, { ring with slots := ring.slots.set slot (some next) })

/-- Whether a slot holds the generation and the raw bytes of `base`. -/
def holds (ring : KeyRing) (slot : Nat) (base : KeyMaterial) : Bool :=
  match ring.slots.getD slot none with
  | none => false
  | some current => current.generation == base.generation && current.sameRaw base

/-- Put `advanced` in the place of `base`, unless something else is there by
now; whether it was done comes first. -/
def commit (ring : KeyRing) (index : Int) (base advanced : KeyMaterial) : Bool × KeyRing :=
  match ring.slot index with
  | .error _ => (false, ring)
  | .ok slot =>
    if ring.holds slot base then
      (true, { ring with slots := ring.slots.set slot (some advanced) })
    else (false, ring)

/-- Note that a frame was decrypted. -/
def recordSuccess (ring : KeyRing) : KeyRing := { ring with failures := 0 }

/-- One more, unless the counter is at its end. -/
def countUp (count : UInt32) : UInt32 := if count = 0xffffffff then count else count + 1

/-- Note that a frame could not be decrypted; whether this is what invalidates
the ring comes first. -/
def recordFailure (ring : KeyRing) : Bool × KeyRing :=
  match ring.tolerance with
  | none => (false, ring)
  | some tolerance =>
    let failures := countUp ring.failures
    if !ring.invalidated && decide (tolerance < failures) then
      (true, { ring with failures, invalidated := true })
    else (false, { ring with failures })

/-! ## Which indices name a slot, and what keeps the slots -/

theorem slot_eq_ok_iff {ring : KeyRing} {index : Int} {slot : Nat} :
    ring.slot index = .ok slot ↔ index = slot ∧ slot < ring.size := by
  simp only [KeyRing.slot]
  split
  · rename_i h
    simp only [Except.ok.injEq]
    omega
  · simp only [reduceCtorEq, false_iff]
    omega

theorem slot_eq_error_iff {ring : KeyRing} {index : Int} {error : KeyError} :
    ring.slot index = .error error ↔
      error = .invalidIndex index ring.size ∧ (index < 0 ∨ (ring.size : Int) ≤ index) := by
  simp only [KeyRing.slot]
  split
  · simp only [reduceCtorEq, false_iff]
    omega
  · simp only [Except.error.injEq]
    constructor
    · rintro rfl
      exact ⟨rfl, by omega⟩
    · exact fun h => h.1.symm

@[simp] theorem size_empty (size : Nat) (salt : Bytes) (tolerance : Option UInt32) :
    (empty size salt tolerance).size = size := by
  simp [empty, KeyRing.size]

@[simp] theorem slots_recordFailure (ring : KeyRing) :
    ring.recordFailure.2.slots = ring.slots := by
  simp only [recordFailure]
  split
  · rfl
  · split <;> rfl

@[simp] theorem slots_recordSuccess (ring : KeyRing) :
    ring.recordSuccess.slots = ring.slots := rfl

@[simp] theorem size_commit (ring : KeyRing) (index : Int) (base advanced : KeyMaterial) :
    (ring.commit index base advanced).2.size = ring.size := by
  simp only [commit]
  split
  · rfl
  · split
    · simp [KeyRing.size]
    · rfl

@[simp] theorem salt_commit (ring : KeyRing) (index : Int) (base advanced : KeyMaterial) :
    (ring.commit index base advanced).2.salt = ring.salt := by
  simp only [commit]
  split
  · rfl
  · split <;> rfl

@[simp] theorem salt_recordFailure (ring : KeyRing) :
    ring.recordFailure.2.salt = ring.salt := by
  simp only [recordFailure]
  split
  · rfl
  · split <;> rfl

@[simp] theorem tolerance_commit (ring : KeyRing) (index : Int) (base advanced : KeyMaterial) :
    (ring.commit index base advanced).2.tolerance = ring.tolerance := by
  simp only [commit]
  split
  · rfl
  · split <;> rfl

@[simp] theorem tolerance_recordFailure (ring : KeyRing) :
    ring.recordFailure.2.tolerance = ring.tolerance := by
  simp only [recordFailure]
  split
  · rfl
  · split <;> rfl

/-! ## Looking a key up

The key at an index depends on the slots alone, so an operation is described
by the index whose key it changes, and the others are as they were. -/

theorem key?_eq_some_iff {ring : KeyRing} {index : Int} {key : KeyMaterial} :
    ring.key? index = some key ↔
      ∃ slot : Nat, index = slot ∧ slot < ring.size ∧ ring.slots.getD slot none = some key := by
  unfold key?
  cases h : ring.slot index with
  | error error =>
      obtain ⟨-, hout⟩ := slot_eq_error_iff.mp h
      simp only [reduceCtorEq, false_iff]
      rintro ⟨slot, rfl, hslot, -⟩
      omega
  | ok slot =>
      obtain ⟨rfl, hslot⟩ := slot_eq_ok_iff.mp h
      simp only [Int.natCast_inj]
      constructor
      · exact fun hkey => ⟨slot, rfl, hslot, hkey⟩
      · rintro ⟨_, rfl, -, hkey⟩
        exact hkey

theorem key?_natCast {ring : KeyRing} {slot : Nat} (hslot : slot < ring.size) :
    ring.key? slot = ring.slots.getD slot none := by
  have h : ring.slot slot = .ok slot := slot_eq_ok_iff.mpr ⟨rfl, hslot⟩
  simp only [key?, h]

/-- Writing what is there changes no slot. -/
theorem set_of_key? {ring : KeyRing} {slot : Nat} {key : KeyMaterial}
    (h : ring.key? slot = some key) : ring.slots.set slot (some key) = ring.slots := by
  obtain ⟨place, hplace, hlt, hget⟩ := key?_eq_some_iff.mp h
  obtain rfl : slot = place := by omega
  have hlength : slot < ring.slots.length := hlt
  rw [List.getD_eq_getElem?_getD, List.getElem?_eq_getElem hlength, Option.getD_some] at hget
  rw [← hget, List.set_getElem_self]

theorem key?_of_out {ring : KeyRing} {index : Int}
    (h : index < 0 ∨ (ring.size : Int) ≤ index) : ring.key? index = none := by
  have herror := slot_eq_error_iff.mpr ⟨rfl, h⟩
  simp only [key?, herror]

@[simp] theorem key?_empty (size : Nat) (salt : Bytes) (tolerance : Option UInt32)
    (index : Int) : (empty size salt tolerance).key? index = none := by
  cases hkey : (empty size salt tolerance).key? index with
  | none => rfl
  | some key =>
      obtain ⟨slot, -, -, hget⟩ := key?_eq_some_iff.mp hkey
      simp only [empty, List.getD, List.getElem?_replicate] at hget
      split at hget <;> simp at hget

/-- Rings with the same slots hold the same keys. -/
theorem key?_congr {ring other : KeyRing} (h : other.slots = ring.slots) (index : Int) :
    other.key? index = ring.key? index := by
  obtain ⟨_, _, slots, _, _⟩ := ring
  obtain ⟨_, _, _, _, _⟩ := other
  subst h
  rfl

/-- One slot written: the key there is the new one. -/
theorem key?_set {ring other : KeyRing} {slot : Nat} {key : Option KeyMaterial}
    (hslots : other.slots = ring.slots.set slot key) (hslot : slot < ring.size) (index : Int) :
    other.key? index = if index = slot then key else ring.key? index := by
  have hsize : other.size = ring.size := by simp [KeyRing.size, hslots]
  have hlength : slot < ring.slots.length := hslot
  by_cases hin : index < 0 ∨ (ring.size : Int) ≤ index
  · rw [key?_of_out (hsize ▸ hin), key?_of_out hin, if_neg (by omega)]
  · obtain ⟨place, rfl⟩ := Int.eq_ofNat_of_zero_le (by omega : 0 ≤ index)
    rw [key?_natCast (by omega), key?_natCast (by omega), hslots]
    by_cases hplace : place = slot
    · subst hplace
      simp [List.getD, hlength]
    · have hne : slot ≠ place := fun e => hplace e.symm
      have hindex : ¬ (place : Int) = slot := by omega
      rw [if_neg hindex, List.getD, List.getElem?_set_ne hne, List.getD]

/-- Whether setting a key goes through depends on the index alone. -/
theorem setKey_eq_ok_iff {ring other : KeyRing} {index : Int} {raw : Bytes} :
    ring.setKey index raw = .ok other ↔
      ∃ slot : Nat, index = slot ∧ slot < ring.size ∧
        other = { ring with
          slots := ring.slots.set slot (some (.supplied raw ring.salt))
          failures := 0
          invalidated := false } := by
  unfold setKey
  cases h : ring.slot index with
  | error error =>
      obtain ⟨-, hout⟩ := slot_eq_error_iff.mp h
      simp only [reduceCtorEq, false_iff]
      rintro ⟨slot, rfl, hslot, -⟩
      omega
  | ok slot =>
      obtain ⟨rfl, hslot⟩ := slot_eq_ok_iff.mp h
      simp only [Except.ok.injEq, Int.natCast_inj]
      constructor
      · exact fun hring => ⟨slot, rfl, hslot, hring.symm⟩
      · rintro ⟨_, rfl, -, hring⟩
        exact hring.symm

theorem setKey_eq_error_iff {ring : KeyRing} {index : Int} {raw : Bytes} {error : KeyError} :
    ring.setKey index raw = .error error ↔
      error = .invalidIndex index ring.size ∧ (index < 0 ∨ (ring.size : Int) ≤ index) := by
  rw [← slot_eq_error_iff]
  unfold setKey
  cases ring.slot index <;> simp

/-- Advancing goes through exactly if there is a key and it has a successor. -/
theorem ratchetKey_eq_ok_iff {ring other : KeyRing} {index : Int} {raw : Bytes} :
    ring.ratchetKey index = .ok (raw, other) ↔
      ∃ (slot : Nat) (key following : KeyMaterial), index = slot ∧ slot < ring.size ∧
        ring.key? index = some key ∧ key.ratchet ring.salt = .ok following ∧
        raw = following.raw ∧
        other = { ring with slots := ring.slots.set slot (some following) } := by
  unfold ratchetKey
  cases h : ring.slot index with
  | error error =>
      obtain ⟨-, hout⟩ := slot_eq_error_iff.mp h
      simp only [reduceCtorEq, false_iff]
      rintro ⟨slot, -, -, rfl, hslot, -⟩
      omega
  | ok slot =>
      obtain ⟨rfl, hslot⟩ := slot_eq_ok_iff.mp h
      simp only [key?_natCast hslot, Int.natCast_inj]
      cases hkey : ring.slots.getD slot none with
      | none => simp
      | some key =>
          cases hnext : key.ratchet ring.salt with
          | error error => simp [hnext]
          | ok following =>
              simp only [hnext, Except.ok.injEq, Prod.mk.injEq]
              constructor
              · rintro ⟨rfl, rfl⟩
                exact ⟨slot, key, following, rfl, hslot, rfl, hnext, rfl, rfl⟩
              · rintro ⟨_, _, _, rfl, -, hsame, hother, rfl, rfl⟩
                injection hsame with hsame
                subst hsame
                rw [hnext] at hother
                injection hother with hother
                subst hother
                exact ⟨rfl, rfl⟩

/-- A key that was set is at its index, and every other key is as it was. -/
theorem key?_setKey {ring other : KeyRing} {index : Int} {raw : Bytes}
    (h : ring.setKey index raw = .ok other) (place : Int) :
    other.key? place =
      if place = index then some (.supplied raw ring.salt) else ring.key? place := by
  obtain ⟨slot, rfl, hslot, rfl⟩ := setKey_eq_ok_iff.mp h
  exact key?_set rfl hslot place

theorem key?_ratchetKey {ring other : KeyRing} {index : Int} {raw : Bytes}
    (h : ring.ratchetKey index = .ok (raw, other)) :
    ∃ key following, ring.key? index = some key ∧ key.ratchet ring.salt = .ok following ∧
      ∀ place, other.key? place =
        if place = index then some following else ring.key? place := by
  obtain ⟨slot, key, following, rfl, hslot, hkey, hnext, -, rfl⟩ := ratchetKey_eq_ok_iff.mp h
  exact ⟨key, following, hkey, hnext, key?_set rfl hslot⟩

theorem holds_eq_true_iff {ring : KeyRing} {slot : Nat} {base : KeyMaterial} :
    ring.holds slot base = true ↔
      ∃ current, ring.slots.getD slot none = some current ∧
        current.generation = base.generation ∧ current.raw = base.raw := by
  unfold holds
  cases ring.slots.getD slot none with
  | none => simp
  | some current => simp [KeyMaterial.sameRaw]

/-- A commit takes effect exactly if the slot still holds the generation and
the bytes of the base; the frame key is not looked at. -/
theorem commit_of_key? {ring : KeyRing} {index : Int} {base advanced current : KeyMaterial}
    (hkey : ring.key? index = some current) (hgen : current.generation = base.generation)
    (hraw : current.raw = base.raw) :
    ring.commit index base advanced =
      (true, { ring with slots := ring.slots.set index.toNat (some advanced) }) := by
  obtain ⟨slot, rfl, hslot, hget⟩ := key?_eq_some_iff.mp hkey
  have hok : ring.slot slot = .ok slot := slot_eq_ok_iff.mpr ⟨rfl, hslot⟩
  have hholds : ring.holds slot base = true := holds_eq_true_iff.mpr ⟨current, hget, hgen, hraw⟩
  simp only [commit, hok, hholds, if_true, Int.toNat_natCast]

theorem key?_commit {ring : KeyRing} {index : Int} {base advanced current : KeyMaterial}
    (hkey : ring.key? index = some current) (hgen : current.generation = base.generation)
    (hraw : current.raw = base.raw) (place : Int) :
    (ring.commit index base advanced).2.key? place =
      if place = index then some advanced else ring.key? place := by
  rw [commit_of_key? hkey hgen hraw]
  obtain ⟨slot, rfl, hslot, -⟩ := key?_eq_some_iff.mp hkey
  exact key?_set rfl hslot place

theorem commit_of_not_key? {ring : KeyRing} {index : Int} {base advanced : KeyMaterial}
    (h : ¬ ∃ current, ring.key? index = some current ∧
      current.generation = base.generation ∧ current.raw = base.raw) :
    ring.commit index base advanced = (false, ring) := by
  unfold commit
  cases hslot : ring.slot index with
  | error error => rfl
  | ok slot =>
      obtain ⟨rfl, hin⟩ := slot_eq_ok_iff.mp hslot
      rw [key?_natCast hin] at h
      have hholds : ¬ ring.holds slot base = true := fun e => h (holds_eq_true_iff.mp e)
      simp only [if_neg hholds]

end KeyRing

end MediaSeal
