import Mathlib.Logic.Function.Iterate
import MediaSeal.Key.Material

/-!
# Counting generations forward

A single step takes key material to its next generation, or refuses at the
last one. Several steps are that step repeated, and repeating it has a closed
form: the raw bytes are the ratchet function applied that often, the
generation has grown by that much, and the frame key is the one derived from
the bytes that came out. The steps go through exactly as long as the count
does not pass the last generation, so "can be advanced" is arithmetic on the
count and never a question about bytes.
-/

namespace MediaSeal.KeyMaterial

variable {salt : Bytes}

/-- The material `steps` generations on, or the refusal of the step that the
count does not allow. -/
def advance (salt : Bytes) : (steps : Nat) → KeyMaterial → Except CipherError KeyMaterial
  | 0, key => .ok key
  | steps + 1, key =>
      match key.ratchet salt with
      | .error error => .error error
      | .ok next => advance salt steps next

/-- The frame key is the one that belongs to the raw bytes. -/
def Derived (salt : Bytes) (key : KeyMaterial) : Prop :=
  key.frameKey = deriveFrameKey key.raw salt

theorem derived_supplied (raw salt : Bytes) : Derived salt (supplied raw salt) := rfl

/-! ## One step -/

theorem ratchet_eq_ok_iff {key next : KeyMaterial} :
    key.ratchet salt = .ok next ↔
      key.generation ≠ lastGeneration ∧
        next = atGeneration (ratchetMaterial key.raw salt) salt (key.generation + 1) := by
  unfold ratchet
  split
  · next hlast => simp [hlast]
  · next hlast =>
      constructor
      · intro h
        injection h with h
        exact ⟨hlast, h.symm⟩
      · intro h
        obtain ⟨_, rfl⟩ := h
        rfl

theorem ratchet_eq_error_iff {key : KeyMaterial} {error : CipherError} :
    key.ratchet salt = .error error ↔
      key.generation = lastGeneration ∧ error = .generationOverflow lastGeneration := by
  unfold ratchet
  split
  · next hlast => simp [hlast, eq_comm]
  · next hlast => simp [hlast]

/-- Below the last generation the count goes up by one, without wrapping. -/
theorem toNat_generation_of_ratchet {key next : KeyMaterial}
    (h : key.ratchet salt = .ok next) :
    next.generation.toNat = key.generation.toNat + 1 := by
  obtain ⟨hlast, rfl⟩ := ratchet_eq_ok_iff.mp h
  have hne : key.generation.toNat ≠ lastGeneration.toNat :=
    fun e => hlast (UInt32.toNat_inj.mp e)
  have hlt := key.generation.toNat_lt
  show (key.generation + 1).toNat = _
  rw [UInt32.toNat_add]
  simp only [lastGeneration, UInt32.reduceToNat] at hne ⊢
  omega

theorem raw_of_ratchet {key next : KeyMaterial} (h : key.ratchet salt = .ok next) :
    next.raw = ratchetMaterial key.raw salt := by
  obtain ⟨_, rfl⟩ := ratchet_eq_ok_iff.mp h
  rfl

theorem derived_of_ratchet {key next : KeyMaterial} (h : key.ratchet salt = .ok next) :
    next.Derived salt := by
  obtain ⟨_, rfl⟩ := ratchet_eq_ok_iff.mp h
  rfl

/-! ## Several steps -/

@[simp] theorem advance_zero (key : KeyMaterial) : advance salt 0 key = .ok key := rfl

theorem advance_succ_eq_ok_iff {steps : Nat} {key later : KeyMaterial} :
    advance salt (steps + 1) key = .ok later ↔
      ∃ next, key.ratchet salt = .ok next ∧ advance salt steps next = .ok later := by
  rw [advance]
  cases key.ratchet salt with
  | error error => simp
  | ok next => simp

/-- Steps taken in two goes. -/
theorem advance_add {first second : Nat} {key middle : KeyMaterial}
    (h : advance salt first key = .ok middle) :
    advance salt (first + second) key = advance salt second middle := by
  induction first generalizing key with
  | zero =>
      injection h with h
      rw [h, Nat.zero_add]
  | succ first ih =>
      obtain ⟨next, hnext, hrest⟩ := advance_succ_eq_ok_iff.mp h
      rw [Nat.add_right_comm, advance, hnext]
      exact ih hrest

theorem toNat_generation_of_advance {steps : Nat} {key later : KeyMaterial}
    (h : advance salt steps key = .ok later) :
    later.generation.toNat = key.generation.toNat + steps := by
  induction steps generalizing key with
  | zero =>
      injection h with h
      rw [h, Nat.add_zero]
  | succ steps ih =>
      obtain ⟨next, hnext, hrest⟩ := advance_succ_eq_ok_iff.mp h
      have hgen := toNat_generation_of_ratchet hnext
      have hlater := ih hrest
      omega

theorem raw_of_advance {steps : Nat} {key later : KeyMaterial}
    (h : advance salt steps key = .ok later) :
    later.raw = (ratchetMaterial · salt)^[steps] key.raw := by
  induction steps generalizing key with
  | zero =>
      injection h with h
      rw [h, Function.iterate_zero_apply]
  | succ steps ih =>
      obtain ⟨next, hnext, hrest⟩ := advance_succ_eq_ok_iff.mp h
      rw [ih hrest, raw_of_ratchet hnext, Function.iterate_succ_apply]

/-- Every step derives a frame key of its own, so only the material that no
step was taken from keeps the one it came with. -/
theorem derived_of_advance {steps : Nat} {key later : KeyMaterial}
    (h : advance salt steps key = .ok later) (hkey : steps = 0 → key.Derived salt) :
    later.Derived salt := by
  induction steps generalizing key with
  | zero =>
      injection h with h
      rw [← h]
      exact hkey rfl
  | succ steps ih =>
      obtain ⟨next, hnext, hrest⟩ := advance_succ_eq_ok_iff.mp h
      exact ih hrest fun _ => derived_of_ratchet hnext

/-- The count alone decides whether the steps go through. -/
theorem advance_isOk_iff {steps : Nat} {key : KeyMaterial} :
    (∃ later, advance salt steps key = .ok later) ↔
      key.generation.toNat + steps ≤ lastGeneration.toNat := by
  constructor
  · intro h
    obtain ⟨later, h⟩ := h
    have hgen := toNat_generation_of_advance h
    have hlater := later.generation.toNat_lt
    simp only [lastGeneration, UInt32.reduceToNat]
    omega
  · intro hroom
    induction steps generalizing key with
    | zero => exact ⟨key, rfl⟩
    | succ steps ih =>
        have hlast : key.generation ≠ lastGeneration := by
          intro e
          rw [e] at hroom
          omega
        obtain ⟨next, hnext⟩ : ∃ next, key.ratchet salt = .ok next :=
          ⟨_, ratchet_eq_ok_iff.mpr ⟨hlast, rfl⟩⟩
        have hgen := toNat_generation_of_ratchet hnext
        have hrest : next.generation.toNat + steps ≤ lastGeneration.toNat := by omega
        obtain ⟨later, hlater⟩ := ih hrest
        exact ⟨later, advance_succ_eq_ok_iff.mpr ⟨next, hnext, hlater⟩⟩

/-! ## Lines of descent -/

/-- Material that comes from bytes by as many ratchet steps as its generation
says, with the frame key that belongs to it. -/
def DescendsFrom (salt raw : Bytes) (key : KeyMaterial) : Prop :=
  key.raw = (ratchetMaterial · salt)^[key.generation.toNat] raw ∧
    key.frameKey = deriveFrameKey key.raw salt

theorem descendsFrom_supplied (raw salt : Bytes) :
    (supplied raw salt).DescendsFrom salt raw := ⟨rfl, rfl⟩

theorem DescendsFrom.advance {raw : Bytes} {steps : Nat} {key later : KeyMaterial}
    (hkey : key.DescendsFrom salt raw) (h : advance salt steps key = .ok later) :
    later.DescendsFrom salt raw := by
  obtain ⟨hraw, hframe⟩ := hkey
  refine ⟨?_, derived_of_advance h fun _ => hframe⟩
  rw [raw_of_advance h, toNat_generation_of_advance h, hraw, Nat.add_comm,
    Function.iterate_add_apply]

theorem frameKey_eq_of_derived {key other : KeyMaterial} (hraw : key.raw = other.raw)
    (hkey : key.Derived salt) (hother : other.Derived salt) :
    key.frameKey = other.frameKey := by
  unfold Derived at hkey hother
  rw [hkey, hother, hraw]

/-- Bytes and generation determine the whole, once the frame key belongs to
the bytes. -/
theorem eq_of_derived {key other : KeyMaterial} (hraw : key.raw = other.raw)
    (hgen : key.generation = other.generation) (hkey : key.Derived salt)
    (hother : other.Derived salt) : key = other := by
  have hframe := frameKey_eq_of_derived hraw hkey hother
  cases key
  cases other
  simp_all

end MediaSeal.KeyMaterial
