import MediaSeal.Aes.Cipher

/-!
# AES decryption undoes encryption, and the other way round

Every step of a round has an inverse: the substitution by its table, the row
shift by definition, the key addition because exclusive or undoes itself, and
the linear step because its fourth power is the identity. The rounds
then undo each other from the inside out.
-/

namespace MediaSeal.Aes

/-! ## The linear step -/

theorem xor_left_comm (a b c : UInt8) : a ^^^ (b ^^^ c) = b ^^^ (a ^^^ c) := by
  rw [← UInt8.xor_assoc, UInt8.xor_comm a b, UInt8.xor_assoc]

theorem xor_xor_cancel (a b : UInt8) : a ^^^ (a ^^^ b) = b := by
  rw [← UInt8.xor_assoc, UInt8.xor_self, UInt8.zero_xor]

/-- The bit that a doubling carries out is one bit. -/
theorem carry_cases (byte : UInt8) : byte >>> 7 = 0 ∨ byte >>> 7 = 1 := by
  have all : ∀ n : Fin 256, UInt8.ofFin n >>> 7 = 0 ∨ UInt8.ofFin n >>> 7 = 1 := by
    decide +kernel
  exact all byte.toFin

theorem double_xor (a b : UInt8) : double (a ^^^ b) = double a ^^^ double b := by
  unfold double
  rw [UInt8.shiftLeft_xor, UInt8.shiftRight_xor]
  rcases carry_cases a with ha | ha <;> rcases carry_cases b with hb | hb <;> rw [ha, hb] <;>
    simp [UInt8.xor_assoc, UInt8.xor_comm, xor_left_comm]

theorem Column.mix_mix (c : Column) : c.mix.mix = c.mixTwice := by
  obtain ⟨a, b, c, d⟩ := c
  simp only [Column.mix, Column.mixTwice, Column.mixed, double_xor, Column.mk.injEq]
  refine ⟨?_, ?_, ?_, ?_⟩ <;>
    simp only [UInt8.xor_assoc, UInt8.xor_comm, xor_left_comm, xor_xor_cancel, UInt8.xor_self,
      UInt8.zero_xor]

theorem Column.mixTwice_mixTwice (c : Column) : c.mixTwice.mixTwice = c := by
  simp [Column.mixTwice, double_xor, UInt8.xor_comm, xor_left_comm]

theorem Column.unmix_mix (c : Column) : c.mix.unmix = c := by
  rw [Column.unmix, ← Column.mix_mix, Column.mix_mix, Column.mix_mix, Column.mixTwice_mixTwice]

theorem Column.mix_unmix (c : Column) : c.unmix.mix = c := by
  rw [Column.unmix, Column.mix_mix, Column.mixTwice_mixTwice]

namespace Block

theorem unmixColumns_mixColumns (s : Block) : s.mixColumns.unmixColumns = s := by
  simp [mixColumns, unmixColumns, Column.unmix_mix]

theorem mixColumns_unmixColumns (s : Block) : s.unmixColumns.mixColumns = s := by
  simp [mixColumns, unmixColumns, Column.mix_unmix]

/-! ## The other steps -/

theorem xor_xor (s key : Block) : (s.xor key).xor key = s := by
  simp only [Block.xor, Column.xor, UInt8.xor_assoc, UInt8.xor_self, UInt8.xor_zero]

theorem map_unsubstitute_map_substitute (s : Block) :
    (s.map substitute).map unsubstitute = s := by
  simp [Block.map, Column.map, unsubstitute_substitute]

theorem map_substitute_map_unsubstitute (s : Block) :
    (s.map unsubstitute).map substitute = s := by
  simp [Block.map, Column.map, substitute_unsubstitute]

end Block

/-! ## The rounds -/

theorem decryptRounds_encryptRounds (keys : List Block) (s : Block) :
    decryptRounds keys (encryptRounds keys s) = s := by
  induction keys generalizing s with
  | nil => rfl
  | cons key keys ih =>
    cases keys with
    | nil =>
      simp [encryptRounds, decryptRounds, Block.xor_xor, Block.unshiftRows_shiftRows,
        Block.map_unsubstitute_map_substitute]
    | cons next keys =>
      simp [encryptRounds, decryptRounds, ih, Block.xor_xor, Block.unmixColumns_mixColumns,
        Block.unshiftRows_shiftRows, Block.map_unsubstitute_map_substitute]

theorem encryptRounds_decryptRounds (keys : List Block) (s : Block) :
    encryptRounds keys (decryptRounds keys s) = s := by
  induction keys generalizing s with
  | nil => rfl
  | cons key keys ih =>
    cases keys with
    | nil =>
      simp [encryptRounds, decryptRounds, Block.xor_xor, Block.shiftRows_unshiftRows,
        Block.map_substitute_map_unsubstitute]
    | cons next keys =>
      simp [encryptRounds, decryptRounds, ih, Block.xor_xor, Block.mixColumns_unmixColumns,
        Block.shiftRows_unshiftRows, Block.map_substitute_map_unsubstitute]

theorem Schedule.decrypt_encrypt (schedule : Schedule) (block : Block) :
    schedule.decrypt (schedule.encrypt block) = block := by
  simp [Schedule.decrypt, Schedule.encrypt, decryptRounds_encryptRounds, Block.xor_xor]

theorem Schedule.encrypt_decrypt (schedule : Schedule) (block : Block) :
    schedule.encrypt (schedule.decrypt block) = block := by
  simp [Schedule.decrypt, Schedule.encrypt, encryptRounds_decryptRounds, Block.xor_xor]

end MediaSeal.Aes
