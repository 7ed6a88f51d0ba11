import MediaSeal.Proofs.CipherInverse

/-!
# Sealing undoes opening

That opening undoes sealing would also hold of ciphers that open too much: of
one that reads the end of the padding and not the rest of it, or compares a part
of the tag. The converse leaves no room for that. Whatever opens is what
sealing its plaintext gives, so for each plaintext there is one ciphertext under
one key, vector and associated data.

In the chaining mode this takes the block cipher the other way round, and a
padding that is checked to the last byte. In the counter mode there is a gap:
opening has room for sixteen bytes of plaintext more than sealing takes, so that
the law is about plaintexts that sealing has room for.

Taken together, sealing and opening are two readings of one relation between
plaintexts and ciphertexts, total on the plaintexts that there is room for; and
a vector of another length than the cipher's is turned down on both sides.
-/

namespace MediaSeal

/-! ## The chaining mode -/

/-- A padding that comes off is the padding that would be put on. -/
theorem Padding.add_of_strip? {padded message : Bytes} (hblocks : padded.length % 16 = 0)
    (h : strip? padded = some message) : add message = padded := by
  simp only [strip?] at h
  split at h
  · next hpadding =>
      obtain ⟨hone, hsixteen, hsame⟩ := hpadding
      generalize padded.getLast?.getD 0 = last at hone hsixteen hsame h
      injection h with h
      subst h
      have hwhole := congrArg List.length hsame
      rw [List.length_drop, List.length_replicate] at hwhole
      have hwidth : width (padded.take (padded.length - last.toNat)).length = last.toNat := by
        rw [List.length_take, width]
        omega
      rw [add, hwidth, UInt8.ofNat_toNat, ← hsame, List.take_append_drop]
  · cases h

namespace Cbc

/-- Each block of ciphertext comes out again from what it was opened to and the
one before. -/
theorem chain_unchain (schedule : Aes.Schedule) (previous : Aes.Block)
    (blocks : List Aes.Block) :
    chain schedule previous (unchain schedule previous blocks) = blocks := by
  induction blocks generalizing previous with
  | nil => rfl
  | cons block rest ih =>
      rw [unchain, chain, Aes.Block.xor_xor, Aes.Schedule.encrypt_decrypt, ih]

theorem encrypt_decrypt {key : FrameKey} {iv aad plaintext ciphertext : Bytes}
    (h : decrypt key iv aad ciphertext = .ok plaintext) :
    encrypt key iv aad plaintext = .ok ciphertext := by
  obtain ⟨hiv, body, rfl, ⟨-, haligned⟩, hplain⟩ := decrypt_eq_ok_iff.mp h
  refine encrypt_eq_ok_iff.mpr ⟨hiv, body, ?_, rfl⟩
  have hpadded := Padding.add_of_strip?
    (by rw [Aes.Block.length_listToBytes, Nat.mul_mod_right]) hplain
  rw [hpadded, Aes.Block.listOfBytes_listToBytes, chain_unchain,
    Aes.Block.listToBytes_listOfBytes haligned]

end Cbc

/-! ## The counter mode -/

namespace Gcm

/-- What opens is some bytes and the tag over them, and the key stream turns
these bytes into the plaintext. -/
theorem decrypt_eq_ok_iff {key : FrameKey} {iv aad ciphertext plaintext : Bytes} :
    decrypt key iv aad ciphertext = .ok plaintext ↔
      iv.length = ivLength ∧ aad.length ≤ maxLength ∧
        ∃ body, ciphertext = body ++ tag (.ofKey key.block) iv aad body ∧
          body.length ≤ maxLength + tagLength ∧
          plaintext = applyStream (.ofKey key.block) iv body := by
  constructor
  · intro h
    simp only [decrypt] at h
    split at h
    · cases h
    · next hiv =>
        split at h
        · cases h
        · split at h
          · cases h
          · next hpasses =>
              injection h with h
              rw [not_or, not_or, Nat.not_lt, Nat.not_lt, Decidable.not_not] at hpasses
              obtain ⟨hbody, haad, htag⟩ := hpasses
              refine ⟨Decidable.not_not.mp hiv, haad, _, ?_, hbody, h.symm⟩
              rw [← htag, List.take_append_drop]
  · rintro ⟨hiv, haad, body, rfl, hbody, rfl⟩
    have hroom : ¬ (body ++ tag (.ofKey key.block) iv aad body).length < tagLength := by
      rw [List.length_append, length_tag, tagLength]
      omega
    obtain ⟨htake, hdrop⟩ := Bytes.split_tag body (length_tag (.ofKey key.block) iv aad body)
    rw [decrypt, if_neg (fun hne => hne hiv), if_neg hroom]
    simp only [tagLength] at hbody ⊢
    simp only [htake, hdrop, Nat.not_lt.mpr hbody, Nat.not_lt.mpr haad, ne_eq,
      not_true_eq_false, or_self, if_false]

theorem length_of_decrypt {key : FrameKey} {iv aad plaintext ciphertext : Bytes}
    (h : decrypt key iv aad ciphertext = .ok plaintext) :
    ciphertext.length = plaintext.length + tagLength := by
  obtain ⟨-, -, body, rfl, -, rfl⟩ := decrypt_eq_ok_iff.mp h
  rw [List.length_append, length_tag, length_applyStream, tagLength]

theorem encrypt_decrypt {key : FrameKey} {iv aad plaintext ciphertext : Bytes}
    (hlength : plaintext.length ≤ maxLength)
    (h : decrypt key iv aad ciphertext = .ok plaintext) :
    encrypt key iv aad plaintext = .ok ciphertext := by
  obtain ⟨hiv, haad, body, rfl, -, rfl⟩ := decrypt_eq_ok_iff.mp h
  refine encrypt_eq_ok_iff.mpr ⟨⟨hiv, hlength, haad⟩, body, ?_, rfl⟩
  rw [applyStream_applyStream]

end Gcm

/-! ## Either cipher -/

namespace Algorithm

variable {algorithm : Algorithm} {key : FrameKey} {iv aad plaintext ciphertext : Bytes}

theorem encrypt_decrypt (hlength : plaintext.length ≤ Gcm.maxLength)
    (h : algorithm.decrypt key iv aad ciphertext = .ok plaintext) :
    algorithm.encrypt key iv aad plaintext = .ok ciphertext := by
  cases algorithm with
  | aesGcm => exact Gcm.encrypt_decrypt hlength h
  | aesCbc => exact Cbc.encrypt_decrypt h

/-- A ciphertext opens to exactly the plaintext that it is sealed from. -/
theorem decrypt_eq_ok_iff (hlength : ciphertext.length ≤ Gcm.maxLength) :
    algorithm.decrypt key iv aad ciphertext = .ok plaintext ↔
      algorithm.encrypt key iv aad plaintext = .ok ciphertext := by
  constructor
  · intro h
    cases algorithm with
    | aesGcm =>
        have hlonger := Gcm.length_of_decrypt h
        exact Gcm.encrypt_decrypt (by omega) h
    | aesCbc => exact Cbc.encrypt_decrypt h
  · exact decrypt_encrypt

/-- Either way round, the vector is the first thing that is looked at. -/
theorem refuses_ivLength (h : iv.length ≠ algorithm.ivLength) (bytes : Bytes) :
    algorithm.encrypt key iv aad bytes = .error (.ivLength algorithm.ivLength iv.length) ∧
      algorithm.decrypt key iv aad bytes =
        .error (.ivLength algorithm.ivLength iv.length) := by
  cases algorithm with
  | aesGcm => exact ⟨if_pos h, if_pos h⟩
  | aesCbc => exact ⟨if_pos h, if_pos h⟩

/-- Under a key, a vector of the cipher's length and associated data that there
is room for, every plaintext that there is room for is sealed, to a ciphertext
of a length that is known beforehand, and of all byte strings this ciphertext
and no other opens to the plaintext. A vector of any other length is refused,
whatever else is given. -/
theorem decrypt_inverts_encrypt (algorithm : Algorithm) (key : FrameKey) (iv aad : Bytes) :
    (iv.length = algorithm.ivLength → aad.length ≤ Gcm.maxLength →
      ∀ plaintext : Bytes, plaintext.length ≤ Gcm.maxLength →
        (∃ ciphertext, algorithm.encrypt key iv aad plaintext = .ok ciphertext ∧
          ciphertext.length = match algorithm with
            | .aesGcm => plaintext.length + 16
            | .aesCbc => 16 * (plaintext.length / 16 + 1) + 16) ∧
        ∀ ciphertext, algorithm.decrypt key iv aad ciphertext = .ok plaintext ↔
          algorithm.encrypt key iv aad plaintext = .ok ciphertext) ∧
    (iv.length ≠ algorithm.ivLength → ∀ bytes,
      algorithm.encrypt key iv aad bytes = .error (.ivLength algorithm.ivLength iv.length) ∧
        algorithm.decrypt key iv aad bytes =
          .error (.ivLength algorithm.ivLength iv.length)) := by
  refine ⟨fun hiv haad plaintext hplain => ⟨?_, fun ciphertext => ?_⟩, refuses_ivLength⟩
  · obtain ⟨ciphertext, hciphertext⟩ : ∃ ciphertext,
        algorithm.encrypt key iv aad plaintext = .ok ciphertext :=
      exists_encrypt_eq_ok hiv hplain haad
    have hlength := length_of_encrypt hciphertext
    refine ⟨ciphertext, hciphertext, hlength.trans ?_⟩
    cases algorithm with
    | aesGcm => rfl
    | aesCbc => rfl
  · exact ⟨encrypt_decrypt hplain, decrypt_encrypt⟩

/-- A plaintext of one whole block takes a second one for its padding. -/
theorem decrypt_inverts_encrypt_of_one_block :
    (∃ ciphertext, aesCbc.encrypt (.ofBytes [1]) (Bytes.zeros 16) [7] (Bytes.zeros 16) =
        .ok ciphertext ∧ ciphertext.length = 48 ∧
      aesCbc.decrypt (.ofBytes [1]) (Bytes.zeros 16) [7] ciphertext = .ok (Bytes.zeros 16)) ∧
    aesGcm.decrypt (.ofBytes [1]) (Bytes.zeros 16) [7] [] = .error (.ivLength 12 16) := by
  have hblock := (decrypt_inverts_encrypt .aesCbc (.ofBytes [1]) (Bytes.zeros 16) [7]).1 rfl
    (by decide) (Bytes.zeros 16) (by decide)
  obtain ⟨⟨ciphertext, hsealed, hlength⟩, hopens⟩ := hblock
  have hrefused := (decrypt_inverts_encrypt .aesGcm (.ofBytes [1]) (Bytes.zeros 16) [7]).2
    (by decide) []
  exact ⟨⟨ciphertext, hsealed, hlength, (hopens ciphertext).mpr hsealed⟩, hrefused.2⟩

end Algorithm

end MediaSeal
