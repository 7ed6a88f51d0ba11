import MediaSeal.Aes.Inverse
import MediaSeal.Cipher.Algorithm

/-!
# Opening undoes sealing

Whatever one of the ciphers seals, it opens again under the same key, vector
and associated data. Both put a tag of sixteen bytes at the end, and opening
works the tag out again over the body it finds in front, so all that is left
is that the body gives the plaintext back.

For the counter mode that is one law of exclusive or. The chaining mode needs
more: the block cipher is inverted block by block, which the chain allows
because each block it needs is a block of ciphertext; blocks and byte strings
of whole blocks are the same thing; and the padding comes off.
-/

namespace MediaSeal

/-! ## Byte strings of whole blocks -/

namespace Aes.Block

theorem takeOfBytes_listToBytes (blocks : List Block) :
    takeOfBytes blocks.length (listToBytes blocks) = blocks := by
  induction blocks with
  | nil => rfl
  | cons block rest ih =>
      have hdrop : (block.toBytes ++ listToBytes rest).drop 16 = listToBytes rest :=
        List.drop_left' (length_toBytes block)
      rw [List.length_cons, takeOfBytes, listToBytes, List.flatMap_cons, ← listToBytes,
        ofBytes_toBytes_append, hdrop, ih]

@[simp] theorem listOfBytes_listToBytes (blocks : List Block) :
    listOfBytes (listToBytes blocks) = blocks := by
  have hcount : (16 * blocks.length + 15) / 16 = blocks.length := by omega
  rw [listOfBytes, length_listToBytes, hcount, takeOfBytes_listToBytes]

theorem toBytes_ofBytes {bytes : Bytes} (h : 16 ≤ bytes.length) :
    (ofBytes bytes).toBytes = bytes.take 16 := by
  have htake : ∀ n < 16, bytes.take (n + 1) = bytes.take n ++ [bytes.getD n 0] := by
    intro n hn
    rw [List.take_add_one, List.getD_eq_getElem?_getD, List.getElem?_eq_getElem (by omega)]
    rfl
  simp [ofBytes, toBytes, Column.toBytes, htake]

theorem listToBytes_takeOfBytes {count : Nat} {bytes : Bytes}
    (h : bytes.length = 16 * count) : listToBytes (takeOfBytes count bytes) = bytes := by
  induction count generalizing bytes with
  | zero =>
      rw [List.length_eq_zero_iff.mp h]
      rfl
  | succ count ih =>
      have hrest : (bytes.drop 16).length = 16 * count := by
        rw [List.length_drop]
        omega
      rw [takeOfBytes, listToBytes, List.flatMap_cons, ← listToBytes, ih hrest,
        toBytes_ofBytes (by omega), List.take_append_drop]

/-- Cutting into blocks loses nothing if the blocks are whole. -/
theorem listToBytes_listOfBytes {bytes : Bytes} (h : bytes.length % 16 = 0) :
    listToBytes (listOfBytes bytes) = bytes :=
  listToBytes_takeOfBytes (by omega)

theorem length_listOfBytes (bytes : Bytes) :
    (listOfBytes bytes).length = (bytes.length + 15) / 16 := by
  have hlength : ∀ (count : Nat) (bytes : Bytes), (takeOfBytes count bytes).length = count := by
    intro count
    induction count with
    | zero => exact fun _ => rfl
    | succ count ih => exact fun bytes => congrArg (· + 1) (ih (bytes.drop 16))
  exact hlength _ bytes

end Aes.Block

/-! ## The chaining mode -/

namespace Cbc

@[simp] theorem length_chain (schedule : Aes.Schedule) (previous : Aes.Block)
    (blocks : List Aes.Block) : (chain schedule previous blocks).length = blocks.length := by
  induction blocks generalizing previous with
  | nil => rfl
  | cons block rest ih => rw [chain, List.length_cons, ih, List.length_cons]

/-- Each block is found again from its own ciphertext and the one before. -/
theorem unchain_chain (schedule : Aes.Schedule) (previous : Aes.Block)
    (blocks : List Aes.Block) :
    unchain schedule previous (chain schedule previous blocks) = blocks := by
  induction blocks generalizing previous with
  | nil => rfl
  | cons block rest ih =>
      rw [chain, unchain, Aes.Schedule.decrypt_encrypt, Aes.Block.xor_xor, ih]

end Cbc

/-- A tag is found again at the end of what it was appended to. -/
theorem Bytes.split_tag (body : Bytes) {tag : Bytes} {length : Nat} (h : tag.length = length) :
    (body ++ tag).take ((body ++ tag).length - length) = body ∧
      (body ++ tag).drop ((body ++ tag).length - length) = tag := by
  have hstart : (body ++ tag).length - length = body.length := by
    rw [List.length_append]
    omega
  rw [hstart]
  exact ⟨List.take_left, List.drop_left⟩

namespace Cbc

theorem encrypt_eq_ok_iff {key : FrameKey} {iv aad plaintext ciphertext : Bytes} :
    encrypt key iv aad plaintext = .ok ciphertext ↔
      iv.length = ivLength ∧ ∃ body, body = Aes.Block.listToBytes (chain (.ofKey key.block)
          (.ofBytes iv) (Aes.Block.listOfBytes (Padding.add plaintext))) ∧
        ciphertext = body ++ tag key iv aad body := by
  unfold encrypt
  by_cases h : iv.length = ivLength
  · simp only [h, ne_eq, not_true_eq_false, if_false, Except.ok.injEq, true_and, exists_eq_left]
    exact eq_comm
  · simp only [h, ne_eq, not_false_eq_true, if_true, reduceCtorEq, false_and]

/-- What opens is whole blocks and the tag over them, and the blocks hold the
plaintext with its padding. -/
theorem decrypt_eq_ok_iff {key : FrameKey} {iv aad ciphertext plaintext : Bytes} :
    decrypt key iv aad ciphertext = .ok plaintext ↔
      iv.length = ivLength ∧ ∃ body, ciphertext = body ++ tag key iv aad body ∧
        (body.length ≠ 0 ∧ body.length % 16 = 0) ∧
        Padding.strip? (Aes.Block.listToBytes (unchain (.ofKey key.block) (.ofBytes iv)
          (Aes.Block.listOfBytes body))) = some plaintext := by
  constructor
  · intro h
    simp only [decrypt] at h
    split at h
    · cases h
    · next hiv =>
        split at h
        · cases h
        · next hroom =>
            split at h
            · cases h
            · next haligned =>
                split at h
                · cases h
                · next htag =>
                    split at h
                    · next found hfound =>
                        injection h with h
                        subst h
                        rw [Decidable.not_not] at htag hiv
                        refine ⟨hiv, ciphertext.take (ciphertext.length - tagLength), ?_, ?_,
                          hfound⟩
                        · rw [← htag, List.take_append_drop]
                        · omega
                    · cases h
  · intro h
    obtain ⟨hiv, body, rfl, haligned, hplain⟩ := h
    have hroom : ¬ (body ++ tag key iv aad body).length < tagLength := by
      rw [List.length_append, length_tag, tagLength]
      omega
    have hblocks : ¬ (body.length = 0 ∨ body.length % 16 ≠ 0) := by omega
    obtain ⟨htake, hdrop⟩ := Bytes.split_tag body (length_tag key iv aad body)
    rw [decrypt, if_neg (fun hne => hne hiv), if_neg hroom]
    simp only [tagLength, htake, hdrop, if_neg hblocks, ne_eq, not_true_eq_false, if_false, hplain]

theorem decrypt_encrypt {key : FrameKey} {iv aad plaintext ciphertext : Bytes}
    (h : encrypt key iv aad plaintext = .ok ciphertext) :
    decrypt key iv aad ciphertext = .ok plaintext := by
  obtain ⟨hiv, body, hbody, rfl⟩ := encrypt_eq_ok_iff.mp h
  have hpadded := Padding.length_add plaintext
  have hlength : body.length = (Padding.add plaintext).length := by
    rw [hbody, Aes.Block.length_listToBytes, length_chain, Aes.Block.length_listOfBytes]
    omega
  refine decrypt_eq_ok_iff.mpr ⟨hiv, body, rfl, by omega, ?_⟩
  rw [hbody, Aes.Block.listOfBytes_listToBytes, unchain_chain,
    Aes.Block.listToBytes_listOfBytes (by omega), Padding.strip?_add]

end Cbc

/-! ## The counter mode -/

namespace Gcm

theorem encrypt_eq_ok_iff {key : FrameKey} {iv aad plaintext ciphertext : Bytes} :
    encrypt key iv aad plaintext = .ok ciphertext ↔
      (iv.length = ivLength ∧ plaintext.length ≤ maxLength ∧ aad.length ≤ maxLength) ∧
        ∃ body, body = applyStream (.ofKey key.block) iv plaintext ∧
          ciphertext = body ++ tag (.ofKey key.block) iv aad body := by
  unfold encrypt
  by_cases hiv : iv.length = ivLength
  · by_cases hlong : maxLength < plaintext.length ∨ maxLength < aad.length
    · have hshort : ¬ (plaintext.length ≤ maxLength ∧ aad.length ≤ maxLength) := by omega
      simp only [hiv, hlong, hshort, ne_eq, not_true_eq_false, if_false, if_true, reduceCtorEq,
        and_false, false_and]
    · have hshort : plaintext.length ≤ maxLength ∧ aad.length ≤ maxLength := by omega
      simp only [hiv, hlong, hshort, ne_eq, not_true_eq_false, if_false, Except.ok.injEq,
        and_self, true_and, exists_eq_left]
      exact eq_comm
  · simp only [hiv, ne_eq, not_false_eq_true, if_true, reduceCtorEq, false_and]

theorem decrypt_encrypt {key : FrameKey} {iv aad plaintext ciphertext : Bytes}
    (h : encrypt key iv aad plaintext = .ok ciphertext) :
    decrypt key iv aad ciphertext = .ok plaintext := by
  obtain ⟨⟨hiv, hplain, haad⟩, body, hbody, rfl⟩ := encrypt_eq_ok_iff.mp h
  have hlength : body.length = plaintext.length := by rw [hbody, length_applyStream]
  have hroom : ¬ (body ++ tag (.ofKey key.block) iv aad body).length < tagLength := by
    rw [List.length_append, length_tag, tagLength]
    omega
  have hshort : ¬ maxLength + tagLength < body.length := by omega
  obtain ⟨htake, hdrop⟩ :=
    Bytes.split_tag body (length_tag (.ofKey key.block) iv aad body)
  rw [decrypt, if_neg (fun hne => hne hiv), if_neg hroom]
  simp only [tagLength] at hshort ⊢
  simp only [htake, hdrop, hshort, Nat.not_lt.mpr haad, ne_eq, not_true_eq_false, or_self,
    if_false, Except.ok.injEq]
  rw [hbody, applyStream_applyStream]

end Gcm

/-! ## Either cipher -/

namespace Algorithm

variable {algorithm : Algorithm} {key : FrameKey} {iv aad plaintext ciphertext : Bytes}

theorem decrypt_encrypt (h : algorithm.encrypt key iv aad plaintext = .ok ciphertext) :
    algorithm.decrypt key iv aad ciphertext = .ok plaintext := by
  cases algorithm with
  | aesGcm => exact Gcm.decrypt_encrypt h
  | aesCbc => exact Cbc.decrypt_encrypt h

/-- With a vector of the right length, both ciphers seal whatever the counter
mode has room for. -/
theorem exists_encrypt_eq_ok (hiv : iv.length = algorithm.ivLength)
    (hplain : plaintext.length ≤ Gcm.maxLength) (haad : aad.length ≤ Gcm.maxLength) :
    ∃ ciphertext, algorithm.encrypt key iv aad plaintext = .ok ciphertext := by
  cases algorithm with
  | aesGcm => exact ⟨_, Gcm.encrypt_eq_ok_iff.mpr ⟨⟨hiv, hplain, haad⟩, _, rfl, rfl⟩⟩
  | aesCbc => exact ⟨_, Cbc.encrypt_eq_ok_iff.mpr ⟨hiv, _, rfl, rfl⟩⟩

/-- The length of the ciphertext for so many bytes, tag included. -/
def sealedLength : Algorithm → Nat → Nat
  | aesGcm, length => length + 16
  | aesCbc, length => 16 * (length / 16 + 1) + 16

theorem length_of_encrypt (h : algorithm.encrypt key iv aad plaintext = .ok ciphertext) :
    ciphertext.length = algorithm.sealedLength plaintext.length := by
  cases algorithm with
  | aesGcm =>
      obtain ⟨-, body, rfl, rfl⟩ := Gcm.encrypt_eq_ok_iff.mp h
      rw [List.length_append, Gcm.length_applyStream, Gcm.length_tag]
      rfl
  | aesCbc =>
      obtain ⟨-, body, rfl, rfl⟩ := Cbc.encrypt_eq_ok_iff.mp h
      rw [List.length_append, Cbc.length_tag, Aes.Block.length_listToBytes, Cbc.length_chain,
        Aes.Block.length_listOfBytes, Padding.length_add]
      show _ = 16 * (plaintext.length / 16 + 1) + 16
      omega

theorem iv_length_of_encrypt (h : algorithm.encrypt key iv aad plaintext = .ok ciphertext) :
    iv.length = algorithm.ivLength := by
  cases algorithm with
  | aesGcm => exact (Gcm.encrypt_eq_ok_iff.mp h).1.1
  | aesCbc => exact (Cbc.encrypt_eq_ok_iff.mp h).1

end Algorithm

end MediaSeal
