import MediaSeal.Proofs.FrameReading

/-!
# Bytes on a machine

A list can be cut anywhere and a number can grow or shrink as it likes: what is cut
off beyond the end is empty, and less than nothing is nothing. On a machine a cut
outside the data stops the program, a length is a word that can overflow or go below
zero, and a number that is put into a byte may lose its upper part. That the functions
on frames never come to this is not to be seen from their definitions here, which would
go on regardless.

So the parts of a frame are taken off and put together once more, by operations that
stop instead. Where such an operation is safe, it is so because of a check that was made
before, sometimes in another function: the marker is looked for only where there is room
for it, the last four bytes are read only where there are four, the vector and the header
are cut out only where they do not overlap. One fact comes from outside. A byte string
that is in memory takes at most half of what a word can count, which leaves room for the
few bytes that are added to its length.
-/

namespace MediaSeal

/-! ## Operations that stop -/

/-- What a machine cannot do, or not without losing something. -/
inductive Fault
  /-- A place outside the data, or a piece that ends outside it or before it starts. -/
  | outOfBounds
  /-- A number too large for a word. -/
  | overflow
  /-- A number below zero. -/
  | underflow
  /-- A number too large for a byte. -/
  | narrowed
deriving DecidableEq, Repr

/-- Work that stops at the first fault. -/
abbrev Guarded := Except Fault

namespace Guarded

def sum (a b : Nat) : Guarded Nat :=
  if a + b < USize.size then pure (a + b) else throw .overflow

def difference (a b : Nat) : Guarded Nat :=
  if b ≤ a then pure (a - b) else throw .underflow

/-- A number as a byte. -/
def byte (number : Nat) : Guarded UInt8 :=
  if number < UInt8.size then pure (UInt8.ofNat number) else throw .narrowed

def item {α : Type} (items : List α) (place : Nat) : Guarded α :=
  match items[place]? with
  | some found => pure found
  | none => throw .outOfBounds

/-- The bytes from one place to another. -/
def piece (bytes : Bytes) (start finish : Nat) : Guarded Bytes :=
  if start ≤ finish ∧ finish ≤ bytes.length then pure ((bytes.take finish).drop start)
  else throw .outOfBounds

/-- The bytes before a place and those from there on. -/
def cut (bytes : Bytes) (place : Nat) : Guarded (Bytes × Bytes) :=
  if place ≤ bytes.length then pure (bytes.take place, bytes.drop place) else throw .outOfBounds

/-- Two pieces in one buffer, whose length is worked out before. -/
def join (first second : Bytes) : Guarded Bytes := do
  let _ ← sum first.length second.length
  return first ++ second

/-- The items with another one at a place. -/
def replace {α : Type} (items : List α) (place : Nat) (other : α) : Guarded (List α) :=
  if place < items.length then pure (items.set place other) else throw .outOfBounds

/-- One more of a number of thirty-two bits. -/
def successor (count : UInt32) : Guarded UInt32 :=
  if count.toNat + 1 < UInt32.size then pure (count + 1) else throw .overflow

/-- Bytes that have to have a certain length. -/
def exactly (length : Nat) (bytes : Bytes) : Guarded Bytes :=
  if bytes.length = length then pure bytes else throw .outOfBounds

section Laws

variable {a b number place start finish length : Nat} {bytes : Bytes}

theorem sum_eq (h : a + b < USize.size) : sum a b = pure (a + b) := if_pos h

theorem difference_eq (h : b ≤ a) : difference a b = pure (a - b) := if_pos h

theorem byte_eq (h : number < UInt8.size) : byte number = pure (UInt8.ofNat number) := if_pos h

theorem item_eq {α : Type} {items : List α} {found : α} (h : items[place]? = some found) :
    item items place = pure found := by
  simp only [item, h]

theorem piece_eq (h : start ≤ finish ∧ finish ≤ bytes.length) :
    piece bytes start finish = pure ((bytes.take finish).drop start) := if_pos h

theorem cut_eq (h : place ≤ bytes.length) :
    cut bytes place = pure (bytes.take place, bytes.drop place) := if_pos h

theorem join_eq {first second : Bytes} (h : first.length + second.length < USize.size) :
    join first second = pure (first ++ second) := by
  rw [join, sum_eq h, pure_bind]

theorem replace_eq {α : Type} {items : List α} (h : place < items.length) (other : α) :
    replace items place other = pure (items.set place other) := if_pos h

theorem successor_eq {count : UInt32} (h : count.toNat + 1 < UInt32.size) :
    successor count = pure (count + 1) := if_pos h

theorem exactly_eq (h : bytes.length = length) : exactly length bytes = pure bytes := if_pos h

end Laws

/-- A cut that would reach outside the data is not one that is empty. -/
example : piece [1, 2] 1 3 = .error .outOfBounds ∧ difference 2 3 = .error .underflow ∧
    byte 256 = .error .narrowed := ⟨rfl, rfl, rfl⟩

end Guarded

open Guarded

/-- Bytes that can be in memory. -/
def Bytes.Held (bytes : Bytes) : Prop := bytes.length < USize.size / 2

theorem Bytes.held_of_length_lt {bytes : Bytes} (h : bytes.length < 0x80000000) : bytes.Held := by
  have hsize := USize.le_size
  rw [Held]
  omega

/-! ## The marker -/

namespace Marker

variable {marker payload : Bytes}

/-- As `strip?`, with the marker looked for in front of the last byte. -/
def stripGuarded? (marker payload : Bytes) : Guarded (Option Bytes) :=
  if marker = [] then pure none
  else if payload = marker then pure (some payload)
  else do
    let needed ← sum marker.length 1
    if payload.length < needed then return none
    else
      let start ← difference payload.length needed
      let finish ← difference payload.length 1
      if (← piece payload start finish) = marker then
        return some (← piece payload 0 start)
      else return none

theorem stripGuarded?_eq (hmarker : marker.Held) (payload : Bytes) :
    stripGuarded? marker payload = pure (strip? marker payload) := by
  rw [Bytes.Held] at hmarker
  unfold stripGuarded? strip?
  by_cases hempty : marker = []
  · simp only [if_pos hempty]
  by_cases hwhole : payload = marker
  · simp only [if_neg hempty, if_pos hwhole]
  simp only [if_neg hempty, if_neg hwhole]
  rw [sum_eq (by omega), pure_bind]
  by_cases hshort : payload.length < marker.length + 1
  · simp only [if_pos hshort]
  -- The piece has the length of the marker, so it is what is taken after the cut.
  have hpiece : (payload.take (payload.length - 1)).drop
      (payload.length - (marker.length + 1)) =
        (payload.drop (payload.length - (marker.length + 1))).take marker.length := by
    rw [List.drop_take]
    congr 1
    omega
  simp only [if_neg hshort]
  rw [difference_eq (by omega), pure_bind, difference_eq (by omega), pure_bind,
    piece_eq (by omega), pure_bind, hpiece]
  by_cases hmarked : (payload.drop (payload.length - (marker.length + 1))).take
      marker.length = marker
  · rw [if_pos hmarked, if_pos hmarked, piece_eq (by omega), pure_bind, List.drop_zero]
  · rw [if_neg hmarked, if_neg hmarked]

end Marker

/-! ## The parts of a frame -/

namespace SealedFrame

/-- As `parse`, with the last four bytes read one by one. -/
def parseGuarded (payload : Bytes) : Guarded (Except MalformedFrame SealedFrame) :=
  if payload.length < Trailer.size then
    pure (.error (.tooShort payload.length Trailer.size))
  else do
    let room ← difference payload.length Trailer.size
    let headerLength ← item payload room
    let tag ← item payload (← sum room 1)
    let ivLength ← item payload (← sum room 2)
    let keyIndex ← item payload (← sum room 3)
    match Algorithm.ofTag? tag with
    | none => return .error (.unknownAlgorithm tag)
    | some algorithm =>
      if ivLength.toNat ≠ algorithm.ivLength then
        return .error (.ivLength algorithm.ivLength ivLength.toNat)
      else
        let needed ← sum headerLength.toNat ivLength.toNat
        if room < needed then
          return .error (.truncated payload.length headerLength.toNat ivLength.toNat)
        else
          let ivStart ← difference room ivLength.toNat
          let header ← piece payload 0 headerLength.toNat
          let ciphertext ← piece payload headerLength.toNat ivStart
          let iv ← piece payload ivStart room
          let trailer := ⟨headerLength, algorithm, ivLength, keyIndex⟩
          return .ok { header, ciphertext, iv, trailer }

theorem parseGuarded_eq {payload : Bytes} (hpayload : payload.Held) :
    parseGuarded payload = pure (parse payload) := by
  rw [Bytes.Held] at hpayload
  by_cases hshort : payload.length < Trailer.size
  · rw [parseGuarded, if_pos hshort, parse_of_short hshort]
  obtain ⟨front, headerLength, tag, ivLength, keyIndex, rfl⟩ :=
    exists_append_trailer (Nat.not_lt.mp hshort)
  have hlength : (front ++ [headerLength, tag, ivLength, keyIndex]).length =
      front.length + Trailer.size := List.length_append
  have hroom : (front ++ [headerLength, tag, ivLength, keyIndex]).length - Trailer.size =
      front.length := by omega
  have hlast : ∀ place, (front ++ [headerLength, tag, ivLength, keyIndex])[front.length + place]? =
      [headerLength, tag, ivLength, keyIndex][place]? := fun place => by
    rw [List.getElem?_append_right (Nat.le_add_right _ _), Nat.add_sub_cancel_left]
  have hfirst : (front ++ [headerLength, tag, ivLength, keyIndex])[front.length]? =
      some headerLength := hlast 0
  have hheaderByte := headerLength.toNat_lt
  have hivByte := ivLength.toNat_lt
  have hsize := USize.le_size
  rw [Trailer.size] at hlength
  unfold parseGuarded parse
  simp only [drop_append_trailer]
  rw [if_neg hshort, difference_eq (Nat.not_lt.mp hshort), hroom, pure_bind,
    item_eq hfirst, pure_bind, sum_eq (by omega), pure_bind, item_eq (hlast 1), pure_bind,
    sum_eq (by omega), pure_bind, item_eq (hlast 2), pure_bind,
    sum_eq (by omega), pure_bind, item_eq (hlast 3), pure_bind]
  cases halgorithm : Algorithm.ofTag? tag with
  | none => rfl
  | some algorithm =>
      simp only
      by_cases hiv : ivLength.toNat ≠ algorithm.ivLength
      · rw [if_pos hiv, if_pos hiv]
      rw [if_neg hiv, if_neg hiv, sum_eq (by omega), pure_bind]
      by_cases htruncated : front.length < headerLength.toNat + ivLength.toNat
      · rw [if_pos htruncated, if_pos htruncated]
      rw [if_neg htruncated, if_neg htruncated, difference_eq (by omega), pure_bind,
        piece_eq (by omega), pure_bind, piece_eq (by omega), pure_bind, piece_eq (by omega),
        pure_bind, List.drop_zero]

end SealedFrame

/-! ## Tags -/

namespace Cbc

/-- What remains to be done once the tag is cut off. -/
def decryptParts (key : FrameKey) (iv aad body received : Bytes) : Except CipherError Bytes :=
  if body.length = 0 ∨ body.length % 16 ≠ 0 then
    .error (.decryptionFailed .notBlockAligned)
  else if received ≠ tag key iv aad body then
    .error (.decryptionFailed .unauthentic)
  else
    let blocks := unchain (.ofKey key.block) (.ofBytes iv) (Aes.Block.listOfBytes body)
    match Padding.strip? (Aes.Block.listToBytes blocks) with
    | some plaintext => .ok plaintext
    | none => .error (.decryptionFailed .badPadding)

/-- As `decrypt`, with the tag cut off at a length worked out before. -/
def decryptGuarded (key : FrameKey) (iv aad ciphertext : Bytes) :
    Guarded (Except CipherError Bytes) :=
  if iv.length ≠ ivLength then pure (.error (.ivLength ivLength iv.length))
  else if ciphertext.length < tagLength then
    pure (.error (.decryptionFailed .shorterThanTag))
  else do
    let split ← difference ciphertext.length tagLength
    let (body, received) ← cut ciphertext split
    return decryptParts key iv aad body received

/-- As `encrypt`, with the tag taken off the front of a longer one. -/
def encryptGuarded (key : FrameKey) (iv aad plaintext : Bytes) :
    Guarded (Except CipherError Bytes) :=
  if iv.length ≠ ivLength then pure (.error (.ivLength ivLength iv.length))
  else do
    let blocks := Aes.Block.listOfBytes (Padding.add plaintext)
    let body := Aes.Block.listToBytes (chain (.ofKey key.block) (.ofBytes iv) blocks)
    let shortened ← piece (Hmac.tag (tagKey key) (authenticated iv aad body)) 0 tagLength
    return .ok (body ++ shortened)

variable (key : FrameKey) (iv aad : Bytes)

theorem decryptGuarded_eq (ciphertext : Bytes) :
    decryptGuarded key iv aad ciphertext = pure (decrypt key iv aad ciphertext) := by
  unfold decryptGuarded decrypt
  by_cases hiv : iv.length ≠ ivLength
  · rw [if_pos hiv, if_pos hiv]
  by_cases hshort : ciphertext.length < tagLength
  · rw [if_neg hiv, if_pos hshort, if_neg hiv, if_pos hshort]
  rw [if_neg hiv, if_neg hshort, if_neg hiv, if_neg hshort, difference_eq (Nat.not_lt.mp hshort),
    pure_bind, cut_eq (Nat.sub_le _ _), pure_bind]
  rfl

theorem encryptGuarded_eq (plaintext : Bytes) :
    encryptGuarded key iv aad plaintext = pure (encrypt key iv aad plaintext) := by
  unfold encryptGuarded encrypt
  by_cases hiv : iv.length ≠ ivLength
  · rw [if_pos hiv, if_pos hiv]
  rw [if_neg hiv, if_neg hiv]
  simp only
  rw [piece_eq ⟨Nat.zero_le _, by rw [Hmac.length_tag, tagLength]; omega⟩, pure_bind,
    List.drop_zero]
  rfl

end Cbc

namespace Gcm

/-- As `decrypt`, with a vector that has to have its length. -/
def decryptGuarded (key : FrameKey) (iv aad ciphertext : Bytes) :
    Guarded (Except CipherError Bytes) :=
  if iv.length ≠ ivLength then pure (.error (.ivLength ivLength iv.length))
  else if ciphertext.length < tagLength then
    pure (.error (.decryptionFailed .shorterThanTag))
  else do
    let nonce ← exactly ivLength iv
    return decrypt key nonce aad ciphertext

/-- As `encrypt`, with a vector that has to have its length. -/
def encryptGuarded (key : FrameKey) (iv aad plaintext : Bytes) :
    Guarded (Except CipherError Bytes) :=
  if iv.length ≠ ivLength then pure (.error (.ivLength ivLength iv.length))
  else do
    let nonce ← exactly ivLength iv
    return encrypt key nonce aad plaintext

variable (key : FrameKey) (iv aad : Bytes)

theorem decryptGuarded_eq (ciphertext : Bytes) :
    decryptGuarded key iv aad ciphertext = pure (decrypt key iv aad ciphertext) := by
  unfold decryptGuarded
  by_cases hiv : iv.length ≠ ivLength
  · rw [if_pos hiv, decrypt, if_pos hiv]
  by_cases hshort : ciphertext.length < tagLength
  · rw [if_neg hiv, if_pos hshort, decrypt, if_neg hiv, if_pos hshort]
  rw [if_neg hiv, if_neg hshort, exactly_eq (Decidable.not_not.mp hiv), pure_bind]

theorem encryptGuarded_eq (plaintext : Bytes) :
    encryptGuarded key iv aad plaintext = pure (encrypt key iv aad plaintext) := by
  unfold encryptGuarded
  by_cases hiv : iv.length ≠ ivLength
  · rw [if_pos hiv, encrypt, if_pos hiv]
  rw [if_neg hiv, exactly_eq (Decidable.not_not.mp hiv), pure_bind]

end Gcm

namespace Algorithm

def decryptGuarded : Algorithm → (key : FrameKey) → (iv aad ciphertext : Bytes) →
    Guarded (Except CipherError Bytes)
  | aesGcm => Gcm.decryptGuarded
  | aesCbc => Cbc.decryptGuarded

def encryptGuarded : Algorithm → (key : FrameKey) → (iv aad plaintext : Bytes) →
    Guarded (Except CipherError Bytes)
  | aesGcm => Gcm.encryptGuarded
  | aesCbc => Cbc.encryptGuarded

variable (algorithm : Algorithm) (key : FrameKey) (iv aad : Bytes)

theorem decryptGuarded_eq (ciphertext : Bytes) :
    algorithm.decryptGuarded key iv aad ciphertext =
      pure (algorithm.decrypt key iv aad ciphertext) := by
  cases algorithm with
  | aesGcm => exact Gcm.decryptGuarded_eq key iv aad ciphertext
  | aesCbc => exact Cbc.decryptGuarded_eq key iv aad ciphertext

theorem encryptGuarded_eq (plaintext : Bytes) :
    algorithm.encryptGuarded key iv aad plaintext =
      pure (algorithm.encrypt key iv aad plaintext) := by
  cases algorithm with
  | aesGcm => exact Gcm.encryptGuarded_eq key iv aad plaintext
  | aesCbc => exact Cbc.encryptGuarded_eq key iv aad plaintext

end Algorithm

end MediaSeal
