import MediaSeal.Proofs.CipherConverse
import MediaSeal.Proofs.GuardedBytes
import MediaSeal.Proofs.Sending

/-!
# No frame stops a machine

Whoever can send to a receiver chooses every byte that it works on, and three of the
four bytes at the end of a frame are taken for lengths and places. Here the whole way of
a frame, in both directions, is gone once more by operations that stop at a fault, and
it comes out that none is ever met. What is computed is then what encrypting and
decrypting compute, so they have a result for every payload, under every marker and
whatever the store holds, and the result is one of those that they are said to have.

Each function is named after the one whose steps it takes, and there is one equation
between the two, which is used where the function is called; only the search for a key
needs an induction, along the generations that it tries. The lengths are bounded from two
sides. A receiver works on pieces of the payload, and what a cipher opens is never longer
than what it was given. A sender makes a payload longer, but by a few bytes only, and the
lengths that it writes into a byte fit, because a header has at most ten bytes and a
vector at most sixteen.
-/

namespace MediaSeal

open Guarded

/-! ## Keys -/

namespace KeyMaterial

def ratchetGuarded (salt : Bytes) (key : KeyMaterial) :
    Guarded (Except CipherError KeyMaterial) :=
  if key.generation = lastGeneration then
    pure (.error (.generationOverflow key.generation))
  else do
    let generation ← successor key.generation
    return .ok (atGeneration (ratchetMaterial key.raw salt) salt generation)

theorem ratchetGuarded_eq (salt : Bytes) (key : KeyMaterial) :
    key.ratchetGuarded salt = pure (key.ratchet salt) := by
  unfold ratchetGuarded ratchet
  by_cases hlast : key.generation = lastGeneration
  · rw [if_pos hlast, if_pos hlast]
  have hne : key.generation.toNat ≠ 0xffffffff := fun heq => hlast (UInt32.toNat_inj.mp heq)
  have hlt := key.generation.toNat_lt
  have hsize : UInt32.size = 0xffffffff + 1 := rfl
  rw [if_neg hlast, if_neg hlast, successor_eq (by omega), pure_bind]

end KeyMaterial

namespace KeyRing

variable {ring : KeyRing} {index : Int}

def keyGuarded? (ring : KeyRing) (index : Int) : Guarded (Option KeyMaterial) :=
  match ring.slot index with
  | .error _ => pure none
  | .ok slot => item ring.slots slot

/-- The slot is read, compared with the base and then written. -/
def commitGuarded (ring : KeyRing) (index : Int) (base advanced : KeyMaterial) :
    Guarded (Bool × KeyRing) :=
  match ring.slot index with
  | .error _ => pure (false, ring)
  | .ok slot => do
    let current? ← item ring.slots slot
    let unchanged := current?.any fun current =>
      current.generation == base.generation && current.sameRaw base
    if unchanged then
      return (true, { ring with slots := ← replace ring.slots slot (some advanced) })
    else return (false, ring)

theorem item_slots {slot : Nat} (h : ring.slot index = .ok slot) :
    item ring.slots slot = pure (ring.slots.getD slot none) := by
  have hlt : slot < ring.slots.length := (slot_eq_ok_iff.mp h).2
  have hfound := List.getElem?_eq_getElem hlt
  rw [item_eq hfound, List.getD_eq_getElem?_getD, hfound, Option.getD_some]

theorem keyGuarded?_eq (ring : KeyRing) (index : Int) :
    ring.keyGuarded? index = pure (ring.key? index) := by
  unfold keyGuarded? key?
  cases hslot : ring.slot index with
  | error error => rfl
  | ok slot => exact item_slots hslot

theorem commitGuarded_eq (ring : KeyRing) (index : Int) (base advanced : KeyMaterial) :
    ring.commitGuarded index base advanced = pure (ring.commit index base advanced) := by
  unfold commitGuarded commit
  cases hslot : ring.slot index with
  | error error => rfl
  | ok slot =>
      have hlt : slot < ring.slots.length := (slot_eq_ok_iff.mp hslot).2
      have hholds : ring.holds slot base = (ring.slots.getD slot none).any
          fun current => current.generation == base.generation && current.sameRaw base := by
        unfold holds
        cases ring.slots.getD slot none <;> rfl
      -- The slot is written only if it was read, so one bound is enough for both.
      simp only [item_slots hslot, pure_bind, replace_eq hlt, ← hholds]
      by_cases hheld : ring.holds slot base = true
      · rw [if_pos hheld, if_pos hheld]
      · rw [if_neg hheld, if_neg hheld]

end KeyRing

namespace KeyStore

def keySlotGuarded (store : KeyStore) (index : Int) : Guarded (Except FrameError UInt8) :=
  if 0 ≤ index ∧ index < 256 ∧ index.toNat < store.options.ringSize then do
    return .ok (← byte index.toNat)
  else pure (.error (.invalidKeyIndex index store.options.ringSize))

theorem keySlotGuarded_eq (store : KeyStore) (index : Int) :
    store.keySlotGuarded index = pure (store.keySlot index) := by
  unfold keySlotGuarded keySlot
  by_cases hindex : 0 ≤ index ∧ index < 256 ∧ index.toNat < store.options.ringSize
  · have hfits : index.toNat < UInt8.size := by
      have hsize : UInt8.size = 256 := rfl
      omega
    rw [if_pos hindex, if_pos hindex, byte_eq hfits, pure_bind]
  · rw [if_neg hindex, if_neg hindex]

end KeyStore

/-! ## Decrypting -/

/-- What opens is no longer than what it was sealed as. -/
theorem Algorithm.length_le_of_decrypt {algorithm : Algorithm} {key : FrameKey}
    {iv aad ciphertext plaintext : Bytes}
    (h : algorithm.decrypt key iv aad ciphertext = .ok plaintext) :
    plaintext.length ≤ ciphertext.length := by
  cases algorithm with
  | aesGcm =>
      have hlength := Gcm.length_of_decrypt h
      omega
  | aesCbc =>
      have hsealed : aesCbc.encrypt key iv aad plaintext = .ok ciphertext :=
        Cbc.encrypt_decrypt h
      have hlength := Algorithm.length_of_encrypt hsealed
      rw [sealedLength] at hlength
      omega

namespace SealedFrame

variable {frame : SealedFrame}

def openGuarded? (frame : SealedFrame) (aad : Bytes) (key : KeyMaterial) :
    Guarded (Option Bytes) := do
  match ← frame.trailer.algorithm.decryptGuarded key.frameKey frame.iv aad frame.ciphertext with
  | .ok body => return some (← join frame.header body)
  | .error _ => return none

def findKeyGuarded? (frame : SealedFrame) (salt aad : Bytes) :
    (window : Nat) → (steps : Nat) → (key : KeyMaterial) → Guarded (Option FoundKey)
  | window, steps, key => do
    match ← frame.openGuarded? aad key with
    | some payload => return some ⟨key, ⟨payload, steps⟩⟩
    | none =>
      match window with
      | 0 => return none
      | window + 1 =>
        match ← key.ratchetGuarded salt with
        | .error _ => return none
        | .ok next => frame.findKeyGuarded? salt aad window (steps + 1) next

theorem openGuarded?_eq (hheld : frame.toBytes.Held) (key : KeyMaterial) :
    frame.openGuarded? frame.aad key = pure (frame.openWith? key) := by
  rw [Bytes.Held, length_toBytes] at hheld
  unfold openGuarded? openWith?
  rw [Algorithm.decryptGuarded_eq, pure_bind]
  cases hopened : frame.trailer.algorithm.decrypt key.frameKey frame.iv frame.aad
      frame.ciphertext with
  | error error => rfl
  | ok body =>
      have hbody := Algorithm.length_le_of_decrypt hopened
      simp only
      rw [join_eq (by omega), pure_bind]

theorem findKeyGuarded?_eq (hheld : frame.toBytes.Held) (salt : Bytes) (window steps : Nat)
    (key : KeyMaterial) :
    frame.findKeyGuarded? salt frame.aad window steps key =
      pure (frame.findKey? salt window steps key) := by
  -- The frame stays the same from one generation to the next, and so does its bound.
  induction window generalizing steps key with
  | zero =>
      rw [findKeyGuarded?, findKey?, openGuarded?_eq hheld, pure_bind]
      cases frame.openWith? key <;> rfl
  | succ window ih =>
      rw [findKeyGuarded?, findKey?, openGuarded?_eq hheld, pure_bind]
      cases frame.openWith? key with
      | some payload => rfl
      | none =>
          simp only
          rw [KeyMaterial.ratchetGuarded_eq, pure_bind]
          cases key.ratchet salt with
          | error error => rfl
          | ok next => exact ih (steps + 1) next

end SealedFrame

def KeyRing.openSealedGuarded (ring : KeyRing) (window : UInt32) (frame : SealedFrame)
    (base : KeyMaterial) : Guarded (Except FrameError Opened × KeyRing) := do
  let index := frame.trailer.keyIndex
  let aad ← join frame.header frame.trailer.toBytes
  match ← frame.findKeyGuarded? ring.salt aad window.toNat 0 base with
  | some found =>
    let (_, ring) ← ring.commitGuarded index.toNat base found.key
    return (.ok found.opened, ring.recordSuccess)
  | none => return (.error (.decryptionFailed index (countUp window)), ring.recordFailure.2)

theorem KeyRing.openSealedGuarded_eq {frame : SealedFrame} (hheld : frame.toBytes.Held)
    (ring : KeyRing) (window : UInt32) (base : KeyMaterial) :
    ring.openSealedGuarded window frame base = pure (ring.openSealed window frame base) := by
  have hroom : frame.header.length + frame.trailer.toBytes.length < USize.size := by
    rw [Bytes.Held, SealedFrame.length_toBytes] at hheld
    rw [Trailer.length_toBytes]
    omega
  unfold openSealedGuarded openSealed
  simp only
  rw [join_eq hroom, pure_bind, ← SealedFrame.aad, SealedFrame.findKeyGuarded?_eq hheld, pure_bind]
  cases frame.findKey? ring.salt window.toNat 0 base with
  | none => rfl
  | some found =>
      simp only
      rw [commitGuarded_eq, pure_bind]

namespace KeyStore

variable {store : KeyStore} {participant : Participant} {algorithm : Algorithm}

def decryptGuarded (store : KeyStore) (participant : Participant) (algorithm : Algorithm)
    (payload : Bytes) : Guarded (Except FrameError Opened × KeyStore) :=
  if payload.isEmpty then pure (.ok ⟨payload, 0⟩, store)
  else do
    match ← Marker.stripGuarded? store.options.marker payload with
    | some clear => return (.ok ⟨clear, 0⟩, store)
    | none =>
      match ← SealedFrame.parseGuarded payload with
      | .error cause => return (.error (.malformed cause), store)
      | .ok frame =>
        let received := frame.trailer.algorithm
        let index : Int := frame.trailer.keyIndex.toNat
        if received ≠ algorithm then return (.error (.algorithmMismatch algorithm received), store)
        else
          match ← store.keySlotGuarded index with
          | .error error => return (.error error, store)
          | .ok _ =>
            match store.ring? participant with
            | none => return (.error (.missingKey index), store)
            | some ring =>
              match ← ring.keyGuarded? index with
              | none => return (.error (.missingKey index), store)
              | some base =>
                if ring.invalidated then
                  return (.error (.keyInvalidated frame.trailer.keyIndex), store)
                else
                  let (result, ring) ← ring.openSealedGuarded store.options.window frame base
                  return (result, store.withRing participant ring)

theorem decryptGuarded_eq (hmarker : store.options.marker.Held) {payload : Bytes}
    (hpayload : payload.Held) :
    store.decryptGuarded participant algorithm payload =
      pure (store.decrypt participant algorithm payload) := by
  unfold decryptGuarded decrypt
  by_cases hempty : payload.isEmpty = true
  · rw [if_pos hempty, if_pos hempty]
  rw [if_neg hempty, if_neg hempty, Marker.stripGuarded?_eq hmarker, pure_bind]
  cases Marker.strip? store.options.marker payload with
  | some clear => rfl
  | none =>
      simp only
      rw [SealedFrame.parseGuarded_eq hpayload, pure_bind]
      cases hparse : SealedFrame.parse payload with
      | error cause => rfl
      | ok frame =>
          -- What was read lays out as the payload again, so a bound on the payload is one
          -- on its parts.
          have hheld : frame.toBytes.Held := (SealedFrame.wellFormed_of_parse hparse).2 ▸ hpayload
          simp only
          by_cases hother : frame.trailer.algorithm ≠ algorithm
          · rw [if_pos hother, if_pos hother]
          rw [if_neg hother, if_neg hother, keySlotGuarded_eq, pure_bind]
          cases store.keySlot frame.trailer.keyIndex.toNat with
          | error error => rfl
          | ok slot =>
              simp only
              cases store.ring? participant with
              | none => rfl
              | some ring =>
                  simp only
                  rw [KeyRing.keyGuarded?_eq, pure_bind]
                  cases ring.key? frame.trailer.keyIndex.toNat with
                  | none => rfl
                  | some base =>
                      simp only
                      by_cases hinvalid : ring.invalidated = true
                      · rw [if_pos hinvalid, if_pos hinvalid]
                      · rw [if_neg hinvalid, if_neg hinvalid,
                          KeyRing.openSealedGuarded_eq hheld, pure_bind]

end KeyStore

/-! ## Encrypting -/

theorem Algorithm.sealedLength_le (algorithm : Algorithm) (length : Nat) :
    algorithm.sealedLength length ≤ length + 32 := by
  cases algorithm with
  | aesGcm => exact Nat.add_le_add_left (by decide) length
  | aesCbc =>
      rw [sealedLength]
      omega

def KeyStore.sealingKeyGuarded (store : KeyStore) (participant : Participant) (index : Int) :
    Guarded (Except FrameError (UInt8 × KeyMaterial)) := do
  match ← store.keySlotGuarded index with
  | .error error => return .error error
  | .ok slot =>
    match store.ring? participant with
    | none => return .error (.missingKey index)
    | some ring =>
      match ← ring.keyGuarded? index with
      | none => return .error (.missingKey index)
      | some key => return .ok (slot, key)

theorem KeyStore.sealingKeyGuarded_eq (store : KeyStore) (participant : Participant) (index : Int) :
    store.sealingKeyGuarded participant index = pure (store.sealingKey participant index) := by
  unfold sealingKeyGuarded sealingKey
  rw [keySlotGuarded_eq, pure_bind]
  cases store.keySlot index with
  | error error => rfl
  | ok slot =>
      simp only
      cases store.ring? participant with
      | none => rfl
      | some ring =>
          simp only
          rw [KeyRing.keyGuarded?_eq, pure_bind]
          cases hkey : ring.key? index with
          | none =>
              simp only [Option.bind_some, hkey]
              rfl
          | some key =>
              simp only [Option.bind_some, hkey]
              rfl

namespace Frame

/-- What `SealedFrame.ofFrame` and `SealedFrame.toBytes` do, in one go. -/
def sealGuarded (frame : Frame) (algorithm : Algorithm) (slot : UInt8) (key : KeyMaterial)
    (iv : Bytes) : Guarded (Except FrameError Bytes) := do
  let (header, body) ← cut frame.payload frame.headerLength
  let trailer : Trailer := ⟨← byte frame.headerLength, algorithm, ← byte iv.length, slot⟩
  let aad ← join header trailer.toBytes
  match ← algorithm.encryptGuarded key.frameKey iv aad body with
  | .error cause => return .error (.encryptionFailed cause)
  | .ok ciphertext =>
    return .ok (← join (← join (← join header ciphertext) iv) trailer.toBytes)

def encryptGuarded (frame : Frame) (store : KeyStore) (participant : Participant)
    (algorithm : Algorithm) (index : Int) (iv : Bytes) : Guarded (Except FrameError Bytes) :=
  if frame.payload.isEmpty then pure (.ok frame.payload)
  else do
    if (← Marker.stripGuarded? store.options.marker frame.payload).isSome then
      return .ok frame.payload
    else
      match ← store.sealingKeyGuarded participant index with
      | .error error => return .error error
      | .ok (slot, key) => frame.sealGuarded algorithm slot key iv

variable {frame : Frame} {algorithm : Algorithm} {iv : Bytes}

theorem sealGuarded_eq (hpayload : frame.payload.Held) (hiv : iv.length = algorithm.ivLength)
    (slot : UInt8) (key : KeyMaterial) :
    frame.sealGuarded algorithm slot key iv =
      pure ((SealedFrame.ofFrame frame algorithm slot key iv).map SealedFrame.toBytes) := by
  have hsize := USize.le_size
  have hbyte : UInt8.size = 256 := rfl
  have hten := frame.headerLength_le_ten
  have hwithin : frame.headerLength ≤ frame.payload.length := by
    unfold headerLength
    omega
  have hsixteen : iv.length ≤ 16 := by
    rw [hiv]
    cases algorithm <;> decide
  rw [Bytes.Held] at hpayload
  unfold sealGuarded SealedFrame.ofFrame
  simp only
  rw [cut_eq hwithin, pure_bind, byte_eq (by omega), pure_bind, byte_eq (by omega), pure_bind,
    join_eq (by rw [List.length_take, Trailer.length_toBytes, Trailer.size]; omega), pure_bind,
    Algorithm.encryptGuarded_eq, pure_bind]
  cases hsealed : algorithm.encrypt key.frameKey iv _ (frame.payload.drop frame.headerLength) with
  | error cause => rfl
  | ok ciphertext =>
      -- Padding and tag, the vector and the trailer are all that is added.
      have hlength : ciphertext.length ≤ frame.payload.length - frame.headerLength + 32 := by
        rw [Algorithm.length_of_encrypt hsealed, List.length_drop]
        exact algorithm.sealedLength_le _
      have hheader : (frame.payload.take frame.headerLength).length = frame.headerLength := by
        rw [List.length_take, Nat.min_eq_left hwithin]
      simp only
      rw [join_eq (by omega), pure_bind,
        join_eq (by rw [List.length_append]; omega), pure_bind,
        join_eq (by
          rw [List.length_append, List.length_append, Trailer.length_toBytes, Trailer.size]
          omega), pure_bind]
      rfl

theorem encryptGuarded_eq {store : KeyStore} (hmarker : store.options.marker.Held)
    (hpayload : frame.payload.Held) (hiv : iv.length = algorithm.ivLength)
    (participant : Participant) (index : Int) :
    frame.encryptGuarded store participant algorithm index iv =
      pure (frame.encryptWith store participant algorithm index iv) := by
  unfold encryptGuarded encryptWith KeyOptions.leavesClear
  by_cases hempty : frame.payload.isEmpty = true
  · rw [if_pos hempty, hempty, Bool.true_or, if_pos rfl]
  rw [if_neg hempty, Bool.eq_false_iff.mpr hempty, Bool.false_or, Marker.exempts,
    Marker.stripGuarded?_eq hmarker, pure_bind]
  by_cases hmarked : (Marker.strip? store.options.marker frame.payload).isSome = true
  · rw [if_pos hmarked, if_pos hmarked]
  rw [if_neg hmarked, if_neg hmarked, KeyStore.sealingKeyGuarded_eq, pure_bind]
  cases store.sealingKey participant index with
  | error error => rfl
  | ok found =>
      obtain ⟨slot, key⟩ := found
      simp only
      rw [sealGuarded_eq hpayload hiv]
      rfl

theorem encrypt_eq_encryptWith_draw (frame : Frame) (store : KeyStore) (participant : Participant)
    (algorithm : Algorithm) (index : Int) (entropy : Entropy) :
    (frame.encrypt store participant algorithm index entropy).1 =
      frame.encryptWith store participant algorithm index (entropy.draw algorithm.ivLength).1 := by
  cases hclear : store.options.leavesClear frame.payload with
  | true => rw [encrypt_of_clear hclear, encryptWith_of_clear hclear]
  | false =>
      cases hkey : store.sealingKey participant index with
      | error error =>
          rw [encrypt_of_error hclear hkey, encryptWith, if_neg (Bool.eq_false_iff.mp hclear), hkey]
          rfl
      | ok found =>
          refine encrypt_eq_encryptWith ?_ entropy
          rw [reachesCipher, hclear, hkey]
          rfl

end Frame

/-! ## Both ways -/

namespace FrameError

/-- The failures that encrypting a frame at an index is said to have. -/
inductive OfEncryption (index : Int) (ringSize : Nat) : FrameError → Prop
  | invalidKeyIndex : OfEncryption index ringSize (.invalidKeyIndex index ringSize)
  | missingKey : OfEncryption index ringSize (.missingKey index)
  | encryptionFailed (cause : CipherError) : OfEncryption index ringSize (.encryptionFailed cause)

/-- The failures that decrypting with a cipher is said to have; an index in them is one
that fits into a byte. -/
inductive OfDecryption (algorithm : Algorithm) (ringSize : Nat) : FrameError → Prop
  | malformed (cause : MalformedFrame) : OfDecryption algorithm ringSize (.malformed cause)
  | algorithmMismatch (received : Algorithm) :
      OfDecryption algorithm ringSize (.algorithmMismatch algorithm received)
  | invalidKeyIndex (index : UInt8) :
      OfDecryption algorithm ringSize (.invalidKeyIndex index.toNat ringSize)
  | missingKey (index : UInt8) : OfDecryption algorithm ringSize (.missingKey index.toNat)
  | keyInvalidated (index : UInt8) : OfDecryption algorithm ringSize (.keyInvalidated index)
  | decryptionFailed (index : UInt8) (attempts : UInt32) :
      OfDecryption algorithm ringSize (.decryptionFailed index attempts)

end FrameError

theorem Frame.ofEncryption_of_encryptWith {frame : Frame} {store : KeyStore}
    {participant : Participant} {algorithm : Algorithm} {index : Int} {iv : Bytes}
    {error : FrameError}
    (h : frame.encryptWith store participant algorithm index iv = .error error) :
    error.OfEncryption index store.options.ringSize := by
  rcases encryptWith_eq_error h with hslot | rfl | ⟨cause, rfl⟩
  · obtain ⟨rfl, -⟩ := KeyStore.keySlot_eq_error_iff.mp hslot
    exact .invalidKeyIndex
  · exact .missingKey
  · exact .encryptionFailed cause

theorem KeyStore.ofDecryption_of_decrypt {store : KeyStore} {participant : Participant}
    {algorithm : Algorithm} {payload : Bytes} {error : FrameError}
    (h : (store.decrypt participant algorithm payload).1 = .error error) :
    error.OfDecryption algorithm store.options.ringSize := by
  have hdecrypts := store.decrypts participant algorithm payload
  generalize store.decrypt participant algorithm payload = outcome at hdecrypts h
  cases hdecrypts with
  | leftClear hclear => cases h
  | opened reaches within advanced opens least => cases h
  | failed reaches closed =>
      obtain rfl := Except.error.inj h
      exact .decryptionFailed _ _
  | turnedAway haway =>
      obtain rfl := Except.error.inj h
      cases haway with
      | malformed hparse => exact .malformed _
      | algorithmMismatch hparse hother => exact .algorithmMismatch _
      | invalidKeyIndex hparse hindex => exact .invalidKeyIndex _
      | missingKey hparse hkey => exact .missingKey _
      | keyInvalidated hparse hring hinvalid => exact .keyInvalidated _

/-- Looking for the marker, taking a frame apart, cutting off the tag, decrypting and
encrypting meet no fault: done step by step on a machine, each of them gives what it
gives here. That is so for every payload and every marker that can be in memory, for
every key and vector, and for whatever a store holds. Every failure is one of those that
encrypting and decrypting are said to have. -/
theorem frames_meet_no_fault {store : KeyStore} (hmarker : store.options.marker.Held)
    {frame : Frame} (hpayload : frame.payload.Held) (participant : Participant)
    (algorithm : Algorithm) :
    Marker.stripGuarded? store.options.marker frame.payload =
        pure (Marker.strip? store.options.marker frame.payload) ∧
      SealedFrame.parseGuarded frame.payload = pure (SealedFrame.parse frame.payload) ∧
      (∀ (cipher : Algorithm) (key : FrameKey) (iv aad : Bytes),
        cipher.decryptGuarded key iv aad frame.payload =
          pure (cipher.decrypt key iv aad frame.payload)) ∧
      (store.decryptGuarded participant algorithm frame.payload =
          pure (store.decrypt participant algorithm frame.payload) ∧
        ∀ error, (store.decrypt participant algorithm frame.payload).1 = .error error →
          error.OfDecryption algorithm store.options.ringSize) ∧
      ∀ index,
        (∀ iv : Bytes, iv.length = algorithm.ivLength →
          frame.encryptGuarded store participant algorithm index iv =
              pure (frame.encryptWith store participant algorithm index iv) ∧
            ∀ error, frame.encryptWith store participant algorithm index iv = .error error →
              error.OfEncryption index store.options.ringSize) ∧
        ∀ entropy : Entropy,
          frame.encryptGuarded store participant algorithm index
              (entropy.draw algorithm.ivLength).1 =
            pure (frame.encrypt store participant algorithm index entropy).1 := by
  refine ⟨Marker.stripGuarded?_eq hmarker _, SealedFrame.parseGuarded_eq hpayload,
    fun cipher key iv aad => cipher.decryptGuarded_eq key iv aad _,
    ⟨KeyStore.decryptGuarded_eq hmarker hpayload,
      fun error herror => KeyStore.ofDecryption_of_decrypt herror⟩,
    fun index => ⟨fun iv hiv => ⟨?_, fun error herror => ?_⟩, fun entropy => ?_⟩⟩
  · exact Frame.encryptGuarded_eq hmarker hpayload hiv participant index
  · exact Frame.ofEncryption_of_encryptWith herror
  · rw [Frame.encrypt_eq_encryptWith_draw]
    exact Frame.encryptGuarded_eq hmarker hpayload (entropy.length_draw _) participant index

/-- A payload of four bytes which announces more than it has. -/
theorem frames_meet_no_fault_of_four_bytes :
    lastSlotStore.decryptGuarded ⟨"a"⟩ .aesGcm [7, 1, 12, 0] =
        .ok (.error (.malformed (.truncated 4 7 12)), lastSlotStore) ∧
      (Frame.mk .audio false [7, 1, 12, 0]).encryptGuarded lastSlotStore ⟨"a"⟩ .aesGcm 256
        (Bytes.zeros 12) = .ok (.error (.invalidKeyIndex 256 2)) := by
  have hmarker : lastSlotStore.options.marker.Held := Bytes.held_of_length_lt (by decide)
  have hpayload : (Frame.mk .audio false [7, 1, 12, 0]).payload.Held :=
    Bytes.held_of_length_lt (by decide)
  obtain ⟨-, -, -, ⟨hdecrypt, -⟩, hencrypt⟩ :=
    frames_meet_no_fault hmarker hpayload ⟨"a"⟩ .aesGcm
  obtain ⟨hwith, -⟩ := (hencrypt 256).1 (Bytes.zeros 12) rfl
  exact ⟨hdecrypt, hwith⟩

end MediaSeal
