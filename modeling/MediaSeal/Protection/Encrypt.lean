import MediaSeal.Frame.Basic
import MediaSeal.Frame.Marker
import MediaSeal.Key.Store
import MediaSeal.Protection.Error
import MediaSeal.Random.Entropy

/-!
# Encrypting a frame

What happens to a payload is settled before any cipher runs and before any
random byte is drawn: it is left alone, it is refused, or it is sealed under
a certain key. Only sealing draws an initialisation vector. Encryption reads
the key store and never changes it.
-/

namespace MediaSeal

namespace KeyOptions

/-- Whether a payload travels as it is: an empty one does, and one that the
marker exempts. -/
def leavesClear (options : KeyOptions) (payload : Bytes) : Bool :=
  payload.isEmpty || Marker.exempts options.marker payload

theorem leavesClear_eq_false_iff {options : KeyOptions} {payload : Bytes} :
    options.leavesClear payload = false ↔
      payload ≠ [] ∧ Marker.exempts options.marker payload = false := by
  rw [leavesClear, Bool.or_eq_false_iff, List.isEmpty_eq_false_iff]

theorem leavesClear_of_strip? {options : KeyOptions} {payload clear : Bytes}
    (h : payload = [] ∧ clear = [] ∨ Marker.strip? options.marker payload = some clear) :
    options.leavesClear payload = true := by
  rw [← Bool.not_eq_false, leavesClear_eq_false_iff, Marker.exempts_eq_false_iff]
  rintro ⟨hpayload, hunmarked⟩
  rcases h with ⟨hempty, -⟩ | hclear
  · exact hpayload hempty
  · rw [hunmarked] at hclear
    cases hclear

end KeyOptions

namespace KeyStore

/-- The byte by which a frame names a key index. -/
def keySlot (store : KeyStore) (index : Int) : Except FrameError UInt8 :=
  if 0 ≤ index ∧ index < 256 ∧ index.toNat < store.options.ringSize then
    .ok (UInt8.ofNat index.toNat)
  else .error (.invalidKeyIndex index store.options.ringSize)

/-- The key to seal a participant's frames with, and the byte that names it. -/
def sealingKey (store : KeyStore) (participant : Participant) (index : Int) :
    Except FrameError (UInt8 × KeyMaterial) := do
  let slot ← store.keySlot index
  match (store.ring? participant).bind (·.key? index) with
  | none => .error (.missingKey index)
  | some key => return (slot, key)

theorem keySlot_eq_ok_iff {store : KeyStore} {index : Int} {slot : UInt8} :
    store.keySlot index = .ok slot ↔
      index = slot.toNat ∧ slot.toNat < store.options.ringSize := by
  unfold keySlot
  split
  · next h =>
      have hindex := Int.toNat_of_nonneg h.1
      have hvalue : (UInt8.ofNat index.toNat).toNat = index.toNat := by
        rw [UInt8.toNat_ofNat']
        omega
      constructor
      · intro hslot
        injection hslot with hslot
        rw [← hslot, hvalue]
        exact ⟨hindex.symm, h.2.2⟩
      · rintro ⟨rfl, hlt⟩
        rw [Int.toNat_natCast, UInt8.ofNat_toNat]
  · next h =>
      have hlt := slot.toNat_lt
      simp only [reduceCtorEq, false_iff]
      omega

theorem keySlot_eq_error_iff {store : KeyStore} {index : Int} {error : FrameError} :
    store.keySlot index = .error error ↔
      error = .invalidKeyIndex index store.options.ringSize ∧
        ¬ (0 ≤ index ∧ index < 256 ∧ index < store.options.ringSize) := by
  unfold keySlot
  split
  · next h =>
      simp only [reduceCtorEq, false_iff]
      omega
  · next h =>
      simp only [Except.error.injEq]
      constructor
      · rintro rfl
        exact ⟨rfl, by omega⟩
      · exact fun herror => herror.1.symm

/-- In a ring of at most 256 slots, each slot has a byte that names it. -/
theorem exists_keySlot_eq_ok {store : KeyStore} {index : Int}
    (hoptions : store.options.fault? = none)
    (hindex : 0 ≤ index ∧ index < store.options.ringSize) :
    ∃ slot, store.keySlot index = .ok slot := by
  obtain ⟨-, hsize⟩ := KeyOptions.fault?_eq_none_iff.mp hoptions
  rw [KeyOptions.maxRingSize] at hsize
  exact ⟨_, if_pos ⟨hindex.1, by omega, by omega⟩⟩

theorem sealingKey_eq_ok_iff {store : KeyStore} {participant : Participant} {index : Int}
    {slot : UInt8} {key : KeyMaterial} :
    store.sealingKey participant index = .ok (slot, key) ↔
      store.keySlot index = .ok slot ∧
        ∃ ring, store.ring? participant = some ring ∧ ring.key? index = some key := by
  unfold sealingKey
  cases store.keySlot index with
  | error error => simp [bind, Except.bind]
  | ok found =>
      rw [← Option.bind_eq_some_iff]
      cases (store.ring? participant).bind (·.key? index) <;>
        simp [bind, Except.bind, pure, Except.pure]

theorem sealingKey_eq_error {store : KeyStore} {participant : Participant} {index : Int}
    {error : FrameError} (h : store.sealingKey participant index = .error error) :
    store.keySlot index = .error error ∨ error = .missingKey index := by
  unfold sealingKey at h
  cases hslot : store.keySlot index with
  | error cause =>
      rw [hslot] at h
      exact .inl (congrArg Except.error (Except.error.inj h))
  | ok slot =>
      simp only [hslot, bind, Except.bind] at h
      split at h
      · exact .inr (Except.error.inj h).symm
      · cases h

end KeyStore

/-- The sealed form of a frame under a key and an initialisation vector. -/
def SealedFrame.ofFrame (frame : Frame) (algorithm : Algorithm) (slot : UInt8) (key : KeyMaterial)
    (iv : Bytes) : Except FrameError SealedFrame :=
  let headerLength := frame.headerLength
  let header := frame.payload.take headerLength
  let trailer : Trailer :=
    ⟨UInt8.ofNat headerLength, algorithm, UInt8.ofNat iv.length, slot⟩
  match algorithm.encrypt key.frameKey iv (header ++ trailer.toBytes)
      (frame.payload.drop headerLength) with
  | .ok ciphertext => .ok { header, ciphertext, iv, trailer }
  | .error cause => .error (.encryptionFailed cause)

namespace Frame

/-- The payload of an encrypted frame, given the vector in case it is sealed. -/
def encryptWith (frame : Frame) (store : KeyStore) (participant : Participant)
    (algorithm : Algorithm) (index : Int) (iv : Bytes) : Except FrameError Bytes :=
  if store.options.leavesClear frame.payload then .ok frame.payload
  else do
    let (slot, key) ← store.sealingKey participant index
    return (← SealedFrame.ofFrame frame algorithm slot key iv).toBytes

/-- Whether encrypting a frame gets as far as the cipher. -/
def reachesCipher (frame : Frame) (store : KeyStore) (participant : Participant) (index : Int) :
    Bool :=
  !store.options.leavesClear frame.payload && (store.sealingKey participant index).isOk

/-- The payload of an encrypted frame, and what is left of the source that its
vector was drawn from. -/
def encrypt (frame : Frame) (store : KeyStore) (participant : Participant)
    (algorithm : Algorithm) (index : Int) (entropy : Entropy) : Except FrameError Bytes × Entropy :=
  if frame.reachesCipher store participant index then
    let (iv, entropy) := entropy.draw algorithm.ivLength
    (frame.encryptWith store participant algorithm index iv, entropy)
  else (frame.encryptWith store participant algorithm index [], entropy)

/-! ## Which case a payload falls into -/

variable {frame : Frame} {store : KeyStore} {participant : Participant} {algorithm : Algorithm}
  {index : Int}

theorem encryptWith_of_clear (h : store.options.leavesClear frame.payload = true) (iv : Bytes) :
    frame.encryptWith store participant algorithm index iv = .ok frame.payload := by
  rw [encryptWith, if_pos h]

theorem encryptWith_of_sealingKey {slot : UInt8} {key : KeyMaterial}
    (h : store.options.leavesClear frame.payload = false)
    (hkey : store.sealingKey participant index = .ok (slot, key)) (iv : Bytes) :
    frame.encryptWith store participant algorithm index iv =
      (SealedFrame.ofFrame frame algorithm slot key iv).map SealedFrame.toBytes := by
  rw [encryptWith, if_neg (Bool.eq_false_iff.mp h), hkey]
  rfl

/-- A payload that is not left alone comes out as a sealed frame or not at
all. -/
theorem encryptWith_eq_ok_iff {iv wire : Bytes}
    (h : store.options.leavesClear frame.payload = false) :
    frame.encryptWith store participant algorithm index iv = .ok wire ↔
      ∃ slot key, store.sealingKey participant index = .ok (slot, key) ∧
        ∃ sealed, SealedFrame.ofFrame frame algorithm slot key iv = .ok sealed ∧
          sealed.toBytes = wire := by
  cases hkey : store.sealingKey participant index with
  | error error =>
      rw [encryptWith, if_neg (Bool.eq_false_iff.mp h), hkey]
      simp [bind, Except.bind]
  | ok found =>
      obtain ⟨slot, key⟩ := found
      rw [encryptWith_of_sealingKey h hkey]
      simp only [Except.ok.injEq, Prod.mk.injEq]
      constructor
      · intro hwire
        cases hsealed : SealedFrame.ofFrame frame algorithm slot key iv with
        | error error =>
            rw [hsealed] at hwire
            cases hwire
        | ok sealed =>
            rw [hsealed] at hwire
            injection hwire with hwire
            exact ⟨slot, key, ⟨rfl, rfl⟩, sealed, hsealed, hwire⟩
      · rintro ⟨_, _, ⟨rfl, rfl⟩, sealed, hsealed, rfl⟩
        rw [hsealed]
        rfl

theorem encryptWith_eq_error {iv : Bytes} {error : FrameError}
    (h : frame.encryptWith store participant algorithm index iv = .error error) :
    store.keySlot index = .error error ∨ error = .missingKey index ∨
      ∃ cause, error = .encryptionFailed cause := by
  cases hclear : store.options.leavesClear frame.payload with
  | true =>
      rw [encryptWith_of_clear hclear] at h
      cases h
  | false =>
      cases hkey : store.sealingKey participant index with
      | error cause =>
          rw [encryptWith, if_neg (Bool.eq_false_iff.mp hclear), hkey] at h
          obtain rfl := Except.error.inj h
          rcases KeyStore.sealingKey_eq_error hkey with hslot | hmissing
          · exact .inl hslot
          · exact .inr (.inl hmissing)
      | ok found =>
          obtain ⟨slot, key⟩ := found
          rw [encryptWith_of_sealingKey hclear hkey, SealedFrame.ofFrame] at h
          split at h
          · cases h
          · exact .inr (.inr ⟨_, (Except.error.inj h).symm⟩)

/-- Where sealing goes through, a frame is encrypted with a vector of the
length that its cipher asks for. -/
theorem encrypt_eq_encryptWith (h : frame.reachesCipher store participant index = true)
    (entropy : Entropy) :
    (frame.encrypt store participant algorithm index entropy).1 =
      frame.encryptWith store participant algorithm index
        (entropy.draw algorithm.ivLength).1 := by
  rw [encrypt, if_pos h]

/-- Encrypting is encrypting with some vector, which is drawn if it is needed. -/
theorem exists_encrypt_eq_encryptWith (frame : Frame) (store : KeyStore)
    (participant : Participant) (algorithm : Algorithm) (index : Int) (entropy : Entropy) :
    ∃ iv, (frame.encrypt store participant algorithm index entropy).1 =
      frame.encryptWith store participant algorithm index iv := by
  unfold encrypt
  split
  · exact ⟨_, rfl⟩
  · exact ⟨_, rfl⟩

end Frame

end MediaSeal
