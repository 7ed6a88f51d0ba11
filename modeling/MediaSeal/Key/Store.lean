import MediaSeal.Key.Participant
import MediaSeal.Key.Ring

/-!
# Key stores

The rings of all participants, set up alike. A participant gets a ring with
the first key that is set for it and loses it when removed; in shared mode
there is one ring, always there, that every participant uses. The operations
on the shared ring work in either mode.

Every operation returns the new store, or an error and no store: an operation
that fails has changed nothing.
-/

namespace MediaSeal

/-- How the rings of a store are set up and used. -/
structure KeyOptions where
  /-- Whether all participants use one ring. -/
  shared : Bool
  /-- Goes into every frame key and every ratchet step. -/
  salt : Bytes
  /-- How many generations ahead a receiver searches. -/
  window : UInt32
  /-- Exempts a frame from encryption. -/
  marker : Bytes
  ringSize : Nat
  tolerance : Option UInt32
deriving DecidableEq

namespace KeyOptions

/-- What is used where nothing else is asked for. -/
def default : KeyOptions :=
  { shared := false
    salt := Bytes.ofText "LKFrameEncryptionKey"
    window := 16
    marker := Bytes.ofText "LK-ROCKS"
    ringSize := 16
    tolerance := none }

/-- The most slots that a ring can have, as an index travels in one byte. -/
def maxRingSize : Nat := 256

/-- What is wrong with the options, if anything is. -/
def fault? (options : KeyOptions) : Option OptionsFault :=
  if options.ringSize = 0 then some .noSlots
  else if maxRingSize < options.ringSize then some .tooManySlots
  else none

/-- A ring as these options ask for. -/
def emptyRing (options : KeyOptions) : KeyRing :=
  .empty options.ringSize options.salt options.tolerance

theorem fault?_eq_none_iff {options : KeyOptions} :
    options.fault? = none ↔ 0 < options.ringSize ∧ options.ringSize ≤ maxRingSize := by
  unfold fault?
  split
  · simp only [reduceCtorEq, false_iff]
    omega
  · split
    · simp only [reduceCtorEq, false_iff]
      omega
    · simp only [true_iff]
      omega

end KeyOptions

/-! ## Rings by participant -/

/-- One ring each for some participants, in the order in which they got them. -/
abbrev Members := List (Participant × KeyRing)

namespace Members

/-- The ring of a participant. -/
def find? (members : Members) (participant : Participant) : Option KeyRing :=
  match members with
  | [] => none
  | (other, ring) :: rest => if other = participant then some ring else find? rest participant

/-- The participant's ring replaced, or added if there was none. -/
def put (members : Members) (participant : Participant) (ring : KeyRing) : Members :=
  match members with
  | [] => [(participant, ring)]
  | (other, old) :: rest =>
    if other = participant then (other, ring) :: rest
    else (other, old) :: put rest participant ring

/-- The participant's ring taken out. -/
def erase (members : Members) (participant : Participant) : Members :=
  match members with
  | [] => []
  | (other, ring) :: rest =>
    if other = participant then erase rest participant
    else (other, ring) :: erase rest participant

theorem find?_put (members : Members) (participant other : Participant) (ring : KeyRing) :
    (members.put participant ring).find? other =
      if participant = other then some ring else members.find? other := by
  induction members with
  | nil => simp [put, find?]
  | cons entry rest ih =>
    obtain ⟨owner, old⟩ := entry
    by_cases h : owner = participant
    · subst h
      by_cases h' : owner = other <;> simp [put, find?, h']
    · by_cases h' : owner = other
      · subst h'
        have : participant ≠ owner := fun e => h e.symm
        simp [put, find?, h, this]
      · simp [put, find?, h, h', ih]

theorem put_of_find? {members : Members} {participant : Participant} {ring : KeyRing}
    (h : members.find? participant = some ring) : members.put participant ring = members := by
  induction members with
  | nil => cases h
  | cons entry rest ih =>
    obtain ⟨owner, old⟩ := entry
    by_cases howner : owner = participant
    · simp only [find?, if_pos howner, Option.some.injEq] at h
      simp only [put, if_pos howner, h]
    · simp only [find?, if_neg howner] at h
      simp only [put, if_neg howner, ih h]

theorem put_put (members : Members) (participant : Participant) (first second : KeyRing) :
    (members.put participant first).put participant second = members.put participant second := by
  induction members with
  | nil => simp only [put, if_true]
  | cons entry rest ih =>
    obtain ⟨owner, old⟩ := entry
    by_cases howner : owner = participant
    · simp only [put, if_pos howner]
    · simp only [put, if_neg howner, ih]

theorem find?_erase (members : Members) (participant other : Participant) :
    (members.erase participant).find? other =
      if participant = other then none else members.find? other := by
  induction members with
  | nil => simp [erase, find?]
  | cons entry rest ih =>
    obtain ⟨owner, old⟩ := entry
    by_cases h : owner = participant
    · subst h
      by_cases h' : owner = other <;> simp_all [erase, find?]
    · by_cases h' : owner = other
      · subst h'
        have : participant ≠ owner := fun e => h e.symm
        simp [erase, find?, h, this]
      · simp [erase, find?, h, h', ih]

end Members

/-! ## The store -/

/-- Options, the shared ring, and the rings of participants. -/
structure KeyStore where
  options : KeyOptions
  sharedRing : KeyRing
  members : Members
deriving DecidableEq

namespace KeyStore

/-- A store without keys. -/
def new (options : KeyOptions) : Except KeyError KeyStore :=
  match options.fault? with
  | some fault => .error (.invalidOptions fault)
  | none => .ok ⟨options, options.emptyRing, []⟩

/-- The ring that a participant uses, if it has one. -/
def ring? (store : KeyStore) (participant : Participant) : Option KeyRing :=
  if store.options.shared then some store.sharedRing else store.members.find? participant

/-- The store with the ring that a participant uses replaced. -/
def withRing (store : KeyStore) (participant : Participant) (ring : KeyRing) : KeyStore :=
  if store.options.shared then { store with sharedRing := ring }
  else { store with members := store.members.put participant ring }

/-- Whether an index names a slot. -/
def checkIndex (store : KeyStore) (index : Int) : Except KeyError Unit :=
  if 0 ≤ index ∧ index.toNat < store.options.ringSize then .ok ()
  else .error (.invalidIndex index store.options.ringSize)

/-- Set a participant's key; it gets a ring if it had none. -/
def setKey (store : KeyStore) (participant : Participant) (index : Int) (raw : Bytes) :
    Except KeyError KeyStore := do
  store.checkIndex index
  let ring := (store.ring? participant).getD store.options.emptyRing
  return store.withRing participant (← ring.setKey index raw)

/-- Advance a participant's key; with the store comes the new raw material. -/
def ratchetKey (store : KeyStore) (participant : Participant) (index : Int) :
    Except KeyError (Bytes × KeyStore) := do
  store.checkIndex index
  match store.ring? participant with
  | none => .error (.missingKey index)
  | some ring =>
    let (raw, ring) ← ring.ratchetKey index
    return (raw, store.withRing participant ring)

/-- A participant's raw key material. -/
def getKey? (store : KeyStore) (participant : Participant) (index : Int) : Option Bytes := do
  let ring ← store.ring? participant
  let key ← ring.key? index
  return key.raw

/-- Set a key of the shared ring. -/
def setSharedKey (store : KeyStore) (index : Int) (raw : Bytes) : Except KeyError KeyStore := do
  store.checkIndex index
  return { store with sharedRing := ← store.sharedRing.setKey index raw }

/-- Advance a key of the shared ring. -/
def ratchetSharedKey (store : KeyStore) (index : Int) : Except KeyError (Bytes × KeyStore) := do
  store.checkIndex index
  let (raw, ring) ← store.sharedRing.ratchetKey index
  return (raw, { store with sharedRing := ring })

/-- Raw key material of the shared ring. -/
def getSharedKey? (store : KeyStore) (index : Int) : Option Bytes :=
  (store.sharedRing.key? index).map (·.raw)

/-- Whether a participant has a ring of its own, and the store without it. -/
def remove (store : KeyStore) (participant : Participant) : Bool × KeyStore :=
  ((store.members.find? participant).isSome,
    { store with members := store.members.erase participant })

/-- A store in shared mode with its first key set. -/
def newShared (options : KeyOptions) (raw : Bytes) : Except KeyError KeyStore := do
  (← new { options with shared := true }).setSharedKey 0 raw

/-! ## Which ring an operation changes -/

@[simp] theorem options_withRing (store : KeyStore) (participant : Participant)
    (ring : KeyRing) : (store.withRing participant ring).options = store.options := by
  unfold withRing
  split <;> rfl

/-- The ring is replaced for the participant, and for everybody in shared
mode. -/
theorem ring?_withRing (store : KeyStore) (participant other : Participant) (ring : KeyRing) :
    (store.withRing participant ring).ring? other =
      if store.options.shared = true ∨ participant = other then some ring
      else store.ring? other := by
  unfold withRing ring?
  by_cases hshared : store.options.shared = true
  · simp [hshared]
  · simp [hshared, Members.find?_put]

theorem ring?_withRing_self (store : KeyStore) (participant : Participant) (ring : KeyRing) :
    (store.withRing participant ring).ring? participant = some ring := by
  rw [ring?_withRing, if_pos (Or.inr rfl)]

end KeyStore

end MediaSeal
