/-!
# Outcomes

How the last frame fared, as an application sees it. An endpoint reports an
outcome only when it differs from the one before, so what is reported is the
history of outcomes without its repetitions.
-/

namespace MediaSeal

/-- How processing a frame ended. -/
inductive Outcome
  | ok
  | encryptionFailed
  | decryptionFailed
  | missingKey
  /-- A received frame made the key advance. -/
  | keyRatcheted
  /-- The frame or the key index made no sense. -/
  | internalError
deriving DecidableEq, Repr

namespace Outcome

/-- The outcome in words. -/
def text : Outcome → String
  | ok => "ok"
  | encryptionFailed => "encryption-failed"
  | decryptionFailed => "decryption-failed"
  | missingKey => "missing-key"
  | keyRatcheted => "key-ratcheted"
  | internalError => "internal-error"

/-- The outcome as log lines name it. -/
def label : Outcome → String
  | ok => "Ok"
  | encryptionFailed => "EncryptionFailed"
  | decryptionFailed => "DecryptionFailed"
  | missingKey => "MissingKey"
  | keyRatcheted => "KeyRatcheted"
  | internalError => "InternalError"

/-- Every outcome there is. -/
def all : List Outcome :=
  [ok, encryptionFailed, decryptionFailed, missingKey, keyRatcheted, internalError]

/-- Whether the frame was lost. -/
def isFailure : Outcome → Bool
  | ok | keyRatcheted => false
  | encryptionFailed | decryptionFailed | missingKey | internalError => true

/-! ## Transitions -/

/-- The outcomes of a history that differ from the one before them, where
`last` is the outcome before the history, if there was one. -/
def transitions : (last : Option Outcome) → (history : List Outcome) → List Outcome
  | _, [] => []
  | last, outcome :: rest =>
    if last = some outcome then transitions last rest
    else outcome :: transitions (some outcome) rest

/-- The outcome after a history. -/
def latest : (last : Option Outcome) → (history : List Outcome) → Option Outcome
  | last, [] => last
  | _, outcome :: rest => latest (some outcome) rest

theorem latest_append (last : Option Outcome) (first second : List Outcome) :
    latest last (first ++ second) = latest (latest last first) second := by
  induction first generalizing last with
  | nil => rfl
  | cons outcome rest ih => exact ih _

/-- Transitions of a history in two parts: those of the first, and those of
the second after the first. -/
theorem transitions_append (last : Option Outcome) (first second : List Outcome) :
    transitions last (first ++ second) =
      transitions last first ++ transitions (latest last first) second := by
  induction first generalizing last with
  | nil => rfl
  | cons outcome rest ih =>
    by_cases h : last = some outcome
    · simp [transitions, latest, h, ih]
    · simp [transitions, latest, h, ih]

end Outcome

end MediaSeal
