import Mathlib.Data.List.Destutter
import MediaSeal.Endpoint
import MediaSeal.Proofs.ForwardSearch

/-!
# The history of an endpoint

Every frame that an endpoint works on adds to a history of outcomes, most of
them `ok` after `ok`. What an application is told are the changes: the history
without the entries that are like the one before. The endpoint does not keep
the history, it keeps the last entry, and that is all it takes to find the
changes that the next frame brings.

A frame adds one outcome or two. Two it adds if the key had to catch up, and
then the second is success; so a ratchet is never the last entry. Which
outcomes there can be depends on the direction. A sender neither ratchets nor
decrypts, and a receiver does not encrypt, so the outcomes that are named after
these are not among theirs.
-/

namespace MediaSeal

/-! ## Changes -/

namespace Outcome

variable {Tag : Type}

theorem latest_eq_getLast? (last : Option Outcome) (history : List Outcome) :
    latest last history = history.getLast?.or last := by
  induction history generalizing last with
  | nil => rfl
  | cons outcome rest ih =>
      rw [latest, ih, List.getLast?_cons]
      cases rest.getLast? <;> rfl

/-- The entries of a history that differ from the one before, each with what it
belongs to. -/
def changes : (last : Option Outcome) → (entries : List (Tag × Outcome)) → List (Tag × Outcome)
  | _, [] => []
  | last, entry :: rest =>
    if last = some entry.2 then changes last rest else entry :: changes (some entry.2) rest

theorem changes_map (last : Option Outcome) (tag : Tag) (history : List Outcome) :
    changes last (history.map (Prod.mk tag)) = (transitions last history).map (Prod.mk tag) := by
  induction history generalizing last with
  | nil => rfl
  | cons outcome rest ih =>
      rw [List.map_cons, changes, transitions]
      split
      · exact ih last
      · rw [ih, List.map_cons]

theorem changes_append (last : Option Outcome) (first second : List (Tag × Outcome)) :
    changes last (first ++ second) =
      changes last first ++ changes (latest last (first.map Prod.snd)) second := by
  induction first generalizing last with
  | nil => rfl
  | cons entry rest ih =>
      rw [List.cons_append, changes, changes, List.map_cons, latest]
      split
      · next hsame =>
          rw [ih, hsame]
      · rw [ih, List.cons_append]

theorem changes_eq_destutter (entries : List (Tag × Outcome)) :
    changes none entries =
      entries.destutter fun earlier later => earlier.2 ≠ later.2 := by
  -- Stuttering is judged by the entry before, which for `changes` is only its
  -- outcome; so the claim starts at an entry and not at `none`.
  have hfrom : ∀ (entry : Tag × Outcome) (rest : List (Tag × Outcome)),
      entry :: changes (some entry.2) rest =
        rest.destutter' (fun earlier later => earlier.2 ≠ later.2) entry := by
    intro entry rest
    induction rest generalizing entry with
    | nil => rfl
    | cons next rest ih =>
        by_cases hsame : entry.2 = next.2
        · rw [changes, if_pos (congrArg some hsame), ih,
            List.destutter'_cons_neg _ (not_not.mpr hsame)]
        · rw [changes, if_neg fun h => hsame (Option.some.inj h), ih,
            List.destutter'_cons_pos _ hsame]
  cases entries with
  | nil => rfl
  | cons entry rest =>
      rw [changes, if_neg (fun h => nomatch h), hfrom, List.destutter_cons']

/-- The last change is the last entry, unless nothing has changed. -/
theorem getLast?_transitions (last : Option Outcome) (history : List Outcome) :
    (transitions last history).getLast?.or last = latest last history := by
  induction history generalizing last with
  | nil => rfl
  | cons outcome rest ih =>
      rw [transitions, latest]
      split
      · next hsame =>
          subst hsame
          exact ih _
      · rw [← ih, List.getLast?_cons]
        cases (transitions (some outcome) rest).getLast? <;> rfl

theorem getLast?_append_transitions (heard history : List Outcome) :
    (heard ++ transitions heard.getLast? history).getLast? = latest heard.getLast? history := by
  rw [List.getLast?_append, getLast?_transitions]

theorem isChain_transitions (history : List Outcome) :
    (transitions none history).IsChain (· ≠ ·) := by
  have hchain : ((transitions none history).map (Prod.mk ())).IsChain
      fun earlier later => earlier.2 ≠ later.2 := by
    rw [← changes_map, changes_eq_destutter]
    exact List.isChain_destutter _ _
  exact (List.isChain_map (Prod.mk ())).mp hchain

end Outcome

/-! ## What a frame adds to the history -/

theorem FrameError.outcome_ne_keyRatcheted (error : FrameError) :
    error.outcome ≠ .keyRatcheted := by
  cases error <;> exact nofun

theorem KeyStore.outcome_of_decrypt_error {store : KeyStore} {participant : Participant}
    {algorithm : Algorithm} {payload : Bytes} {error : FrameError}
    (h : (store.decrypt participant algorithm payload).1 = .error error) :
    error.outcome ≠ .encryptionFailed := by
  have houtcome := store.decrypts participant algorithm payload
  generalize store.decrypt participant algorithm payload = result at h houtcome
  cases houtcome with
  | leftClear hclear => cases h
  | turnedAway haway =>
      obtain rfl := Except.error.inj h
      cases haway <;> exact nofun
  | opened reaches within advanced opens least => cases h
  | failed reaches closed =>
      obtain rfl := Except.error.inj h
      exact nofun

namespace Endpoint

variable {Name : Type} {endpoint : Endpoint Name} {store : KeyStore} {entropy : Entropy}
  {frame : Frame}

theorem history_of_sender (h : endpoint.direction = .sender) :
    ∀ outcome ∈ history (endpoint.process store entropy frame).1,
      outcome ≠ .keyRatcheted ∧ outcome ≠ .decryptionFailed := by
  intro outcome houtcome
  simp only [process, h] at houtcome
  obtain ⟨iv, hiv⟩ := frame.exists_encrypt_eq_encryptWith store endpoint.participant
    endpoint.algorithm endpoint.keyIndex entropy
  rw [hiv] at houtcome
  cases hresult : frame.encryptWith store endpoint.participant endpoint.algorithm
      endpoint.keyIndex iv with
  | ok wire =>
      rw [hresult] at houtcome
      obtain rfl := List.mem_singleton.mp houtcome
      exact ⟨nofun, nofun⟩
  | error error =>
      rw [hresult] at houtcome
      obtain rfl := List.mem_singleton.mp houtcome
      rcases Frame.encryptWith_eq_error hresult with hslot | rfl | ⟨cause, rfl⟩
      · rw [(KeyStore.keySlot_eq_error_iff.mp hslot).1]
        exact ⟨nofun, nofun⟩
      · exact ⟨nofun, nofun⟩
      · exact ⟨nofun, nofun⟩

theorem history_of_receiver (h : endpoint.direction = .receiver) :
    ∀ outcome ∈ history (endpoint.process store entropy frame).1,
      outcome ≠ .encryptionFailed := by
  intro outcome houtcome
  simp only [process, h] at houtcome
  cases hresult : (store.decrypt endpoint.participant endpoint.algorithm frame.payload).1 with
  | ok opened =>
      rw [hresult, history] at houtcome
      split at houtcome
      · simp only [List.mem_cons, List.not_mem_nil, or_false] at houtcome
        rcases houtcome with rfl | rfl
        · exact nofun
        · exact nofun
      · obtain rfl := List.mem_singleton.mp houtcome
        exact nofun
  | error error =>
      rw [hresult] at houtcome
      obtain rfl := List.mem_singleton.mp houtcome
      exact KeyStore.outcome_of_decrypt_error hresult

/-- The outcomes of a frame are one that is no ratchet, or a ratchet and then
success. -/
theorem history_cases (result : Except FrameError Opened) :
    history result = [.keyRatcheted, .ok] ∨
      ∃ outcome, outcome ≠ .keyRatcheted ∧ history result = [outcome] := by
  cases result with
  | ok opened =>
      rw [history]
      split
      · exact .inl rfl
      · exact .inr ⟨.ok, nofun, rfl⟩
  | error error => exact .inr ⟨_, error.outcome_ne_keyRatcheted, rfl⟩

/-- What a frame adds to the history: nothing, if the endpoint is switched
off. -/
def added (endpoint : Endpoint Name) (store : KeyStore) (entropy : Entropy) (frame : Frame) :
    List Outcome :=
  if endpoint.enabled then history (endpoint.process store entropy frame).1 else []

theorem endpoint_attempt (endpoint : Endpoint Name) (store : KeyStore) (entropy : Entropy)
    (frame : Frame) :
    (endpoint.attempt store entropy frame).endpoint =
      { endpoint with
        lastOutcome :=
          Outcome.latest endpoint.lastOutcome (endpoint.added store entropy frame) } := by
  unfold attempt added
  split <;> rfl

theorem transitions_attempt (endpoint : Endpoint Name) (store : KeyStore) (entropy : Entropy)
    (frame : Frame) :
    (endpoint.attempt store entropy frame).transitions =
      Outcome.transitions endpoint.lastOutcome (endpoint.added store entropy frame) := by
  unfold attempt added
  split <;> rfl

theorem added_cases (endpoint : Endpoint Name) (store : KeyStore) (entropy : Entropy)
    (frame : Frame) :
    endpoint.added store entropy frame = [] ∨
      endpoint.added store entropy frame = [.keyRatcheted, .ok] ∨
        ∃ outcome, outcome ≠ .keyRatcheted ∧ endpoint.added store entropy frame = [outcome] := by
  unfold added
  split
  · exact .inr (history_cases _)
  · exact .inl rfl

theorem latest_added_ne {last : Option Outcome} (h : last ≠ some .keyRatcheted) :
    Outcome.latest last (endpoint.added store entropy frame) ≠ some .keyRatcheted := by
  rcases endpoint.added_cases store entropy frame with
    hnone | hcatchUp | ⟨outcome, hother, hsingle⟩
  · rw [hnone]
    exact h
  · rw [hcatchUp]
    exact nofun
  · rw [hsingle]
    exact fun hsame => hother (Option.some.inj hsame)

end Endpoint

end MediaSeal
