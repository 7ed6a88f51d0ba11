import Mathlib.Data.List.Chain
import MediaSeal.Call.Audit

/-!
# What it means that an audit finds nothing

A check looks for the first thing amiss and words it. Here is what there is to
find: `Snapshot.Lawful` says of a snapshot as a whole what each check asks of
its parts, without numbers, words or an order in which to look. A frame that
was to be encrypted left longer than it was, unless it was meant to travel as
it is. What was delivered is what was sent, less the marker. Neighbouring
outcomes differ, and neighbouring generations do not go down.

The standard audit finds nothing in exactly these snapshots.
-/

namespace MediaSeal

/-! ## Lawful snapshots -/

namespace FrameRecord

/-- The frame did not leave as it was, if it was to be encrypted. -/
def Covered (marker : Bytes) (frame : FrameRecord) : Prop :=
  ∀ wire, frame.wire = some wire → frame.encrypted = true → frame.plaintext ≠ [] →
    Marker.exempts marker frame.plaintext = false → frame.plaintext.length < wire.length

/-- What was delivered, if anything, is what should be. -/
def Intact (marker : Bytes) (frame : FrameRecord) : Prop :=
  ∀ delivered, frame.delivered = some delivered → frame.encrypted = true →
    delivered = frame.expected marker

end FrameRecord

/-- Nothing in the snapshot is amiss. -/
structure Snapshot.Lawful (snapshot : Snapshot) : Prop where
  covered : ∀ frame ∈ snapshot.frames, frame.Covered snapshot.marker
  intact : ∀ frame ∈ snapshot.frames, frame.Intact snapshot.marker
  senderChanges : snapshot.senderOutcomes.IsChain (· ≠ ·)
  receiverChanges : snapshot.receiverOutcomes.IsChain (· ≠ ·)
  forward : snapshot.receiverGenerations.IsChain (· ≤ ·)

/-! ## One check at a time -/

theorem firstFound?_eq_none_iff {α β : Type} {test : Nat → α → Option β} {Passes : α → Prop}
    (h : ∀ number a, test number a = none ↔ Passes a) {start : Nat} {items : List α} :
    firstFound? test start items = none ↔ ∀ a ∈ items, Passes a := by
  induction items generalizing start with
  | nil => simp only [firstFound?, List.not_mem_nil, false_implies, implies_true]
  | cons a rest ih =>
      rw [List.forall_mem_cons, ← h start a, firstFound?]
      cases test start a with
      | none => simp only [ih, true_and]
      | some found => simp only [reduceCtorEq, false_and]

namespace FrameRecord

variable {marker : Bytes} {frame : FrameRecord} {number : Nat}

theorem leak?_eq_none_iff : frame.leak? marker number = none ↔ frame.Covered marker := by
  unfold leak? Covered
  cases frame.wire with
  | none => simp only [reduceCtorEq, false_implies, implies_true]
  | some wire =>
      simp only [Option.some.injEq, forall_eq', ite_eq_right_iff, reduceCtorEq, imp_false,
        List.isEmpty_iff, Bool.not_eq_true]
      constructor
      · intro hclean hencrypted hplaintext hmarker
        exact Nat.lt_of_not_le fun hle => hclean ⟨hencrypted, hplaintext, hmarker, hle⟩
      · rintro hcovered ⟨hencrypted, hplaintext, hmarker, hle⟩
        exact Nat.not_lt.mpr hle (hcovered hencrypted hplaintext hmarker)

theorem damage?_eq_none_iff : frame.damage? marker number = none ↔ frame.Intact marker := by
  unfold damage? Intact
  cases frame.delivered with
  | none => simp only [reduceCtorEq, false_implies, implies_true]
  | some delivered =>
      simp only [Option.some.injEq, forall_eq', ite_eq_right_iff, reduceCtorEq, imp_false,
        not_and, ne_eq, Decidable.not_not]

end FrameRecord

theorem firstRepeat?_eq_none_iff {side : Direction} {event : Nat} {outcomes : List Outcome} :
    firstRepeat? side event outcomes = none ↔ outcomes.IsChain (· ≠ ·) := by
  induction outcomes generalizing event with
  | nil => exact iff_of_true rfl .nil
  | cons first rest ih =>
      cases rest with
      | nil => exact iff_of_true rfl (.singleton first)
      | cons second rest =>
          rw [firstRepeat?, List.isChain_cons_cons]
          split
          · next hsame => simp only [reduceCtorEq, hsame, ne_eq, not_true_eq_false, false_and]
          · next hdiffers =>
              rw [ih]
              exact (and_iff_right hdiffers).symm

theorem firstDecrease?_eq_none_iff {generations : List UInt32} :
    firstDecrease? generations = none ↔ generations.IsChain (· ≤ ·) := by
  induction generations with
  | nil => exact iff_of_true rfl .nil
  | cons first rest ih =>
      cases rest with
      | nil => exact iff_of_true rfl (.singleton first)
      | cons second rest =>
          rw [firstDecrease?, List.isChain_cons_cons]
          split
          · next hbelow => simp only [reduceCtorEq, UInt32.not_le.mpr hbelow, false_and]
          · next hbelow =>
              rw [ih]
              exact (and_iff_right (UInt32.not_lt.mp hbelow)).symm

/-- What a check asks of a snapshot as a whole. -/
def Check.Holds (check : Check) (snapshot : Snapshot) : Prop :=
  match check with
  | noPlaintextLeak => ∀ frame ∈ snapshot.frames, frame.Covered snapshot.marker
  | deliveredIntact => ∀ frame ∈ snapshot.frames, frame.Intact snapshot.marker
  | suppressedTransitions =>
    snapshot.senderOutcomes.IsChain (· ≠ ·) ∧ snapshot.receiverOutcomes.IsChain (· ≠ ·)
  | generationMonotonicity => snapshot.receiverGenerations.Pairwise (· ≤ ·)

/-- A check that compares neighbours, or looks at one frame after the other, finds
nothing exactly if there is nothing to be found anywhere. -/
theorem Check.run_eq_none_iff {check : Check} {snapshot : Snapshot} :
    check.run snapshot = none ↔ check.Holds snapshot := by
  cases check with
  | noPlaintextLeak =>
      rw [run, Holds]
      refine firstFound?_eq_none_iff ?_
      exact fun _ _ => FrameRecord.leak?_eq_none_iff
  | deliveredIntact =>
      rw [run, Holds]
      refine firstFound?_eq_none_iff ?_
      exact fun _ _ => FrameRecord.damage?_eq_none_iff
  | suppressedTransitions =>
      have hsender : firstRepeat? .sender 0 snapshot.senderOutcomes = none ↔ _ :=
        firstRepeat?_eq_none_iff
      have hreceiver : firstRepeat? .receiver 0 snapshot.receiverOutcomes = none ↔ _ :=
        firstRepeat?_eq_none_iff
      rw [run, Holds, ← hsender, ← hreceiver]
      cases firstRepeat? .sender 0 snapshot.senderOutcomes with
      | none => simp only [true_and]
      | some violation => simp only [reduceCtorEq, false_and]
  | generationMonotonicity =>
      rw [run, Holds, firstDecrease?_eq_none_iff, List.isChain_iff_pairwise]

/-! ## The standard audit -/

theorem Audit.violations_eq_nil_iff {audit : Audit} {snapshot : Snapshot} :
    audit.violations snapshot = [] ↔ ∀ check ∈ audit, check.Holds snapshot := by
  rw [violations, List.filterMap_eq_nil_iff]
  simp only [Check.run_eq_none_iff]

theorem Audit.violations_standard_eq_nil_iff {snapshot : Snapshot} :
    standard.violations snapshot = [] ↔ snapshot.Lawful := by
  rw [violations_eq_nil_iff, standard]
  simp only [List.forall_mem_cons, List.not_mem_nil, false_implies, implies_true, and_true,
    Check.Holds, ← List.isChain_iff_pairwise]
  constructor
  · rintro ⟨hcovered, hintact, ⟨hsender, hreceiver⟩, hforward⟩
    exact ⟨hcovered, hintact, hsender, hreceiver, hforward⟩
  · rintro ⟨hcovered, hintact, hsender, hreceiver, hforward⟩
    exact ⟨hcovered, hintact, ⟨hsender, hreceiver⟩, hforward⟩

end MediaSeal
