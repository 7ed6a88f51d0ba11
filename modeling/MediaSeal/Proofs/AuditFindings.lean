import MediaSeal.Proofs.AuditVerdict

/-!
# What an audit finds

A check stops at the first thing amiss, so what it reports says two things: that
something is wrong at a place, and that nothing is wrong before it.
`Violation.FirstIn` puts both down for each kind of violation, by cutting the list
in question at the place: everything before the cut is as it should be. Frames are
judged one by one; outcomes and generations in neighbouring pairs, which
`FirstBreak` cuts out. For outcomes the sender's side comes first, and the
receiver's is only looked at if the sender's is in order.

A check reports a violation exactly if it is the first of its kind. So an audit
reports one violation for each of its checks that fails, in the order of the
checks, and neither leaves one out nor adds one.
-/

namespace MediaSeal

/-! ## The first of a list -/

theorem firstFound?_eq_some_iff {α β : Type} {test : Nat → α → Option β} {Passes : α → Prop}
    (h : ∀ number a, test number a = none ↔ Passes a) {start : Nat} {items : List α} {found : β} :
    firstFound? test start items = some found ↔
      ∃ before a after, items = before ++ a :: after ∧ (∀ earlier ∈ before, Passes earlier) ∧
        test (start + before.length) a = some found := by
  induction items generalizing start with
  | nil => simp [firstFound?]
  | cons a rest ih =>
      rw [firstFound?]
      cases htest : test start a with
      | some b =>
          show some b = some found ↔ _
          constructor
          · intro hfound
            exact ⟨[], a, rest, rfl, List.forall_mem_nil _, htest.trans hfound⟩
          · intro hcut
            obtain ⟨before, x, after, hitems, hpasses, hfound⟩ := hcut
            cases before with
            | nil =>
                obtain ⟨rfl, -⟩ := List.cons.inj hitems
                exact htest.symm.trans hfound
            | cons first before =>
                obtain ⟨rfl, -⟩ := List.cons.inj hitems
                have hpassed := (h start a).mpr (hpasses a List.mem_cons_self)
                rw [htest] at hpassed
                cases hpassed
      | none =>
          show firstFound? test (start + 1) rest = some found ↔ _
          rw [ih]
          constructor
          · intro hcut
            obtain ⟨before, x, after, hrest, hpasses, hfound⟩ := hcut
            refine ⟨a :: before, x, after, by rw [hrest, List.cons_append], ?_, ?_⟩
            · exact List.forall_mem_cons.mpr ⟨(h start a).mp htest, hpasses⟩
            · rwa [List.length_cons, Nat.add_comm before.length, ← Nat.add_assoc]
          · intro hcut
            obtain ⟨before, x, after, hitems, hpasses, hfound⟩ := hcut
            cases before with
            | nil =>
                obtain ⟨rfl, -⟩ := List.cons.inj hitems
                rw [List.length_nil, Nat.add_zero, htest] at hfound
                cases hfound
            | cons first before =>
                obtain ⟨rfl, hrest⟩ := List.cons.inj hitems
                refine ⟨before, x, after, hrest, (List.forall_mem_cons.mp hpasses).2, ?_⟩
                rwa [Nat.add_assoc, Nat.add_comm 1]

/-- Up to `first` neighbours are related, and `first` is not related to `second`,
which comes next. -/
structure FirstBreak {α : Type} (Related : α → α → Prop) (items before : List α)
    (first second : α) : Prop where
  cut : ∃ after, items = before ++ first :: second :: after
  related : (before ++ [first]).IsChain Related
  broken : ¬ Related first second

namespace FirstBreak

variable {α : Type} {Related : α → α → Prop} {items before : List α} {a b first second : α}

theorem exists_pair (h : FirstBreak Related items before first second) :
    ∃ x y rest, items = x :: y :: rest := by
  obtain ⟨after, hcut⟩ := h.cut
  cases before with
  | nil => exact ⟨_, _, _, hcut⟩
  | cons x before =>
      cases before with
      | nil => exact ⟨_, _, _, hcut⟩
      | cons y before => exact ⟨_, _, _, hcut⟩

theorem cons_cons_iff_of_broken (h : ¬ Related a b) :
    FirstBreak Related (a :: b :: items) before first second ↔
      before = [] ∧ first = a ∧ second = b := by
  constructor
  · intro hbreak
    obtain ⟨after, hcut⟩ := hbreak.cut
    have hrelated := hbreak.related
    cases before with
    | nil =>
        simp only [List.nil_append, List.cons.injEq] at hcut
        obtain ⟨rfl, rfl, -⟩ := hcut
        exact ⟨rfl, rfl, rfl⟩
    | cons x before =>
        -- Otherwise the pair would be among those that are related.
        cases before with
        | nil =>
            simp only [List.cons_append, List.nil_append, List.cons.injEq] at hcut
            obtain ⟨rfl, rfl, -⟩ := hcut
            exact absurd (List.isChain_cons_cons.mp hrelated).1 h
        | cons y before =>
            simp only [List.cons_append, List.cons.injEq] at hcut
            obtain ⟨rfl, rfl, -⟩ := hcut
            exact absurd (List.isChain_cons_cons.mp hrelated).1 h
  · intro hpair
    obtain ⟨rfl, rfl, rfl⟩ := hpair
    exact ⟨⟨items, rfl⟩, .singleton first, h⟩

theorem cons_cons_iff_of_related (h : Related a b) :
    FirstBreak Related (a :: b :: items) before first second ↔
      ∃ later, before = a :: later ∧ FirstBreak Related (b :: items) later first second := by
  constructor
  · intro hbreak
    obtain ⟨after, hcut⟩ := hbreak.cut
    have hrelated := hbreak.related
    cases before with
    | nil =>
        simp only [List.nil_append, List.cons.injEq] at hcut
        obtain ⟨rfl, rfl, -⟩ := hcut
        exact absurd h hbreak.broken
    | cons x before =>
        obtain ⟨hfirst, hlater⟩ := List.cons.inj hcut
        subst hfirst
        exact ⟨before, rfl, ⟨after, hlater⟩, hrelated.of_cons, hbreak.broken⟩
  · intro hlater
    obtain ⟨later, rfl, hbreak⟩ := hlater
    obtain ⟨after, hcut⟩ := hbreak.cut
    have hrelated := hbreak.related
    refine ⟨⟨after, by rw [hcut, List.cons_append]⟩, ?_, hbreak.broken⟩
    rw [List.cons_append]
    cases later with
    | nil =>
        obtain ⟨rfl, -⟩ := List.cons.inj hcut
        exact List.isChain_cons_cons.mpr ⟨h, hrelated⟩
    | cons x later =>
        obtain ⟨rfl, -⟩ := List.cons.inj hcut
        exact List.isChain_cons_cons.mpr ⟨h, hrelated⟩

end FirstBreak

theorem firstRepeat?_eq_some_iff {side : Direction} {event : Nat} {outcomes : List Outcome}
    {violation : Violation} :
    firstRepeat? side event outcomes = some violation ↔
      ∃ before first second, FirstBreak (· ≠ ·) outcomes before first second ∧
        violation = .repeated side second (event + before.length + 1) := by
  fun_induction firstRepeat? side event outcomes with
  | case1 event a rest =>
      have hbroken : ¬ (a ≠ a) := not_not.mpr rfl
      simp only [FirstBreak.cons_cons_iff_of_broken hbroken]
      constructor
      · intro h
        exact ⟨[], a, a, ⟨rfl, rfl, rfl⟩, (Option.some.inj h).symm⟩
      · intro h
        obtain ⟨before, first, second, ⟨rfl, rfl, rfl⟩, rfl⟩ := h
        rfl
  | case2 event a b rest hdiffers ih =>
      rw [ih]
      have hrelated : a ≠ b := hdiffers
      have hplace : ∀ before : List Outcome,
          event + 1 + before.length + 1 = event + (a :: before).length + 1 := by
        intro before
        rw [List.length_cons]
        omega
      simp only [FirstBreak.cons_cons_iff_of_related hrelated, hplace]
      constructor
      · intro h
        obtain ⟨before, first, second, hbreak, hviolation⟩ := h
        exact ⟨a :: before, first, second, ⟨before, rfl, hbreak⟩, hviolation⟩
      · intro h
        obtain ⟨_, first, second, ⟨before, rfl, hbreak⟩, hviolation⟩ := h
        exact ⟨before, first, second, hbreak, hviolation⟩
  | case3 event outcomes hshort =>
      refine iff_of_false nofun ?_
      intro h
      obtain ⟨before, first, second, hbreak, -⟩ := h
      obtain ⟨a, b, rest, hpair⟩ := hbreak.exists_pair
      exact hshort a b rest hpair

theorem firstDecrease?_eq_some_iff {generations : List UInt32} {violation : Violation} :
    firstDecrease? generations = some violation ↔
      ∃ before high low, FirstBreak (· ≤ ·) generations before high low ∧
        violation = .decreased high low := by
  fun_induction firstDecrease? generations with
  | case1 a b rest hbelow =>
      simp only [FirstBreak.cons_cons_iff_of_broken (UInt32.not_le.mpr hbelow)]
      constructor
      · intro h
        exact ⟨[], a, b, ⟨rfl, rfl, rfl⟩, (Option.some.inj h).symm⟩
      · intro h
        obtain ⟨before, high, low, ⟨rfl, rfl, rfl⟩, rfl⟩ := h
        rfl
  | case2 a b rest hnot ih =>
      rw [ih]
      simp only [FirstBreak.cons_cons_iff_of_related (UInt32.not_lt.mp hnot)]
      constructor
      · intro h
        obtain ⟨before, high, low, hbreak, rfl⟩ := h
        exact ⟨a :: before, high, low, ⟨before, rfl, hbreak⟩, rfl⟩
      · intro h
        obtain ⟨_, high, low, ⟨before, rfl, hbreak⟩, rfl⟩ := h
        exact ⟨before, high, low, hbreak, rfl⟩
  | case3 generations hshort =>
      refine iff_of_false nofun ?_
      intro h
      obtain ⟨before, high, low, hbreak, -⟩ := h
      obtain ⟨a, b, rest, hpair⟩ := hbreak.exists_pair
      exact hshort a b rest hpair

/-! ## What one frame says -/

namespace FrameRecord

variable {marker : Bytes} {frame : FrameRecord} {number : Nat} {violation : Violation}

theorem leak?_eq_some_iff :
    frame.leak? marker number = some violation ↔
      ∃ wire, frame.wire = some wire ∧ ¬ frame.Covered marker ∧
        violation = .plaintextLeak number frame.plaintext.length wire.length := by
  have hnone : frame.leak? marker number = none ↔ frame.Covered marker := leak?_eq_none_iff
  rw [← hnone]
  unfold leak?
  cases frame.wire with
  | none => simp
  | some wire =>
      simp only [Option.some.injEq, exists_eq_left']
      split
      · simp [eq_comm]
      · simp

theorem damage?_eq_some_iff :
    frame.damage? marker number = some violation ↔
      ∃ delivered, frame.delivered = some delivered ∧ ¬ frame.Intact marker ∧
        violation = .notIntact number delivered.length (frame.expected marker).length := by
  have hnone : frame.damage? marker number = none ↔ frame.Intact marker := damage?_eq_none_iff
  rw [← hnone]
  unfold damage?
  cases frame.delivered with
  | none => simp
  | some delivered =>
      simp only [Option.some.injEq, exists_eq_left']
      split
      · simp [eq_comm]
      · simp

end FrameRecord

/-! ## Violations -/

/-- The violation is in the snapshot, and none of its kind is before it. -/
inductive Violation.FirstIn (snapshot : Snapshot) : Violation → Prop
  | leak {before after : List FrameRecord} {frame : FrameRecord} {wire : Bytes}
      (cut : snapshot.frames = before ++ frame :: after)
      (covered : ∀ earlier ∈ before, earlier.Covered snapshot.marker)
      (sent : frame.wire = some wire) (bare : ¬ frame.Covered snapshot.marker) :
      FirstIn snapshot (.plaintextLeak before.length frame.plaintext.length wire.length)
  | damage {before after : List FrameRecord} {frame : FrameRecord} {delivered : Bytes}
      (cut : snapshot.frames = before ++ frame :: after)
      (intact : ∀ earlier ∈ before, earlier.Intact snapshot.marker)
      (received : frame.delivered = some delivered) (damaged : ¬ frame.Intact snapshot.marker) :
      FirstIn snapshot
        (.notIntact before.length delivered.length (frame.expected snapshot.marker).length)
  | repeatedBySender {before : List Outcome} {first second : Outcome}
      (repeats : FirstBreak (· ≠ ·) snapshot.senderOutcomes before first second) :
      FirstIn snapshot (.repeated .sender second (before.length + 1))
  | repeatedByReceiver {before : List Outcome} {first second : Outcome}
      (changes : snapshot.senderOutcomes.IsChain (· ≠ ·))
      (repeats : FirstBreak (· ≠ ·) snapshot.receiverOutcomes before first second) :
      FirstIn snapshot (.repeated .receiver second (before.length + 1))
  | decrease {before : List UInt32} {high low : UInt32}
      (descends : FirstBreak (· ≤ ·) snapshot.receiverGenerations before high low) :
      FirstIn snapshot (.decreased high low)

section Finds

variable {snapshot : Snapshot} {violation : Violation}

theorem Check.run_noPlaintextLeak_iff :
    Check.noPlaintextLeak.run snapshot = some violation ↔
      violation.check = .noPlaintextLeak ∧ violation.FirstIn snapshot := by
  have hjudged : ∀ number frame, FrameRecord.leak? snapshot.marker number frame = none ↔
      frame.Covered snapshot.marker := fun _ _ => FrameRecord.leak?_eq_none_iff
  rw [run, firstFound?_eq_some_iff hjudged]
  simp only [FrameRecord.leak?_eq_some_iff, Nat.zero_add]
  constructor
  · intro h
    obtain ⟨before, frame, after, hcut, hcovered, wire, hsent, hbare, rfl⟩ := h
    exact ⟨rfl, .leak hcut hcovered hsent hbare⟩
  · intro h
    obtain ⟨hcheck, hfirst⟩ := h
    cases hfirst with
    | leak cut covered sent bare => exact ⟨_, _, _, cut, covered, _, sent, bare, rfl⟩
    | damage | repeatedBySender | repeatedByReceiver | decrease => cases hcheck

theorem Check.run_deliveredIntact_iff :
    Check.deliveredIntact.run snapshot = some violation ↔
      violation.check = .deliveredIntact ∧ violation.FirstIn snapshot := by
  have hjudged : ∀ number frame, FrameRecord.damage? snapshot.marker number frame = none ↔
      frame.Intact snapshot.marker := fun _ _ => FrameRecord.damage?_eq_none_iff
  rw [run, firstFound?_eq_some_iff hjudged]
  simp only [FrameRecord.damage?_eq_some_iff, Nat.zero_add]
  constructor
  · intro h
    obtain ⟨before, frame, after, hcut, hintact, delivered, hreceived, hdamaged, rfl⟩ := h
    exact ⟨rfl, .damage hcut hintact hreceived hdamaged⟩
  · intro h
    obtain ⟨hcheck, hfirst⟩ := h
    cases hfirst with
    | damage cut intact received damaged =>
        exact ⟨_, _, _, cut, intact, _, received, damaged, rfl⟩
    | leak | repeatedBySender | repeatedByReceiver | decrease => cases hcheck

theorem FirstBreak.not_isChain {α : Type} {Related : α → α → Prop} {items before : List α}
    {first second : α} (h : FirstBreak Related items before first second) :
    ¬ items.IsChain Related := by
  intro hchain
  obtain ⟨after, rfl⟩ := h.cut
  exact h.broken (List.isChain_cons_cons.mp hchain.right_of_append).1

theorem Check.run_suppressedTransitions_iff :
    Check.suppressedTransitions.run snapshot = some violation ↔
      violation.check = .suppressedTransitions ∧ violation.FirstIn snapshot := by
  have hsender : firstRepeat? .sender 0 snapshot.senderOutcomes = none ↔ _ :=
    firstRepeat?_eq_none_iff
  rw [run]
  cases hfound : firstRepeat? .sender 0 snapshot.senderOutcomes with
  | some found =>
      have hrepeats : ¬ snapshot.senderOutcomes.IsChain (· ≠ ·) := by
        rw [← hsender, hfound]
        exact Option.some_ne_none found
      show some found = some violation ↔ _
      rw [← hfound, firstRepeat?_eq_some_iff]
      simp only [Nat.zero_add]
      constructor
      · intro h
        obtain ⟨before, first, second, hbreak, rfl⟩ := h
        exact ⟨rfl, .repeatedBySender hbreak⟩
      · intro h
        obtain ⟨hcheck, hfirst⟩ := h
        cases hfirst with
        | repeatedBySender repeats => exact ⟨_, _, _, repeats, rfl⟩
        | repeatedByReceiver changes repeats => exact absurd changes hrepeats
        | leak | damage | decrease => cases hcheck
  | none =>
      have hchanges := hsender.mp hfound
      show firstRepeat? .receiver 0 snapshot.receiverOutcomes = some violation ↔ _
      rw [firstRepeat?_eq_some_iff]
      simp only [Nat.zero_add]
      constructor
      · intro h
        obtain ⟨before, first, second, hbreak, rfl⟩ := h
        exact ⟨rfl, .repeatedByReceiver hchanges hbreak⟩
      · intro h
        obtain ⟨hcheck, hfirst⟩ := h
        cases hfirst with
        | repeatedBySender repeats => exact absurd hchanges repeats.not_isChain
        | repeatedByReceiver changes repeats => exact ⟨_, _, _, repeats, rfl⟩
        | leak | damage | decrease => cases hcheck

theorem Check.run_generationMonotonicity_iff :
    Check.generationMonotonicity.run snapshot = some violation ↔
      violation.check = .generationMonotonicity ∧ violation.FirstIn snapshot := by
  rw [run, firstDecrease?_eq_some_iff]
  constructor
  · intro h
    obtain ⟨before, high, low, hbreak, rfl⟩ := h
    exact ⟨rfl, .decrease hbreak⟩
  · intro h
    obtain ⟨hcheck, hfirst⟩ := h
    cases hfirst with
    | decrease descends => exact ⟨_, _, _, descends, rfl⟩
    | leak | damage | repeatedBySender | repeatedByReceiver => cases hcheck

/-- What a check finds is the first violation of its kind. -/
theorem Check.run_eq_some_iff {check : Check} :
    check.run snapshot = some violation ↔
      violation.check = check ∧ violation.FirstIn snapshot := by
  cases check with
  | noPlaintextLeak => exact run_noPlaintextLeak_iff
  | deliveredIntact => exact run_deliveredIntact_iff
  | suppressedTransitions => exact run_suppressedTransitions_iff
  | generationMonotonicity => exact run_generationMonotonicity_iff

end Finds

/-! ## Audits -/

instance (check : Check) (snapshot : Snapshot) : Decidable (check.Holds snapshot) :=
  decidable_of_iff (check.run snapshot = none) Check.run_eq_none_iff

namespace Audit

variable {audit : Audit} {check : Check} {snapshot : Snapshot} {violation : Violation}

theorem violations_cons_of_run_none (h : check.run snapshot = none) :
    violations (check :: audit) snapshot = audit.violations snapshot :=
  List.filterMap_cons_none h

theorem violations_cons_of_run_some (h : check.run snapshot = some violation) :
    violations (check :: audit) snapshot = violation :: audit.violations snapshot :=
  List.filterMap_cons_some h

theorem map_check_violations :
    (audit.violations snapshot).map (·.check) = audit.filter (¬ ·.Holds snapshot) := by
  induction audit with
  | nil => rfl
  | cons check rest ih =>
      cases hrun : check.run snapshot with
      | none =>
          have hholds : ¬ decide (¬ check.Holds snapshot) = true := by
            rw [decide_eq_true_eq, not_not]
            exact Check.run_eq_none_iff.mp hrun
          rw [violations_cons_of_run_none hrun, List.filter_cons, if_neg hholds, ih]
      | some violation =>
          have hfails : decide (¬ check.Holds snapshot) = true := by
            rw [decide_eq_true_eq, ← Check.run_eq_none_iff, hrun]
            exact Option.some_ne_none violation
          rw [violations_cons_of_run_some hrun, List.map_cons, List.filter_cons, if_pos hfails, ih,
            (Check.run_eq_some_iff.mp hrun).1]

theorem mem_violations_iff :
    violation ∈ audit.violations snapshot ↔
      violation.check ∈ audit ∧ violation.FirstIn snapshot := by
  simp only [violations, List.mem_filterMap, Check.run_eq_some_iff]
  constructor
  · intro h
    obtain ⟨check, hmem, rfl, hfirst⟩ := h
    exact ⟨hmem, hfirst⟩
  · intro h
    exact ⟨violation.check, h.1, rfl, h.2⟩

theorem check_mem_standard : check ∈ standard := by
  cases check <;> decide

end Audit

theorem FrameRecord.covered_iff {marker : Bytes} {frame : FrameRecord} :
    frame.Covered marker ↔
      ∀ wire, frame.wire = some wire → frame.encrypted = true → frame.plaintext ≠ [] →
        Marker.strip? marker frame.plaintext = none →
        frame.plaintext.length < wire.length := by
  simp only [Covered, Marker.exempts_eq_false_iff]

/-- The standard audit finds nothing exactly if all four checks hold, which is said
here without them. Otherwise it finds one violation for each check that does not
hold, in the order of the checks, and each is the first of its kind. -/
theorem standard_audit_finds_the_first_of_each (snapshot : Snapshot) :
    let found := Audit.standard.violations snapshot
    (found = [] ↔
      (∀ frame ∈ snapshot.frames, ∀ wire, frame.wire = some wire → frame.encrypted = true →
        frame.plaintext ≠ [] → Marker.strip? snapshot.marker frame.plaintext = none →
        frame.plaintext.length < wire.length) ∧
      (∀ frame ∈ snapshot.frames, ∀ delivered, frame.delivered = some delivered →
        frame.encrypted = true →
        delivered = (Marker.strip? snapshot.marker frame.plaintext).getD frame.plaintext) ∧
      (snapshot.senderOutcomes.IsChain (· ≠ ·) ∧ snapshot.receiverOutcomes.IsChain (· ≠ ·)) ∧
      ∀ i j (hi : i < snapshot.receiverGenerations.length)
        (hj : j < snapshot.receiverGenerations.length), i < j →
        snapshot.receiverGenerations[i] ≤ snapshot.receiverGenerations[j]) ∧
    found.map (·.check) = Audit.standard.filter (¬ ·.Holds snapshot) ∧
    ∀ violation, violation ∈ found ↔ violation.FirstIn snapshot := by
  intro found
  refine ⟨?_, Audit.map_check_violations, ?_⟩
  · simp only [← FrameRecord.covered_iff, ← List.pairwise_iff_getElem]
    show Audit.standard.violations snapshot = [] ↔ _
    rw [Audit.violations_eq_nil_iff, Audit.standard]
    simp only [List.forall_mem_cons, List.not_mem_nil, false_implies, implies_true, and_true,
      Check.Holds, FrameRecord.Intact, FrameRecord.expected]
  · intro violation
    rw [Audit.mem_violations_iff]
    exact and_iff_right Audit.check_mem_standard

/-- Frame 1 left as it was and arrived damaged; the receiver's key went from 2 to 1. -/
def Snapshot.flawed : Snapshot where
  marker := []
  frames := [⟨[7], true, some [1, 2], some [7]⟩, ⟨[8, 8], true, some [8, 8], some [8]⟩]
  senderOutcomes := [.ok]
  receiverOutcomes := [.ok, .missingKey]
  receiverGenerations := [2, 1, 0]

example :
    Audit.standard.violations .flawed =
      [.plaintextLeak 1 2 2, .notIntact 1 1 2, .decreased 2 1] := by decide

end MediaSeal
