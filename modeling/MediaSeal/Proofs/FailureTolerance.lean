import Mathlib.Data.List.DropRight
import MediaSeal.Proofs.RingHistory

/-!
# When failures put a ring out of use

A ring counts failures and has a flag that says it is out of use. The flag is
not read off the counter: a success sets the counter back and leaves the flag,
the counter stops at the end of its range, and only a new key takes the flag
down. So the state of a ring at one time does not say how it came about, and the
law of the flag is a law of its whole past.

The past that counts begins with the last key that was set. In it, the ring is
out of use exactly if at some time there were more failures in a row than it
tolerates, where calls that are neither failures nor successes do not interrupt
a row. Since the counter stops at the end of its range, a ring that tolerates
that many failures is never put out of use.

Counter and flag are followed together through one call after the other: the
counter is the length of the row that the calls end in, as far as it goes, and
the flag is up exactly if some row was too long.
-/

namespace MediaSeal

/-! ## The calls that matter -/

namespace RingCall

/-- Whether a call sets a key in a ring of this size; it is refused at an index
outside the ring. -/
def installs (size : Nat) : RingCall → Bool
  | setKey index _ => decide (0 ≤ index ∧ index < size)
  | _ => false

def isSuccess : RingCall → Bool
  | recordSuccess => true
  | _ => false

def isFailure : RingCall → Bool
  | recordFailure => true
  | _ => false

theorem installs_setKey_iff {ring : KeyRing} {index : Int} {raw : Bytes} :
    (setKey index raw).installs ring.size = true ↔
      ∃ changed, ring.setKey index raw = .ok changed := by
  rw [installs, decide_eq_true_iff]
  constructor
  · intro h
    obtain ⟨slot, rfl⟩ := Int.eq_ofNat_of_zero_le h.1
    exact ⟨_, KeyRing.setKey_eq_ok_iff.mpr ⟨slot, rfl, by omega, rfl⟩⟩
  · rintro ⟨changed, h⟩
    obtain ⟨slot, rfl, hslot, -⟩ := KeyRing.setKey_eq_ok_iff.mp h
    omega

end RingCall

/-- The calls after the last one that set a key, or all of them. -/
def sinceNewKey (size : Nat) (calls : List RingCall) : List RingCall :=
  calls.rtakeWhile fun call => !call.installs size

/-- There is a stretch of calls with more failures than are tolerated and no
success among them. -/
def TooManyInARow (tolerance : UInt32) (calls : List RingCall) : Prop :=
  ∃ stretch, stretch <:+: calls ∧ (∀ call ∈ stretch, call.isSuccess = false) ∧
    tolerance.toNat < stretch.countP (·.isFailure)

/-- How many failures there were since the last success. -/
def failuresInARow (calls : List RingCall) : Nat :=
  (calls.rtakeWhile fun call => !call.isSuccess).countP (·.isFailure)

theorem sinceNewKey_concat (size : Nat) (calls : List RingCall) (call : RingCall) :
    sinceNewKey size (calls ++ [call]) =
      if call.installs size = true then [] else sinceNewKey size calls ++ [call] := by
  rw [sinceNewKey, List.rtakeWhile_concat]
  cases call.installs size <;> rfl

theorem failuresInARow_concat (calls : List RingCall) (call : RingCall) :
    failuresInARow (calls ++ [call]) =
      if call.isSuccess = true then 0
      else failuresInARow calls + if call.isFailure = true then 1 else 0 := by
  rw [failuresInARow, List.rtakeWhile_concat]
  cases call.isSuccess with
  | true => rfl
  | false =>
      simp only [Bool.not_false, if_true, List.countP_append, List.countP_singleton,
        Bool.false_eq_true, if_false]
      rfl

/-- No stretch at the end without a success has more failures than the row that
the calls end in. -/
theorem countP_le_failuresInARow {stretch calls : List RingCall} (h : stretch <:+ calls)
    (hnone : ∀ call ∈ stretch, call.isSuccess = false) :
    stretch.countP (·.isFailure) ≤ failuresInARow calls := by
  induction stretch using List.reverseRecOn generalizing calls with
  | nil => exact Nat.zero_le _
  | append_singleton front call ih =>
      obtain ⟨before, rfl⟩ := h
      have hcall : call.isSuccess = false := hnone call (List.mem_append_right _ List.mem_cons_self)
      have hfront := ih (List.suffix_append before front)
        fun other hother => hnone other (List.mem_append_left _ hother)
      rw [← List.append_assoc, failuresInARow_concat, hcall, List.countP_append,
        List.countP_singleton]
      simpa using hfront

theorem tooManyInARow_of_lt {tolerance : UInt32} {calls : List RingCall}
    (h : tolerance.toNat < failuresInARow calls) : TooManyInARow tolerance calls := by
  refine ⟨_, (List.rtakeWhile_suffix _ _).isInfix, fun call hcall => ?_, h⟩
  simpa only [Bool.not_eq_true'] using List.mem_rtakeWhile_imp hcall

/-- A row is too long after one more call if one was too long before, or if the
call makes it so. -/
theorem tooManyInARow_concat {tolerance : UInt32} {calls : List RingCall} {call : RingCall} :
    TooManyInARow tolerance (calls ++ [call]) ↔
      TooManyInARow tolerance calls ∨
        tolerance.toNat < failuresInARow (calls ++ [call]) := by
  constructor
  · rintro ⟨stretch, hpart, hnone, hmany⟩
    rcases List.infix_concat_iff.mp hpart with hend | hearlier
    · exact .inr (Nat.lt_of_lt_of_le hmany (countP_le_failuresInARow hend hnone))
    · exact .inl ⟨stretch, hearlier, hnone, hmany⟩
  · rintro (⟨stretch, hpart, hnone, hmany⟩ | hmany)
    · exact ⟨stretch, List.infix_concat_iff.mpr (.inr hpart), hnone, hmany⟩
    · exact tooManyInARow_of_lt hmany

theorem not_tooManyInARow_nil (tolerance : UInt32) : ¬ TooManyInARow tolerance [] := by
  rintro ⟨stretch, hpart, -, hmany⟩
  rw [List.eq_nil_of_infix_nil hpart] at hmany
  exact absurd hmany (Nat.not_lt_zero _)

/-! ## One call -/

namespace KeyRing

theorem toNat_countUp (count : UInt32) :
    (countUp count).toNat = min (count.toNat + 1) 0xffffffff := by
  have hlt := count.toNat_lt
  unfold countUp
  split
  · next hlast =>
      rw [hlast]
      rfl
  · next hlast =>
      have hne : count.toNat ≠ 0xffffffff := fun e => hlast (UInt32.toNat_inj.mp e)
      rw [UInt32.toNat_add]
      show (count.toNat + 1) % 4294967296 = _
      omega

theorem recordFailure_of_some {ring : KeyRing} {tolerance : UInt32}
    (h : ring.tolerance = some tolerance) :
    ring.recordFailure.2.failures.toNat = min (ring.failures.toNat + 1) 0xffffffff ∧
      (ring.recordFailure.2.invalidated = true ↔
        ring.invalidated = true ∨
          tolerance.toNat < min (ring.failures.toNat + 1) 0xffffffff) := by
  rw [← toNat_countUp, ← UInt32.lt_iff_toNat_lt]
  simp only [recordFailure, h]
  cases hvalid : ring.invalidated with
  | true => simp
  | false =>
      by_cases hmany : tolerance < countUp ring.failures
      · simp [hmany]
      · simp [hmany]

/-- A failure is told that it puts the ring out of use if it does so. -/
theorem toNat_recordFailure (ring : KeyRing) :
    ring.recordFailure.1.toNat + ring.invalidated.toNat =
      ring.recordFailure.2.invalidated.toNat := by
  unfold recordFailure
  cases ring.tolerance with
  | none => exact Nat.zero_add _
  | some tolerance =>
      cases hvalid : ring.invalidated with
      | true => simp
      | false =>
          by_cases hmany : tolerance < countUp ring.failures
          · simp [hmany]
          · simp [hmany]

theorem recordFailure_reports_iff {ring : KeyRing} :
    ring.recordFailure.1 = true ↔
      ring.invalidated = false ∧ ring.recordFailure.2.invalidated = true := by
  have htold := toNat_recordFailure ring
  revert htold
  cases ring.recordFailure.1 <;> cases ring.invalidated <;>
    cases ring.recordFailure.2.invalidated <;> decide

end KeyRing

/-- What a call that is no failure and no success does to counter and flag: it
takes both down if it sets a key, and leaves both alone if not. -/
theorem RingCall.apply_cases (ring : KeyRing) (call : RingCall) :
    call = .recordSuccess ∨ call = .recordFailure ∨
      (call.isSuccess = false ∧ call.isFailure = false ∧
        if call.installs ring.size = true then
          (call.apply ring).failures = 0 ∧ (call.apply ring).invalidated = false
        else (call.apply ring).failures = ring.failures ∧
          (call.apply ring).invalidated = ring.invalidated) := by
  cases call with
  | setKey index raw =>
      refine .inr (.inr ⟨rfl, rfl, ?_⟩)
      split
      · next hin =>
          obtain ⟨changed, hset⟩ := installs_setKey_iff.mp hin
          obtain ⟨slot, -, -, rfl⟩ := KeyRing.setKey_eq_ok_iff.mp hset
          simp only [apply, hset, and_self]
      · next hout =>
          cases hset : ring.setKey index raw with
          | ok changed => exact absurd (installs_setKey_iff.mpr ⟨changed, hset⟩) hout
          | error error => simp only [apply, hset, and_self]
  | ratchetKey index =>
      refine .inr (.inr ⟨rfl, rfl, ?_⟩)
      cases hratchet : ring.ratchetKey index with
      | error error => simp [installs, apply, hratchet]
      | ok changed =>
          obtain ⟨slot, key, next, -, -, -, -, -, hring⟩ :=
            KeyRing.ratchetKey_eq_ok_iff.mp hratchet
          simp [installs, apply, hratchet, hring]
  | copyKey index => exact .inr (.inr ⟨rfl, rfl, rfl, rfl⟩)
  | commit index base advanced =>
      refine .inr (.inr ⟨rfl, rfl, ?_⟩)
      simp only [installs, apply, KeyRing.commit, Bool.false_eq_true, if_false]
      split
      · exact ⟨rfl, rfl⟩
      · split <;> exact ⟨rfl, rfl⟩
  | recordSuccess => exact .inl rfl
  | recordFailure => exact .inr (.inl rfl)

/-! ## All calls -/

/-- Counter and flag of a ring are what the calls so far make of them. -/
structure KeyRing.Accounts (size : Nat) (tolerance : Option UInt32) (calls : List RingCall)
    (ring : KeyRing) : Prop where
  size_eq : ring.size = size
  tolerance_eq : ring.tolerance = tolerance
  failures_eq : tolerance ≠ none →
    ring.failures.toNat = min (failuresInARow (sinceNewKey size calls)) 0xffffffff
  invalidated_iff : ring.invalidated = true ↔ ∃ bound, tolerance = some bound ∧
    bound < 0xffffffff ∧ TooManyInARow bound (sinceNewKey size calls)

namespace KeyRing

variable {size : Nat} {tolerance : Option UInt32} {calls : List RingCall} {ring : KeyRing}

theorem accounts_empty (size : Nat) (salt : Bytes) (tolerance : Option UInt32) :
    (empty size salt tolerance).Accounts size tolerance [] where
  size_eq := size_empty size salt tolerance
  tolerance_eq := rfl
  failures_eq := fun _ => rfl
  invalidated_iff := by
    simp only [empty, Bool.false_eq_true, false_iff]
    rintro ⟨bound, -, -, hmany⟩
    exact not_tooManyInARow_nil bound hmany

/-- A new key begins a new account. -/
theorem Accounts.of_installs (h : ring.Accounts size tolerance calls) {call : RingCall}
    (hinstalls : call.installs size = true) (hfailures : (call.apply ring).failures = 0)
    (hvalid : (call.apply ring).invalidated = false) :
    (call.apply ring).Accounts size tolerance (calls ++ [call]) where
  size_eq := (RingCall.setup_apply ring call).1.trans h.size_eq
  tolerance_eq := (RingCall.setup_apply ring call).2.2.trans h.tolerance_eq
  failures_eq := by
    intro _
    rw [hfailures, sinceNewKey_concat, if_pos hinstalls]
    rfl
  invalidated_iff := by
    rw [hvalid, sinceNewKey_concat, if_pos hinstalls]
    simp only [Bool.false_eq_true, false_iff]
    rintro ⟨bound, -, -, hmany⟩
    exact not_tooManyInARow_nil bound hmany

/-- Other calls go on with the one there is: the counter is to follow the row of
failures, and the flag to go up when the row becomes too long. -/
theorem Accounts.of_not_installs (h : ring.Accounts size tolerance calls) {call : RingCall}
    (hinstalls : call.installs size = false)
    (hfailures : tolerance ≠ none → (call.apply ring).failures.toNat =
      min (failuresInARow (sinceNewKey size calls ++ [call])) 0xffffffff)
    (hvalid : (call.apply ring).invalidated = true ↔
      ring.invalidated = true ∨ ∃ bound, tolerance = some bound ∧ bound < 0xffffffff ∧
        bound.toNat < failuresInARow (sinceNewKey size calls ++ [call])) :
    (call.apply ring).Accounts size tolerance (calls ++ [call]) where
  size_eq := (RingCall.setup_apply ring call).1.trans h.size_eq
  tolerance_eq := (RingCall.setup_apply ring call).2.2.trans h.tolerance_eq
  failures_eq := by
    rw [sinceNewKey_concat, if_neg (Bool.eq_false_iff.mp hinstalls)]
    exact hfailures
  invalidated_iff := by
    rw [hvalid, h.invalidated_iff, sinceNewKey_concat,
      if_neg (Bool.eq_false_iff.mp hinstalls), ← exists_or]
    simp only [tooManyInARow_concat, and_or_left]

theorem Accounts.after (h : ring.Accounts size tolerance calls) (call : RingCall) :
    (call.apply ring).Accounts size tolerance (calls ++ [call]) := by
  rcases RingCall.apply_cases ring call with rfl | rfl | ⟨hsuccess, hfailure, heffect⟩
  · refine h.of_not_installs rfl (fun _ => ?_) ?_
    · rw [failuresInARow_concat]
      rfl
    · simp only [failuresInARow_concat, RingCall.isSuccess, if_true, Nat.not_lt_zero, and_false,
        exists_false, or_false]
      rfl
  · have hrow : failuresInARow (sinceNewKey size calls ++ [.recordFailure]) =
        failuresInARow (sinceNewKey size calls) + 1 := by
      rw [failuresInARow_concat]
      rfl
    cases tolerance with
    | none =>
        have hsame : RingCall.recordFailure.apply ring = ring := by
          simp only [RingCall.apply, recordFailure, h.tolerance_eq]
        refine h.of_not_installs rfl (fun hnone => absurd rfl hnone) ?_
        simp only [hsame, reduceCtorEq, false_and, exists_false, or_false]
    | some bound =>
        obtain ⟨hcounter, hflag⟩ := recordFailure_of_some h.tolerance_eq
        have hcount := h.failures_eq (Option.some_ne_none bound)
        refine h.of_not_installs rfl (fun _ => ?_) ?_
        · rw [hrow, RingCall.apply, hcounter, hcount]
          omega
        · have hreach : bound < 0xffffffff ↔ bound.toNat < 0xffffffff := UInt32.lt_iff_toNat_lt
          simp only [RingCall.apply, hflag, hcount, hrow, Option.some.injEq, exists_eq_left',
            hreach]
          refine or_congr_right ?_
          omega
  · have hrow : failuresInARow (sinceNewKey size calls ++ [call]) =
        failuresInARow (sinceNewKey size calls) := by
      rw [failuresInARow_concat, hsuccess, hfailure]
      rfl
    rw [h.size_eq] at heffect
    cases hinstalls : call.installs size with
    | true =>
        rw [if_pos hinstalls] at heffect
        exact h.of_installs hinstalls heffect.1 heffect.2
    | false =>
        rw [if_neg (Bool.eq_false_iff.mp hinstalls)] at heffect
        refine h.of_not_installs hinstalls (fun hsome => ?_) ?_
        · rw [hrow, heffect.1, h.failures_eq hsome]
        · -- A row that is too long now was too long already.
          rw [hrow, heffect.2, h.invalidated_iff, or_iff_left_of_imp]
          rintro ⟨bound, hbound, hreach, hmany⟩
          exact ⟨bound, hbound, hreach, tooManyInARow_of_lt hmany⟩

theorem afterCalls_concat (size : Nat) (salt : Bytes) (tolerance : Option UInt32)
    (calls : List RingCall) (call : RingCall) :
    afterCalls size salt tolerance (calls ++ [call]) =
      call.apply (afterCalls size salt tolerance calls) := by
  rw [afterCalls, RingUse.run_append]
  rfl

theorem accounts_afterCalls (size : Nat) (salt : Bytes) (tolerance : Option UInt32)
    (calls : List RingCall) :
    (afterCalls size salt tolerance calls).Accounts size tolerance calls := by
  induction calls using List.reverseRecOn with
  | nil => exact accounts_empty size salt tolerance
  | append_singleton calls call ih =>
      rw [afterCalls_concat]
      exact ih.after call

/-! ## What failures are told -/

/-- What each failure among the calls is told: whether it put the ring out of
use. -/
def reports (ring : KeyRing) : List RingCall → List Bool
  | [] => []
  | call :: rest =>
      if call.isFailure then ring.recordFailure.1 :: (call.apply ring).reports rest
      else (call.apply ring).reports rest

/-- Until a key is set, one failure is told so if the ring goes out of use, and
none if it does not or was so before. -/
theorem count_reports (use : RingUse) (calls : List RingCall)
    (h : ∀ call ∈ calls, call.installs use.ring.size = false) :
    (use.ring.reports calls).count true + use.ring.invalidated.toNat =
      (use.run calls).ring.invalidated.toNat := by
  induction calls generalizing use with
  | nil => exact Nat.zero_add _
  | cons call rest ih =>
      have hsize := (RingCall.setup_apply use.ring call).1
      have hrest : ((call.apply use.ring).reports rest).count true +
          (call.apply use.ring).invalidated.toNat =
            (use.run (call :: rest)).ring.invalidated.toNat :=
        ih (use.after call) fun other hother => hsize ▸ h other (List.mem_cons_of_mem call hother)
      rw [← hrest, reports]
      rcases RingCall.apply_cases use.ring call with rfl | rfl | ⟨-, hfailure, heffect⟩
      · rfl
      · have htold := toNat_recordFailure use.ring
        simp only [RingCall.isFailure, if_true, RingCall.apply, List.count_cons]
        cases hreport : use.ring.recordFailure.1 <;> simp [hreport] at htold ⊢ <;> omega
      · rw [if_neg (Bool.eq_false_iff.mp hfailure)]
        rw [if_neg (Bool.eq_false_iff.mp (h call List.mem_cons_self))] at heffect
        rw [heffect.2]

end KeyRing

theorem sinceNewKey_eq_nil_of_append {size : Nat} {earlier calls : List RingCall}
    (h : earlier ++ sinceNewKey size calls = calls) : sinceNewKey size earlier = [] := by
  obtain rfl : earlier = calls.rdropWhile fun call => !call.installs size :=
    List.append_cancel_right (h.trans List.rdropWhile_append_rtakeWhile.symm)
  exact List.rtakeWhile_eq_nil_iff.mpr fun hlast => List.rdropWhile_last_not _ _ hlast

/-- Whatever is called on a ring and in whatever order: the ring is out of use
exactly if, since the last key was set, there was a stretch with more failures
than it tolerates and no success. Of all failures in that time the one that
completes the first such stretch is told, and no other. A key at an index outside
the ring is refused, does not count as set and changes nothing; and a ring that
tolerates any number of failures, or as many as the counter can count, is always
in use. -/
theorem invalidated_iff_too_many_in_a_row (size : Nat) (salt : Bytes)
    (tolerance : Option UInt32) (calls : List RingCall) :
    let after := KeyRing.afterCalls size salt tolerance
    let TooMany (calls : List RingCall) : Prop := ∃ bound, tolerance = some bound ∧
      bound < 0xffffffff ∧ TooManyInARow bound (sinceNewKey size calls)
    ((after calls).invalidated = true ↔ TooMany calls) ∧
    (∀ earlier later, calls = earlier ++ .recordFailure :: later →
      ((after earlier).recordFailure.1 = true ↔
        ¬ TooMany earlier ∧ TooMany (earlier ++ [.recordFailure]))) ∧
    (∀ earlier, earlier ++ sinceNewKey size calls = calls →
      ((after earlier).reports (sinceNewKey size calls)).count true =
        (after calls).invalidated.toNat) ∧
    (∀ index raw, (RingCall.setKey index raw).installs size = true ↔
      ∃ changed, (after calls).setKey index raw = .ok changed) ∧
    (∀ index raw error, (after calls).setKey index raw = .error error →
      error = .invalidIndex index size ∧
        (RingCall.setKey index raw).apply (after calls) = after calls) ∧
    (tolerance = none ∨ tolerance = some 0xffffffff → (after calls).invalidated = false) := by
  intro after TooMany
  have haccounts := KeyRing.accounts_afterCalls size salt tolerance
  have hlaw : ∀ calls, (after calls).invalidated = true ↔ TooMany calls :=
    fun calls => (haccounts calls).invalidated_iff
  have hsize : ∀ calls, (after calls).size = size := fun calls => (haccounts calls).size_eq
  refine ⟨hlaw calls, ?_, ?_, ?_, ?_, ?_⟩
  · intro earlier later _
    rw [KeyRing.recordFailure_reports_iff, ← hlaw, ← hlaw, Bool.not_eq_true,
      show after (earlier ++ [.recordFailure]) = _ from KeyRing.afterCalls_concat ..]
    rfl
  · intro earlier hsplit
    have hfresh : (after earlier).invalidated = false := by
      rw [← Bool.not_eq_true, hlaw]
      rintro ⟨bound, -, -, hmany⟩
      rw [sinceNewKey_eq_nil_of_append hsplit] at hmany
      exact not_tooManyInARow_nil bound hmany
    have hcount := KeyRing.count_reports ((RingUse.start (.empty size salt tolerance)).run earlier)
      (sinceNewKey size calls) fun call hcall => by
        rw [show (RingUse.run _ earlier).ring.size = size from hsize earlier]
        simpa only [Bool.not_eq_true'] using List.mem_rtakeWhile_imp hcall
    rw [← RingUse.run_append, hsplit,
      show (RingUse.run _ earlier).ring.invalidated = false from hfresh] at hcount
    exact hcount
  · intro index raw
    rw [← RingCall.installs_setKey_iff, hsize]
  · intro index raw error herror
    obtain ⟨rfl, -⟩ := KeyRing.setKey_eq_error_iff.mp herror
    rw [hsize]
    exact ⟨rfl, by simp only [RingCall.apply, herror]⟩
  · intro hnever
    rw [← Bool.not_eq_true, hlaw]
    rintro ⟨bound, rfl, hreach, -⟩
    rcases hnever with hnone | hlast
    · cases hnone
    · injection hlast with hlast
      rw [hlast] at hreach
      exact absurd hreach (by decide)

/-- Two failures with a refused key between them are too many for a ring that
tolerates one. -/
theorem invalidated_iff_too_many_across_refusedKey :
    (KeyRing.afterCalls 2 [] (some 1)
      [.recordFailure, .setKey 2 [7], .recordFailure, .recordSuccess]).invalidated = true := by
  have hstretch : TooManyInARow 1
      [.recordFailure, .setKey 2 [7], .recordFailure, .recordSuccess] := by
    refine ⟨[.recordFailure, .setKey 2 [7], .recordFailure], ⟨[], [.recordSuccess], rfl⟩, ?_,
      by decide⟩
    intro call hcall
    simp only [List.mem_cons, List.not_mem_nil, or_false] at hcall
    rcases hcall with rfl | rfl | rfl <;> rfl
  exact (invalidated_iff_too_many_in_a_row 2 [] (some 1) _).1.mpr
    ⟨1, rfl, by decide, hstretch⟩

end MediaSeal
