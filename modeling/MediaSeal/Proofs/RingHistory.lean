import MediaSeal.Key.Ring
import MediaSeal.Proofs.Generations

/-!
# A key ring between many clients

The clients of a ring work on it one call at a time, in whatever order their
calls come in. A client may copy a key, go on working with the copy while
others set, advance and commit, and come back much later with a commit. What
keeps this sound is one invariant: every key in the ring is its slot's last
supplied bytes, ratcheted as often as its generation says, with the frame key
that belongs to the bytes, and every copy that is around has a frame key that
belongs to its bytes.

The commit looks only at the bytes and the generation of what the slot holds.
That is enough: bytes determine the frame key on both sides, so a slot that
passes the check holds the very copy that the client started from, whether it
was there all the time or was supplied again in the meantime, and what the
commit puts there is some steps further down the same line.

Everything about single calls is said once, in `key?_after`; the invariant
and the order of generations are read off it, and the statement about whole
runs is an induction over the calls.
-/

namespace MediaSeal

/-- One call of a client, as a whole. -/
inductive RingCall
  | setKey (index : Int) (raw : Bytes)
  | ratchetKey (index : Int)
  /-- Copy the key at an index. -/
  | copyKey (index : Int)
  /-- Put `advanced` in the place of `base`. -/
  | commit (index : Int) (base advanced : KeyMaterial)
  | recordSuccess
  | recordFailure

/-- A ring and all the copies that clients ever took, each with its index. -/
structure RingUse where
  ring : KeyRing
  copies : List (Int × KeyMaterial)

namespace RingCall

/-- The ring after a call; a call that is refused changes nothing. -/
def apply (ring : KeyRing) : RingCall → KeyRing
  | setKey index raw =>
      match ring.setKey index raw with
      | .ok changed => changed
      | .error _ => ring
  | ratchetKey index =>
      match ring.ratchetKey index with
      | .ok (_, changed) => changed
      | .error _ => ring
  | copyKey _ => ring
  | commit index base advanced => (ring.commit index base advanced).2
  | recordSuccess => ring.recordSuccess
  | recordFailure => ring.recordFailure.2

/-- The copy that a call takes. -/
def copied (ring : KeyRing) : RingCall → List (Int × KeyMaterial)
  | copyKey index =>
      match ring.key? index with
      | some key => [(index, key)]
      | none => []
  | _ => []

/-- Clients commit only what they made by ratcheting a copy, at least once,
at the index where they took it. -/
def Fair (use : RingUse) : RingCall → Prop
  | commit index base advanced =>
      (index, base) ∈ use.copies ∧
        ∃ steps, 1 ≤ steps ∧ base.advance use.ring.salt steps = .ok advanced
  | _ => True

/-- The bytes that a call puts at an index of a ring, if it sets a key there;
an index outside the ring is refused. -/
def supplies (size : Nat) (index : Int) : RingCall → Option Bytes
  | setKey other raw =>
      if other = index ∧ 0 ≤ index ∧ index < size then some raw else none
  | _ => none

end RingCall

/-- No call changes how a ring is set up. -/
theorem RingCall.setup_apply (ring : KeyRing) (call : RingCall) :
    (call.apply ring).size = ring.size ∧ (call.apply ring).salt = ring.salt ∧
      (call.apply ring).tolerance = ring.tolerance := by
  cases call with
  | setKey index raw =>
      cases h : ring.setKey index raw with
      | error error => simp only [apply, h, and_self]
      | ok changed =>
          obtain ⟨slot, -, -, rfl⟩ := KeyRing.setKey_eq_ok_iff.mp h
          simp [apply, h, KeyRing.size]
  | ratchetKey index =>
      cases h : ring.ratchetKey index with
      | error error => simp only [apply, h, and_self]
      | ok changed =>
          obtain ⟨slot, key, next, -, -, -, -, -, hring⟩ := KeyRing.ratchetKey_eq_ok_iff.mp h
          simp [apply, h, hring, KeyRing.size]
  | copyKey index => exact ⟨rfl, rfl, rfl⟩
  | commit index base advanced =>
      exact ⟨KeyRing.size_commit ring index base advanced,
        KeyRing.salt_commit ring index base advanced,
        KeyRing.tolerance_commit ring index base advanced⟩
  | recordSuccess => exact ⟨rfl, rfl, rfl⟩
  | recordFailure =>
      exact ⟨congrArg List.length (KeyRing.slots_recordFailure ring),
        KeyRing.salt_recordFailure ring, KeyRing.tolerance_recordFailure ring⟩

namespace RingUse

/-- A ring that no client has copied from yet. -/
def start (ring : KeyRing) : RingUse := ⟨ring, []⟩

/-- What one call leaves behind. -/
def after (use : RingUse) (call : RingCall) : RingUse :=
  ⟨call.apply use.ring, use.copies ++ call.copied use.ring⟩

/-- What calls leave behind, in the order in which they came in. -/
def run (use : RingUse) (calls : List RingCall) : RingUse := calls.foldl after use

/-- Every call is fair at the time when it comes in. -/
def FairRun (use : RingUse) : List RingCall → Prop
  | [] => True
  | call :: rest => call.Fair use ∧ (use.after call).FairRun rest

theorem run_cons (use : RingUse) (call : RingCall) (rest : List RingCall) :
    use.run (call :: rest) = (use.after call).run rest := rfl

theorem run_append (use : RingUse) (first second : List RingCall) :
    use.run (first ++ second) = (use.run first).run second := by
  simp only [run, List.foldl_append]

theorem fairRun_append {use : RingUse} {first second : List RingCall} :
    use.FairRun (first ++ second) ↔ use.FairRun first ∧ (use.run first).FairRun second := by
  induction first generalizing use with
  | nil => simp [FairRun, run]
  | cons call rest ih =>
      rw [List.cons_append, FairRun, ih, FairRun, run_cons, and_assoc]

end RingUse

/-- The bytes that the last call to set a key at an index put there. -/
def lastSupplied (size : Nat) (index : Int) (calls : List RingCall) : Option Bytes :=
  (calls.filterMap (·.supplies size index)).getLast?

theorem lastSupplied_cons (size : Nat) (index : Int) (call : RingCall)
    (rest : List RingCall) :
    lastSupplied size index (call :: rest) =
      (lastSupplied size index rest).or (call.supplies size index) := by
  unfold lastSupplied
  rw [List.filterMap_cons]
  cases call.supplies size index with
  | none => simp
  | some raw => simp [List.getLast?_cons]

/-! ## One call

What a call does to the key at one index: nothing, or the key is supplied
anew, or it is moved some steps down its line. -/

/-- The invariant of a ring between clients, given what was last supplied at
each index. -/
structure RingUse.Consistent (size : Nat) (salt : Bytes) (supplied : Int → Option Bytes)
    (use : RingUse) : Prop where
  size_eq : use.ring.size = size
  salt_eq : use.ring.salt = salt
  keys : ∀ {index key}, use.ring.key? index = some key →
    ∃ raw, supplied index = some raw ∧ key.DescendsFrom salt raw
  copies : ∀ {index key}, (index, key) ∈ use.copies → key.Derived salt

namespace RingUse

variable {size : Nat} {salt : Bytes} {supplied : Int → Option Bytes} {use : RingUse}

theorem consistent_start (size : Nat) (salt : Bytes) (tolerance : Option UInt32) :
    (start (.empty size salt tolerance)).Consistent size salt fun _ => none where
  size_eq := KeyRing.size_empty size salt tolerance
  salt_eq := rfl
  keys := by
    intro index key hkey
    rw [start, KeyRing.key?_empty] at hkey
    cases hkey
  copies := by
    intro index key hmem
    cases hmem

/-- A commit goes through only where the slot holds the copy it was made
from. -/
theorem Consistent.holds_base (h : use.Consistent size salt supplied) {index : Int}
    {base current : KeyMaterial} (hmem : (index, base) ∈ use.copies)
    (hkey : use.ring.key? index = some current) (hgen : current.generation = base.generation)
    (hraw : current.raw = base.raw) : current = base := by
  obtain ⟨raw, -, -, hcurrent⟩ := h.keys hkey
  exact KeyMaterial.eq_of_derived hraw hgen hcurrent (h.copies hmem)

/-- The key at an index after one call. -/
theorem Consistent.key?_after (h : use.Consistent size salt supplied) {call : RingCall}
    (hfair : call.Fair use) (index : Int) :
    (∃ raw, call.supplies size index = some raw ∧
        (use.after call).ring.key? index = some (.supplied raw salt)) ∨
      (call.supplies size index = none ∧
        ((use.after call).ring.key? index = use.ring.key? index ∨
          ∃ key steps later, use.ring.key? index = some key ∧
            key.advance salt steps = .ok later ∧
            (use.after call).ring.key? index = some later)) := by
  cases call with
  | setKey other raw =>
      cases hset : use.ring.setKey other raw with
      | error error =>
          obtain ⟨-, hout⟩ := KeyRing.setKey_eq_error_iff.mp hset
          rw [h.size_eq] at hout
          refine .inr ⟨if_neg (by omega), .inl ?_⟩
          simp only [after, RingCall.apply, hset]
      | ok ring =>
          have hafter : (use.after (.setKey other raw)).ring = ring := by
            simp only [after, RingCall.apply, hset]
          have hkey := KeyRing.key?_setKey hset index
          rw [← hafter, h.salt_eq] at hkey
          by_cases hindex : index = other
          · subst hindex
            obtain ⟨slot, rfl, hslot, -⟩ := KeyRing.setKey_eq_ok_iff.mp hset
            rw [h.size_eq] at hslot
            rw [if_pos rfl] at hkey
            exact .inl ⟨raw, if_pos (by omega), hkey⟩
          · rw [if_neg hindex] at hkey
            exact .inr ⟨if_neg fun e => hindex e.1.symm, .inl hkey⟩
  | ratchetKey other =>
      refine .inr ⟨rfl, ?_⟩
      cases hratchet : use.ring.ratchetKey other with
      | error error => exact .inl (by simp only [after, RingCall.apply, hratchet])
      | ok changed =>
          have hafter : (use.after (.ratchetKey other)).ring = changed.2 := by
            simp only [after, RingCall.apply, hratchet]
          obtain ⟨key, next, hold, hnext, hkeys⟩ := KeyRing.key?_ratchetKey hratchet
          rw [h.salt_eq] at hnext
          rw [hafter, hkeys]
          by_cases hindex : index = other
          · subst hindex
            have hone := KeyMaterial.advance_succ_eq_ok_iff.mpr
              ⟨next, hnext, KeyMaterial.advance_zero next⟩
            exact .inr ⟨key, _, next, hold, hone, if_pos rfl⟩
          · exact .inl (if_neg hindex)
  | copyKey other => exact .inr ⟨rfl, .inl rfl⟩
  | commit other base advanced =>
      obtain ⟨hmem, steps, -, hadvanced⟩ := hfair
      rw [h.salt_eq] at hadvanced
      have hafter : (use.after (.commit other base advanced)).ring =
          (use.ring.commit other base advanced).2 := rfl
      refine .inr ⟨rfl, ?_⟩
      rw [hafter]
      by_cases hheld : ∃ current, use.ring.key? other = some current ∧
          current.generation = base.generation ∧ current.raw = base.raw
      · obtain ⟨current, hold, hgen, hraw⟩ := hheld
        obtain rfl := h.holds_base hmem hold hgen hraw
        rw [KeyRing.key?_commit hold hgen hraw]
        by_cases hindex : index = other
        · subst hindex
          exact .inr ⟨current, steps, advanced, hold, hadvanced, if_pos rfl⟩
        · exact .inl (if_neg hindex)
      · rw [KeyRing.commit_of_not_key? hheld]
        exact .inl rfl
  | recordSuccess => exact .inr ⟨rfl, .inl rfl⟩
  | recordFailure =>
      exact .inr ⟨rfl, .inl (KeyRing.key?_congr (KeyRing.slots_recordFailure _) index)⟩

theorem Consistent.copies_after (h : use.Consistent size salt supplied) {call : RingCall}
    {index : Int} {key : KeyMaterial} (hmem : (index, key) ∈ (use.after call).copies) :
    key.Derived salt := by
  rcases List.mem_append.mp hmem with hold | hnew
  · exact h.copies hold
  · cases call with
    | copyKey other =>
        rw [RingCall.copied] at hnew
        split at hnew
        · next current hcurrent =>
            obtain ⟨-, rfl⟩ := Prod.mk.inj (List.mem_singleton.mp hnew)
            obtain ⟨raw, -, -, hderived⟩ := h.keys hcurrent
            exact hderived
        · cases hnew
    | setKey | ratchetKey | commit | recordSuccess | recordFailure => cases hnew

/-- The invariant survives a call, with what the call supplied put before
what was supplied earlier. -/
theorem Consistent.after (h : use.Consistent size salt supplied) {call : RingCall}
    (hfair : call.Fair use) :
    (use.after call).Consistent size salt fun index =>
      (call.supplies size index).or (supplied index) where
  size_eq := (RingCall.setup_apply use.ring call).1.trans h.size_eq
  salt_eq := (RingCall.setup_apply use.ring call).2.1.trans h.salt_eq
  copies := h.copies_after
  keys := by
    intro index key hkey
    rcases h.key?_after hfair index with
      ⟨raw, hsupplies, hnew⟩ | ⟨hsupplies, hsame | ⟨old, steps, later, hold, hadvance, hnew⟩⟩
    · rw [hnew] at hkey
      injection hkey with hkey
      subst hkey
      exact ⟨raw, by rw [hsupplies, Option.some_or], KeyMaterial.descendsFrom_supplied raw salt⟩
    · rw [hsame] at hkey
      obtain ⟨raw, hraw, hdescends⟩ := h.keys hkey
      exact ⟨raw, by rw [hsupplies, Option.none_or, hraw], hdescends⟩
    · rw [hnew] at hkey
      injection hkey with hkey
      subst hkey
      obtain ⟨raw, hraw, hdescends⟩ := h.keys hold
      exact ⟨raw, by rw [hsupplies, Option.none_or, hraw], hdescends.advance hadvance⟩

/-- A call that supplies nothing at an index leaves the key there no younger
than it was. -/
theorem Consistent.generation_after (h : use.Consistent size salt supplied) {call : RingCall}
    (hfair : call.Fair use) {index : Int} {key : KeyMaterial}
    (hkey : use.ring.key? index = some key) (hnone : call.supplies size index = none) :
    ∃ later, (use.after call).ring.key? index = some later ∧
      key.generation ≤ later.generation := by
  rcases h.key?_after hfair index with
    ⟨raw, hsupplies, -⟩ | ⟨-, hsame | ⟨old, steps, later, hold, hadvance, hnew⟩⟩
  · rw [hnone] at hsupplies
    cases hsupplies
  · exact ⟨key, hsame.trans hkey, UInt32.le_refl _⟩
  · rw [hkey] at hold
    injection hold with hold
    subst hold
    have hgen := KeyMaterial.toNat_generation_of_advance hadvance
    exact ⟨later, hnew, UInt32.le_iff_toNat_le.mpr (by omega)⟩

/-! ## Whole runs -/

theorem Consistent.run {calls : List RingCall} (h : use.Consistent size salt supplied)
    (hfair : use.FairRun calls) :
    (use.run calls).Consistent size salt fun index =>
      (lastSupplied size index calls).or (supplied index) := by
  induction calls generalizing use supplied with
  | nil => exact h
  | cons call rest ih =>
      have hrest := ih (h.after hfair.1) hfair.2
      simp only [lastSupplied_cons, Option.or_assoc]
      exact hrest

theorem Consistent.generation_run {calls : List RingCall}
    (h : use.Consistent size salt supplied) (hfair : use.FairRun calls) {index : Int}
    {key : KeyMaterial} (hkey : use.ring.key? index = some key)
    (hnone : lastSupplied size index calls = none) :
    ∃ later, (use.run calls).ring.key? index = some later ∧
      key.generation ≤ later.generation := by
  induction calls generalizing use supplied key with
  | nil => exact ⟨key, hkey, UInt32.le_refl _⟩
  | cons call rest ih =>
      rw [lastSupplied_cons, Option.or_eq_none_iff] at hnone
      obtain ⟨middle, hmiddle, hle⟩ := h.generation_after hfair.1 hkey hnone.2
      obtain ⟨later, hlater, hle'⟩ := ih (h.after hfair.1) hfair.2 hmiddle hnone.1
      exact ⟨later, hlater, UInt32.le_trans hle hle'⟩

end RingUse

/-- The ring that fair calls leave of an empty one. -/
def KeyRing.afterCalls (size : Nat) (salt : Bytes) (tolerance : Option UInt32)
    (calls : List RingCall) : KeyRing :=
  ((RingUse.start (.empty size salt tolerance)).run calls).ring

/-- Whatever order the calls of any number of clients come in: each key
descends from the bytes last supplied at its index; until bytes are supplied
again, the generation there does not go down; and a commit goes through
exactly if the slot holds the bytes and the generation of the copy, in which
case it holds that very copy and moves on by the steps that were taken from
it. A commit that does not go through changes nothing. -/
theorem keys_descend_from_last_supplied (size : Nat) (salt : Bytes)
    (tolerance : Option UInt32) (calls : List RingCall)
    (hfair : (RingUse.start (.empty size salt tolerance)).FairRun calls) :
    (∀ index key, (KeyRing.afterCalls size salt tolerance calls).key? index = some key →
      ∃ raw, lastSupplied size index calls = some raw ∧ key.DescendsFrom salt raw) ∧
    (∀ earlier between index key, calls = earlier ++ between →
      lastSupplied size index between = none →
      (KeyRing.afterCalls size salt tolerance earlier).key? index = some key →
      ∃ later, (KeyRing.afterCalls size salt tolerance calls).key? index = some later ∧
        key.generation ≤ later.generation) ∧
    (∀ earlier index base advanced rest,
      calls = earlier ++ RingCall.commit index base advanced :: rest →
      let ring := KeyRing.afterCalls size salt tolerance earlier
      let done := ring.commit index base advanced
      (done.1 = true ↔ ∃ current, ring.key? index = some current ∧
        current.generation = base.generation ∧ current.raw = base.raw) ∧
      (done.1 = true → ring.key? index = some base ∧ done.2.key? index = some advanced ∧
        ∀ steps, base.advance salt steps = .ok advanced →
          advanced.generation.toNat = base.generation.toNat + steps) ∧
      (done.1 = false → done.2 = ring)) := by
  have hstart := RingUse.consistent_start size salt tolerance
  refine ⟨?_, ?_, ?_⟩
  · intro index key hkey
    obtain ⟨raw, hraw, hdescends⟩ := (hstart.run hfair).keys hkey
    rw [Option.or_none] at hraw
    exact ⟨raw, hraw, hdescends⟩
  · intro earlier between index key hsplit hnone hkey
    subst hsplit
    obtain ⟨hearlier, hbetween⟩ := RingUse.fairRun_append.mp hfair
    rw [KeyRing.afterCalls, RingUse.run_append]
    exact (hstart.run hearlier).generation_run hbetween hkey hnone
  · intro earlier index base advanced rest hsplit
    subst hsplit
    intro ring done
    obtain ⟨hearlier, ⟨hmem, -⟩, -⟩ := RingUse.fairRun_append.mp hfair
    have hrun := hstart.run hearlier
    by_cases hheld : ∃ current, ring.key? index = some current ∧
        current.generation = base.generation ∧ current.raw = base.raw
    · obtain ⟨current, hkey, hgen, hraw⟩ := hheld
      obtain rfl := hrun.holds_base hmem hkey hgen hraw
      have hdone : done.1 = true := by
        rw [show done = _ from KeyRing.commit_of_key? hkey hgen hraw]
      have hafter : done.2.key? index = some advanced := by
        rw [show done.2.key? index = _ from KeyRing.key?_commit hkey hgen hraw index, if_pos rfl]
      refine ⟨⟨fun _ => ⟨current, hkey, rfl, rfl⟩, fun _ => hdone⟩, fun _ => ?_, ?_⟩
      · exact ⟨hkey, hafter, fun steps => KeyMaterial.toNat_generation_of_advance⟩
      · intro hfalse
        rw [hdone] at hfalse
        cases hfalse
    · have hdone : done = (false, ring) := KeyRing.commit_of_not_key? hheld
      refine ⟨⟨?_, fun h => absurd h hheld⟩, ?_, fun _ => by rw [hdone]⟩
      · intro htrue
        rw [hdone] at htrue
        cases htrue
      · intro htrue
        rw [hdone] at htrue
        cases htrue

/-- A client copies a key and ratchets the copy. Its commit is refused while
the slot is ahead, and goes through once the same bytes were supplied again. -/
def resuppliedCalls : List RingCall :=
  let base := KeyMaterial.supplied [1] []
  let advanced := KeyMaterial.atGeneration (ratchetMaterial [1] []) [] 1
  [.setKey 1 [1], .copyKey 1, .ratchetKey 1, .recordFailure, .commit 1 base advanced,
    .setKey 1 [1], .setKey 2 [7], .commit 1 base advanced, .recordSuccess]

theorem keys_descend_from_resupplied :
    (RingUse.start (.empty 2 [] (some 3))).FairRun resuppliedCalls ∧
      ∀ index key, (KeyRing.afterCalls 2 [] (some 3) resuppliedCalls).key? index = some key →
        ∃ raw, lastSupplied 2 index resuppliedCalls = some raw ∧ key.DescendsFrom [] raw := by
  have hfair : (RingUse.start (.empty 2 [] (some 3))).FairRun resuppliedCalls := by
    have hcopy : ((1 : Int), KeyMaterial.supplied [1] []) ∈
        [((1 : Int), KeyMaterial.supplied [1] [])] := List.mem_singleton.mpr rfl
    have hsteps : (KeyMaterial.supplied [1] []).advance [] 1 =
        .ok (.atGeneration (ratchetMaterial [1] []) [] 1) := rfl
    exact ⟨trivial, trivial, trivial, trivial, ⟨hcopy, 1, Nat.le_refl 1, hsteps⟩, trivial,
      trivial, ⟨hcopy, 1, Nat.le_refl 1, hsteps⟩, trivial, trivial⟩
  exact ⟨hfair, (keys_descend_from_last_supplied 2 [] (some 3) resuppliedCalls hfair).1⟩

end MediaSeal
