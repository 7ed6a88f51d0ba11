import MediaSeal.Call.Simulation
import Mathlib.Data.List.Perm.Basic

/-!
# Rounds and orders

A scenario's frames are numbered, and its rounds cut the numbers into pieces of
one length, of which the last may be shorter. Whoever sends the frames of a
round may do so in any order, so what is played is a list of rounds of which
each is a permutation of the scenario's.

Two things are left of the cut then. Each number is sent once, and as all
rounds but the last are full, a frame's place in the whole order tells its
round: it is the place divided by the length of a round. `Evenly` says the
latter in the form that the walk over the rounds has.
-/

namespace MediaSeal

/-- All rounds have this length but the last, which may be shorter. -/
def Evenly (length : Nat) : List (List Nat) → Prop
  | [] => False
  | [last] => 1 ≤ last.length ∧ last.length ≤ length
  | first :: next :: rest => first.length = length ∧ Evenly length (next :: rest)

namespace Evenly

variable {length : Nat}

theorem ne_nil {rounds : List (List Nat)} (h : Evenly length rounds) : rounds ≠ [] := by
  rintro rfl
  exact h

/-- A first round is not empty, and full if another one follows. -/
theorem of_cons {first : List Nat} {rest : List (List Nat)} (hpos : 0 < length)
    (h : Evenly length (first :: rest)) :
    1 ≤ first.length ∧ first.length ≤ length ∧
      (rest ≠ [] → first.length = length ∧ Evenly length rest) := by
  cases rest with
  | nil => exact ⟨h.1, h.2, fun hrest => absurd rfl hrest⟩
  | cons next rest => exact ⟨by rw [h.1]; exact hpos, Nat.le_of_eq h.1, fun _ => h⟩

/-- There are no more rounds than frames. -/
theorem length_le_flatten {rounds : List (List Nat)} (hpos : 0 < length)
    (h : Evenly length rounds) : rounds.length ≤ rounds.flatten.length := by
  induction rounds with
  | nil => exact Nat.le_refl _
  | cons first rest ih =>
      obtain ⟨hfirst, -, hrest⟩ := h.of_cons hpos
      rw [List.length_cons, List.flatten_cons, List.length_append]
      by_cases hlast : rest = []
      · rw [hlast]
        exact hfirst
      · have hmore := ih (hrest hlast).2
        omega

/-- Only the lengths matter. -/
theorem of_forall₂_perm {orders rounds : List (List Nat)}
    (hperm : List.Forall₂ List.Perm orders rounds) (h : Evenly length rounds) :
    Evenly length orders := by
  induction hperm with
  | nil => exact h
  | @cons order round orders rounds hfirst hrest ih =>
      cases hrest with
      | nil => exact ⟨hfirst.length_eq ▸ h.1, hfirst.length_eq ▸ h.2⟩
      | cons hnext hrest => exact ⟨hfirst.length_eq.trans h.1, ih h.2⟩

end Evenly

/-! ## The rounds of a scenario -/

namespace Scenario

/-- The numbers of one round, from where those before it end. -/
def roundNumbers (frames length round : Nat) : List Nat :=
  List.range' (round * length) (min length (frames - round * length))

/-- The rounds from a given one on, if so many follow it. -/
theorem map_roundNumbers_range' {frames length : Nat} (hpos : 0 < length) (more round : Nat)
    (hbelow : (round + more) * length < frames) (hle : frames ≤ (round + more + 1) * length) :
    let rounds := (List.range' round (more + 1)).map (roundNumbers frames length)
    Evenly length rounds ∧
      rounds.flatten = List.range' (round * length) (frames - round * length) := by
  induction more generalizing round with
  | zero =>
      have hmin : min length (frames - round * length) = frames - round * length := by
        rw [Nat.add_zero, Nat.add_mul, Nat.one_mul] at hle
        omega
      have hone : (List.range' round 1).map (roundNumbers frames length) =
          [List.range' (round * length) (frames - round * length)] := by
        rw [List.range'_one, List.map_singleton, roundNumbers, hmin]
      rw [Nat.add_zero] at hbelow hle
      rw [Nat.add_mul, Nat.one_mul] at hle
      rw [Nat.zero_add, hone]
      refine ⟨⟨?_, ?_⟩, List.flatten_singleton⟩ <;> rw [List.length_range'] <;> omega
  | succ more ih =>
      obtain ⟨heven, hflat⟩ := ih (round + 1)
        (by rwa [Nat.add_right_comm, Nat.add_assoc]) (by rwa [Nat.add_right_comm round 1 more])
      have hfull : (round + 1) * length < frames :=
        Nat.lt_of_le_of_lt (Nat.mul_le_mul_right _ (by omega)) hbelow
      rw [Nat.add_mul, Nat.one_mul] at hfull
      have hmin : min length (frames - round * length) = length := by omega
      have hfirst : (List.range' round (more + 1 + 1)).map (roundNumbers frames length) =
          List.range' (round * length) length ::
            (List.range' (round + 1) (more + 1)).map (roundNumbers frames length) := by
        rw [List.range'_succ, List.map_cons, roundNumbers, hmin]
      rw [hfirst]
      constructor
      · rw [List.range'_succ, List.map_cons] at heven ⊢
        exact ⟨List.length_range', heven⟩
      · rw [List.flatten_cons, hflat, Nat.add_mul, Nat.one_mul, List.range'_append_1]
        congr 1
        omega

variable {scenario : Scenario}

theorem roundLength_pos (scenario : Scenario) : 0 < scenario.roundLength :=
  Nat.le_max_left _ _

theorem roundLength_of_ratchets (h : scenario.ratchetEvery ≠ 0) :
    scenario.roundLength = scenario.ratchetEvery.toNat := by
  have hpos : scenario.ratchetEvery.toNat ≠ 0 := fun hzero => h (UInt32.toNat_inj.mp hzero)
  rw [roundLength, if_neg h]
  omega

/-- How many rounds there are: one if the sender never advances its key. -/
def roundCount (scenario : Scenario) : Nat :=
  if scenario.ratchetEvery = 0 then 1
  else (scenario.frames.toNat + scenario.ratchetEvery.toNat - 1) / scenario.ratchetEvery.toNat

theorem roundCount_eq (hframes : 0 < scenario.frames.toNat) :
    scenario.roundCount =
      (scenario.frames.toNat + scenario.roundLength - 1) / scenario.roundLength := by
  unfold roundCount
  split
  · next hnever =>
      have hall : scenario.roundLength = scenario.frames.toNat := by
        rw [roundLength, if_pos hnever]
        omega
      rw [hall, Nat.add_sub_assoc hframes, Nat.add_div_left _ hframes,
        Nat.div_eq_of_lt (Nat.sub_lt hframes Nat.one_pos)]
  · next hratchets => rw [roundLength_of_ratchets hratchets]

theorem length_rounds (hframes : 0 < scenario.frames.toNat) :
    scenario.rounds.length = scenario.roundCount := by
  rw [rounds, List.length_map, List.length_range, roundCount_eq hframes]

/-- The rounds are even, and every number is in one of them. -/
theorem evenly_rounds (hframes : 0 < scenario.frames.toNat) :
    Evenly scenario.roundLength scenario.rounds ∧
      scenario.rounds.flatten = List.range scenario.frames.toNat := by
  have hpos := scenario.roundLength_pos
  generalize hlength : scenario.roundLength = length at hpos
  obtain ⟨more, hmore⟩ : ∃ more, more = (scenario.frames.toNat - 1) / length := ⟨_, rfl⟩
  have hcount : (scenario.frames.toNat + length - 1) / length = more + 1 := by
    rw [hmore, ← Nat.add_div_right _ hpos]
    congr 1
    omega
  have hfloor := Nat.div_mul_le_self (scenario.frames.toNat - 1) length
  have hceil := Nat.lt_mul_div_succ (scenario.frames.toNat - 1) hpos
  rw [← hmore, Nat.mul_comm] at hceil
  rw [← hmore] at hfloor
  have hbelow : (0 + more) * length < scenario.frames.toNat := by
    rw [Nat.zero_add]
    omega
  have hle : scenario.frames.toNat ≤ (0 + more + 1) * length := by
    rw [Nat.zero_add]
    omega
  have hrounds : scenario.rounds =
      (List.range' 0 (more + 1)).map (roundNumbers scenario.frames.toNat length) := by
    rw [rounds, hlength, hcount, List.range_eq_range']
    rfl
  have hcut := map_roundNumbers_range' hpos more 0 hbelow hle
  rw [hrounds, List.range_eq_range']
  simpa only [Nat.zero_mul, Nat.sub_zero] using hcut

end Scenario

/-! ## Room for the rounds -/

namespace Scenario

variable {scenario : Scenario} {rounds : List (List Nat)}

theorem fits_of_le (hworkers : scenario.workers * handleSize ≤ maxBuffer)
    (hsize : scenario.frameSize ≤ maxBuffer) : scenario.fits rounds = true := by
  rw [fits, decide_eq_true ⟨hworkers, hsize⟩, Bool.or_true]

theorem run_eq_of_play {call : Call} {report : Report} (hstart : Call.start scenario = .ok call)
    (hplay : scenario.play rounds = .ok report) :
    scenario.run rounds = if scenario.fits rounds then .ok report else .error .noRoom := by
  rw [run, hstart, hplay]
  rfl

end Scenario

end MediaSeal
