import MediaSeal.Proofs.Rounds
import Mathlib.Data.List.Count

/-!
# The loop over the rounds

Whoever runs a scenario goes by a counter of thirty-two bits. It says where the next
round starts, and is moved to that round's end, which is the start plus the length of
a round, or the last number there is if that is too much, or the number of frames if
even that is too much. Then the sender advances its key, unless this was the last
round. A round's frames are dealt out to workers, each of which sends its share while
the others send theirs.

`Scenario.movesFrom` is this loop; what order the workers end up with is a parameter.
It ends, because the counter moves at each turn and stays within the number of frames.
What it does is known beforehand: its rounds are those that `Scenario.rounds` cuts,
with an advance between each and the next. So each frame is sent once, and a frame's
number tells how many advances there are before it.
-/

namespace MediaSeal

/-! ## Shares -/

section Shares

variable {α : Type}

/-- The first item, and every so manieth after it. -/
def everyNth (step : Nat) : List α → List α
  | [] => []
  | a :: rest => a :: everyNth step (rest.drop (step - 1))
termination_by items => items.length
decreasing_by
  rw [List.length_drop, List.length_cons]
  omega

theorem everyNth_drop {step : Nat} (h : 1 ≤ step) (items : List α) (place : Nat) :
    everyNth step (items.drop place) =
      items[place]?.toList ++ everyNth step ((items.drop step).drop place) := by
  by_cases hplace : place < items.length
  · have hnext : place + 1 + (step - 1) = step + place := by omega
    rw [List.drop_eq_getElem_cons hplace, everyNth, List.drop_drop, List.drop_drop, hnext,
      List.getElem?_eq_getElem hplace, Option.toList_some, List.singleton_append]
  · have hout : items.length ≤ place := Nat.not_lt.mp hplace
    rw [List.drop_drop, List.drop_eq_nil_of_le hout, List.drop_eq_nil_of_le (by omega),
      List.getElem?_eq_none hout, everyNth]
    rfl

theorem flatMap_getElem? (items : List α) (count : Nat) :
    ((List.range count).flatMap fun place => items[place]?.toList) = items.take count := by
  induction count with
  | zero => rfl
  | succ count ih =>
      rw [List.range_succ, List.flatMap_append, ih, List.take_add_one, List.flatMap_singleton]

/-- What each of some workers takes of a round, when they take turns. -/
def shares (workers : Nat) (items : List α) : List (List α) :=
  (List.range workers).map fun worker => everyNth workers (items.drop worker)

/-- Nothing is left out, and nothing is taken twice. -/
theorem flatten_shares_perm {workers : Nat} (h : 1 ≤ workers) (items : List α) :
    (shares workers items).flatten.Perm items := by
  cases items with
  | nil =>
      have hnone : ∀ worker, everyNth workers (([] : List α).drop worker) = [] := by
        intro worker
        rw [List.drop_nil, everyNth]
      simp only [shares, hnone, List.map_const', List.flatten_replicate_nil, List.Perm.refl]
  | cons a rest =>
      -- The first turn takes as many items as there are workers.
      have hlater := flatten_shares_perm h ((a :: rest).drop workers)
      have hturn := List.flatMap_append_perm (List.range workers)
        (fun worker => (a :: rest)[worker]?.toList)
        fun worker => everyNth workers (((a :: rest).drop workers).drop worker)
      rw [flatMap_getElem?] at hturn
      rw [shares, ← List.flatMap_def] at hlater ⊢
      simp only [everyNth_drop h (a :: rest)]
      refine hturn.symm.trans ?_
      have hwhole := hlater.append_left ((a :: rest).take workers)
      rwa [List.take_append_drop] at hwhole
termination_by items.length
decreasing_by
  rw [List.length_drop]
  simp only [List.length_cons]
  omega

end Shares

/-! ## Moves -/

/-- One of the things that are done in a run. -/
inductive Move
  | send (number : Nat)
  | ratchet
deriving DecidableEq, Repr

namespace Move

/-- Rounds with an advance between each and the next. -/
def ofRounds : List (List Nat) → List Move
  | [] => []
  | [round] => round.map .send
  | round :: next :: rest => round.map .send ++ .ratchet :: ofRounds (next :: rest)

theorem ofRounds_cons (round : List Nat) (rest : List (List Nat)) :
    ofRounds (round :: rest) =
      round.map .send ++ (if rest = [] then [] else [.ratchet]) ++ ofRounds rest := by
  cases rest with
  | nil => simp only [ofRounds, if_true, List.append_nil]
  | cons next rest =>
      rw [ofRounds, if_neg (List.cons_ne_nil _ _), List.append_assoc, List.singleton_append]

theorem send_injective : Function.Injective send := fun _ _ h => Move.send.inj h

theorem count_send_map (number : Nat) (round : List Nat) :
    (round.map send).count (.send number) = round.count number :=
  List.count_map_of_injective _ _ send_injective _

theorem count_ratchet_map (round : List Nat) : (round.map send).count .ratchet = 0 := by
  rw [List.count_eq_zero, List.mem_map]
  intro h
  obtain ⟨number, -, hnumber⟩ := h
  cases hnumber

theorem count_send_ofRounds (number : Nat) (rounds : List (List Nat)) :
    (ofRounds rounds).count (.send number) = rounds.flatten.count number := by
  induction rounds with
  | nil => rfl
  | cons round rest ih =>
      have hbetween : (if rest = [] then [] else [ratchet]).count (.send number) = 0 := by
        split <;> rfl
      rw [ofRounds_cons, List.count_append, List.count_append, count_send_map, hbetween, ih,
        List.flatten_cons, List.count_append, Nat.add_zero]

theorem count_ratchet_ofRounds (rounds : List (List Nat)) :
    (ofRounds rounds).count .ratchet = rounds.length - 1 := by
  induction rounds with
  | nil => rfl
  | cons round rest ih =>
      rw [ofRounds_cons, List.count_append, List.count_append, count_ratchet_map, ih,
        List.length_cons]
      cases rest with
      | nil => rfl
      | cons next rest =>
          rw [if_neg (List.cons_ne_nil _ _), List.count_singleton_self, List.length_cons]
          omega

theorem length_ofRounds (rounds : List (List Nat)) :
    (ofRounds rounds).length = rounds.flatten.length + (rounds.length - 1) := by
  induction rounds with
  | nil => rfl
  | cons round rest ih =>
      rw [ofRounds_cons, List.length_append, List.length_append, List.length_map, ih,
        List.flatten_cons, List.length_append, List.length_cons]
      cases rest with
      | nil => rfl
      | cons next rest =>
          rw [if_neg (List.cons_ne_nil _ _), List.length_singleton, List.length_cons]
          omega

theorem eq_append_send {round : List Nat} {later before after : List Move} {number : Nat}
    (h : round.map .send ++ later = before ++ .send number :: after) :
    (number ∈ round ∧ before.count .ratchet = 0) ∨
      ∃ between, before = round.map .send ++ between ∧
        later = between ++ .send number :: after := by
  induction round generalizing before with
  | nil => exact .inr ⟨before, rfl, h⟩
  | cons first round ih =>
      rw [List.map_cons, List.cons_append] at h
      cases before with
      | nil =>
          obtain ⟨hfirst, -⟩ := List.cons.inj h
          exact .inl ⟨send_injective hfirst ▸ List.mem_cons_self, rfl⟩
      | cons move before =>
          obtain ⟨rfl, hrest⟩ := List.cons.inj h
          obtain ⟨hmem, hcount⟩ | ⟨between, rfl, hlater⟩ := ih hrest
          · exact .inl ⟨List.mem_cons_of_mem _ hmem, by rw [List.count_cons, hcount]; rfl⟩
          · exact .inr ⟨between, rfl, hlater⟩

/-- The advances before a frame are as many as the rounds before its own. -/
theorem count_ratchet_before {rounds : List (List Nat)} {before after : List Move} {number : Nat}
    (h : ofRounds rounds = before ++ .send number :: after) :
    ∃ round, rounds[before.count .ratchet]? = some round ∧ number ∈ round := by
  induction rounds generalizing before with
  | nil => exact absurd h.symm (List.append_ne_nil_of_right_ne_nil _ (List.cons_ne_nil _ _))
  | cons round rest ih =>
      rw [ofRounds_cons, List.append_assoc] at h
      obtain ⟨hmem, hnone⟩ | ⟨between, rfl, hlater⟩ := eq_append_send h
      · exact ⟨round, by rw [hnone]; rfl, hmem⟩
      · rw [List.count_append, count_ratchet_map, Nat.zero_add]
        cases rest with
        | nil =>
            exact absurd hlater.symm
              (List.append_ne_nil_of_right_ne_nil _ (List.cons_ne_nil _ _))
        | cons next rest =>
            rw [if_neg (List.cons_ne_nil _ _), List.singleton_append] at hlater
            cases between with
            | nil => cases hlater
            | cons move between =>
                obtain ⟨rfl, hrest⟩ := List.cons.inj hlater
                rw [List.count_cons_self, List.getElem?_cons_succ]
                exact ih hrest

end Move

/-! ## The loop -/

/-- The sum, or the last number there is. -/
def saturatingAdd (a b : UInt32) : UInt32 :=
  if a.toNat + b.toNat < UInt32.size then a + b else 0xffffffff

theorem toNat_saturatingAdd (a b : UInt32) :
    (saturatingAdd a b).toNat = min (a.toNat + b.toNat) (UInt32.size - 1) := by
  rw [saturatingAdd]
  split
  · next hfits =>
      rw [UInt32.toNat_add, Nat.mod_eq_of_lt hfits]
      omega
  · next hover =>
      have hlast : (0xffffffff : UInt32).toNat = UInt32.size - 1 := rfl
      omega

namespace Scenario

/-- Where the round ends that starts with this frame. -/
def roundEnd (scenario : Scenario) (start : UInt32) : UInt32 :=
  let length := if scenario.ratchetEvery = 0 then scenario.frames else scenario.ratchetEvery
  min (saturatingAdd start (max length 1)) scenario.frames

theorem toNat_roundEnd (scenario : Scenario) (start : UInt32) :
    (scenario.roundEnd start).toNat =
      min (start.toNat + scenario.roundLength) scenario.frames.toNat := by
  have hframes := scenario.frames.toNat_lt_size
  rw [roundEnd, UInt32.toNat_min, toNat_saturatingAdd, UInt32.toNat_max, roundLength,
    Nat.max_comm 1]
  have hone : (1 : UInt32).toNat = 1 := rfl
  rw [hone]
  omega

example :
    let scenario := { Scenario.default with frames := 0xffffffff, ratchetEvery := 0xfffffffe }
    scenario.roundEnd 0xfffffffe = 0xffffffff := by decide

/-- What is done from the round on that starts with this frame. Workers that send the
frames of a round arrange them. -/
def movesFrom (scenario : Scenario) (arrange : List Nat → List Nat) (start : UInt32) : List Move :=
  if start < scenario.frames then
    let finish := scenario.roundEnd start
    let round := List.range' start.toNat (finish.toNat - start.toNat)
    (arrange round).map .send ++
      (if finish < scenario.frames ∧ 0 < scenario.ratchetEvery then [.ratchet] else []) ++
      scenario.movesFrom arrange finish
  else []
termination_by scenario.frames.toNat - start.toNat
decreasing_by
  next hstart =>
    have hpos := scenario.roundLength_pos
    rw [UInt32.lt_iff_toNat_lt] at hstart
    rw [toNat_roundEnd]
    omega

variable {scenario : Scenario} {arrange : List Nat → List Nat}

theorem lt_length_rounds_iff {round : Nat} :
    round < scenario.rounds.length ↔ round * scenario.roundLength < scenario.frames.toNat := by
  have hpos := scenario.roundLength_pos
  rw [rounds, List.length_map, List.length_range, Nat.lt_iff_add_one_le,
    Nat.le_div_iff_mul_le hpos, Nat.add_mul, Nat.one_mul]
  omega

theorem rounds_getElem {round : Nat} (h : round < scenario.rounds.length) :
    scenario.rounds[round] =
      roundNumbers scenario.frames.toNat scenario.roundLength round := by
  simp only [rounds, List.getElem_map, List.getElem_range, roundNumbers]

theorem roundNumbers_eq_range' {frames length round : Nat} (h : round * length < frames) :
    roundNumbers frames length round =
      List.range' (round * length) (min (round * length + length) frames - round * length) := by
  rw [roundNumbers]
  congr 1
  omega

theorem ratchets_after_iff {round : Nat} {finish : UInt32}
    (hfinish : finish.toNat =
      min ((round + 1) * scenario.roundLength) scenario.frames.toNat) :
    (finish < scenario.frames ∧ 0 < scenario.ratchetEvery) ↔
      round + 1 < scenario.rounds.length := by
  rw [lt_length_rounds_iff, UInt32.lt_iff_toNat_lt, UInt32.lt_iff_toNat_lt, UInt32.toNat_zero]
  constructor
  · intro h
    omega
  · intro h
    refine ⟨by omega, ?_⟩
    -- If the key were never advanced, all frames would be in one round.
    by_contra hnever
    have hzero : scenario.ratchetEvery = 0 := UInt32.toNat_inj.mp (by rw [UInt32.toNat_zero]; omega)
    have hall : scenario.frames.toNat ≤ scenario.roundLength := by
      rw [roundLength, if_pos hzero]
      exact Nat.le_max_right _ _
    rw [Nat.add_mul, Nat.one_mul] at h
    omega

/-- At the start of a round, the rounds that are still to come are the scenario's. -/
theorem movesFrom_eq_ofRounds (round : Nat) (start : UInt32)
    (hstart : start.toNat = min (round * scenario.roundLength) scenario.frames.toNat) :
    scenario.movesFrom arrange start =
      Move.ofRounds ((scenario.rounds.drop round).map arrange) := by
  rw [movesFrom]
  by_cases hround : round < scenario.rounds.length
  · -- The counter stands where this round starts, and the next starts where it ends.
    have hbelow := lt_length_rounds_iff.mp hround
    have hfinish : (scenario.roundEnd start).toNat =
        min ((round + 1) * scenario.roundLength) scenario.frames.toNat := by
      rw [toNat_roundEnd, Nat.add_mul, Nat.one_mul]
      omega
    have hnumbers : List.range' start.toNat ((scenario.roundEnd start).toNat - start.toNat) =
        scenario.rounds[round] := by
      rw [rounds_getElem hround, roundNumbers_eq_range' hbelow, hfinish, hstart,
        Nat.min_eq_left (Nat.le_of_lt hbelow), Nat.add_mul, Nat.one_mul]
    have hlast : (scenario.rounds.drop (round + 1)).map arrange = [] ↔
        ¬ round + 1 < scenario.rounds.length := by
      rw [List.map_eq_nil_iff, List.drop_eq_nil_iff, Nat.not_lt]
    have hlater := movesFrom_eq_ofRounds (round + 1) (scenario.roundEnd start) hfinish
    rw [if_pos (by rw [UInt32.lt_iff_toNat_lt]; omega), List.drop_eq_getElem_cons hround,
      List.map_cons, Move.ofRounds_cons]
    simp only [hnumbers, hlater, ratchets_after_iff hfinish, hlast, ite_not]
  · -- No round is left, and the counter stands at the number of frames.
    rw [List.drop_eq_nil_of_le (Nat.not_lt.mp hround)]
    rw [lt_length_rounds_iff] at hround
    rw [if_neg (by rw [UInt32.lt_iff_toNat_lt]; omega)]
    rfl
termination_by scenario.rounds.length - round

theorem movesFrom_zero :
    scenario.movesFrom arrange 0 = Move.ofRounds (scenario.rounds.map arrange) :=
  movesFrom_eq_ofRounds 0 0 (by rw [UInt32.toNat_zero, Nat.zero_mul, Nat.zero_min])

/-! ## What the loop does -/

theorem flatten_rounds (scenario : Scenario) :
    scenario.rounds.flatten = List.range scenario.frames.toNat := by
  by_cases hframes : 0 < scenario.frames.toNat
  · exact (evenly_rounds hframes).2
  · have hfirst : 0 < scenario.rounds.length ↔ _ := lt_length_rounds_iff
    rw [Nat.zero_mul] at hfirst
    have hnone : scenario.rounds = [] := List.length_eq_zero_iff.mp (by omega)
    rw [hnone, Nat.eq_zero_of_not_pos hframes]
    rfl

theorem forall₂_perm_map (harrange : ∀ round, (arrange round).Perm round)
    (rounds : List (List Nat)) : List.Forall₂ List.Perm (rounds.map arrange) rounds := by
  rw [List.forall₂_map_left_iff, List.forall₂_same]
  exact fun round _ => harrange round

theorem flatten_map_arrange (scenario : Scenario)
    (harrange : ∀ round, (arrange round).Perm round) :
    (scenario.rounds.map arrange).flatten.Perm (List.range scenario.frames.toNat) := by
  rw [← flatten_rounds]
  exact List.Perm.flatten_congr (forall₂_perm_map harrange _)

theorem count_send_movesFrom (harrange : ∀ round, (arrange round).Perm round) (number : Nat) :
    (scenario.movesFrom arrange 0).count (.send number) =
      if number < scenario.frames.toNat then 1 else 0 := by
  rw [movesFrom_zero, Move.count_send_ofRounds, (flatten_map_arrange scenario harrange).count_eq,
    List.count_range]

theorem length_rounds_sub_one (scenario : Scenario) :
    scenario.rounds.length - 1 =
      if scenario.ratchetEvery = 0 ∨ scenario.frames = 0 then 0
      else (scenario.frames.toNat - 1) / scenario.ratchetEvery.toNat := by
  by_cases hframes : scenario.frames = 0
  · have hnone := congrArg List.length scenario.flatten_rounds
    have hfirst : 0 < scenario.rounds.length ↔ _ := lt_length_rounds_iff
    rw [hframes, UInt32.toNat_zero] at hfirst
    rw [if_pos (.inr hframes)]
    omega
  · have hsome : 0 < scenario.frames.toNat :=
      Nat.pos_of_ne_zero fun hzero => hframes (UInt32.toNat_inj.mp hzero)
    rw [length_rounds hsome, roundCount]
    by_cases hnever : scenario.ratchetEvery = 0
    · rw [if_pos hnever, if_pos (.inl hnever)]
    · have hpos : 0 < scenario.ratchetEvery.toNat :=
        Nat.pos_of_ne_zero fun hzero => hnever (UInt32.toNat_inj.mp hzero)
      have hceil : scenario.frames.toNat + scenario.ratchetEvery.toNat - 1 =
          scenario.frames.toNat - 1 + scenario.ratchetEvery.toNat := by omega
      rw [if_neg hnever, if_neg (not_or.mpr ⟨hnever, hframes⟩), hceil,
        Nat.add_div_right _ hpos, Nat.add_sub_cancel]

theorem count_ratchet_movesFrom :
    (scenario.movesFrom arrange 0).count .ratchet =
      if scenario.ratchetEvery = 0 ∨ scenario.frames = 0 then 0
      else (scenario.frames.toNat - 1) / scenario.ratchetEvery.toNat := by
  rw [movesFrom_zero, Move.count_ratchet_ofRounds, List.length_map, length_rounds_sub_one]

theorem count_ratchet_movesFrom_le :
    (scenario.movesFrom arrange 0).count .ratchet ≤ lastGeneration.toNat := by
  have hlast : lastGeneration.toNat = UInt32.size - 1 := rfl
  have hframes := scenario.frames.toNat_lt_size
  have hquotient := Nat.div_le_self (scenario.frames.toNat - 1) scenario.ratchetEvery.toNat
  rw [count_ratchet_movesFrom]
  split <;> omega

theorem div_of_mem_rounds {round number : Nat} {numbers : List Nat}
    (hround : scenario.rounds[round]? = some numbers) (hmem : number ∈ numbers) :
    number / scenario.roundLength = round := by
  obtain ⟨hlt, rfl⟩ := List.getElem?_eq_some_iff.mp hround
  rw [rounds_getElem hlt, roundNumbers, List.mem_range'_1] at hmem
  have hpos := scenario.roundLength_pos
  refine Nat.div_eq_of_lt_le hmem.1 ?_
  rw [Nat.add_mul, Nat.one_mul]
  omega

/-- If the key is never advanced, the quotient is zero as well. -/
theorem count_ratchet_before_send (harrange : ∀ round, (arrange round).Perm round)
    {before after : List Move} {number : Nat}
    (hmoves : scenario.movesFrom arrange 0 = before ++ .send number :: after) :
    before.count .ratchet = number / scenario.ratchetEvery.toNat := by
  by_cases hnever : scenario.ratchetEvery = 0
  · have hall : before.count .ratchet ≤ (scenario.movesFrom arrange 0).count .ratchet := by
      rw [hmoves, List.count_append]
      exact Nat.le_add_right _ _
    rw [count_ratchet_movesFrom, if_pos (.inl hnever)] at hall
    rw [hnever, UInt32.toNat_zero, Nat.div_zero]
    exact Nat.le_zero.mp hall
  rw [movesFrom_zero] at hmoves
  obtain ⟨order, horder, hmem⟩ := Move.count_ratchet_before hmoves
  rw [List.getElem?_map, Option.map_eq_some_iff] at horder
  obtain ⟨numbers, hnumbers, rfl⟩ := horder
  rw [← roundLength_of_ratchets hnever,
    div_of_mem_rounds hnumbers ((harrange numbers).mem_iff.mp hmem)]

end Scenario

end MediaSeal
