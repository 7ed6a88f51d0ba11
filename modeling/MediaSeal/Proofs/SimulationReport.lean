import MediaSeal.Proofs.Rounds
import MediaSeal.Proofs.Standing
import MediaSeal.Proofs.Synchrony

/-!
# What a simulation reports

The report of a simulated call can be told without playing it. All frames of a
round meet the same two keys, so they share one fate, and the receiver's
recorder hears of the first of them alone. From one round to the next the
sender gets ahead by one generation. A receiver that searches at all finds that
key and is level again when the round is over; one that does not search loses
every frame from there on.

The counting is done in `Standing`. Here a round and then all rounds are walked
through, by induction: `StandsAt.sendRound` says what a round of frames comes
to, and `StandsAt.sendRounds` carries `Standing.afterRounds` from each round to
the next. Nowhere does the order inside a round matter, as what happens to a
frame depends on its place alone, and not on its number.
-/

namespace MediaSeal

namespace Scenario

/-- What the frame of a number holds. -/
def payload (scenario : Scenario) (number : Nat) : Bytes :=
  framePayload scenario.seed (UInt32.ofNat number) scenario.frameSize

/-- The frame of a number as a call sends it. -/
def frameOf (scenario : Scenario) (start : Call) (number : Nat) : Frame :=
  start.frame (scenario.payload number) (scenario.isKeyFrame number)

/-- What becomes of a sealed frame, whether or not the receiver finds the key. -/
def fate (scenario : Scenario) (found : Prop) [Decidable found] (number : Nat) : Delivery :=
  if found then .delivered (scenario.payload number) else .droppedAtReceiver

/-- What the report of a call is that nobody disturbs. -/
def foreseen (scenario : Scenario) : Report :=
  let frames := scenario.frames.toNat
  let ratchets := scenario.roundCount - 1
  if 1 ≤ scenario.window.toNat ∨ ratchets = 0 then
    { sent := frames
      delivered := frames
      droppedAtSender := 0
      droppedAtReceiver := 0
      ratchets
      receiverGeneration := some (UInt32.ofNat ratchets)
      senderOutcomes := [.ok]
      receiverOutcomes := .ok :: (List.replicate ratchets [.keyRatcheted, .ok]).flatten
      violations := [] }
  else
    { sent := frames
      delivered := scenario.ratchetEvery.toNat
      droppedAtSender := 0
      droppedAtReceiver := frames - scenario.ratchetEvery.toNat
      ratchets
      receiverGeneration := some 0
      senderOutcomes := [.ok]
      receiverOutcomes := [.ok, .decryptionFailed]
      violations := [] }

theorem length_payload (scenario : Scenario) (number : Nat) :
    (scenario.payload number).length = scenario.frameSize :=
  Entropy.length_draw _ (.stream (KeyStream.ofSeed _))

section Fate

variable {scenario : Scenario} {found : Prop} [Decidable found]

theorem fate_congr {other : Prop} [Decidable other] (h : found ↔ other) :
    scenario.fate found = scenario.fate other :=
  funext fun _ => if_congr h rfl rfl

theorem countP_map_fate (numbers : List Nat) :
    (numbers.map (scenario.fate found)).countP (·.isDelivered) =
      if found then numbers.length else 0 := by
  rw [List.countP_map]
  split
  · next hfound =>
      refine List.countP_eq_length.mpr fun number _ => ?_
      rw [Function.comp_apply, fate, if_pos hfound]
      rfl
  · next hlost =>
      refine List.countP_eq_zero.mpr fun number _ => ?_
      rw [Function.comp_apply, fate, if_neg hlost]
      exact Bool.false_ne_true

theorem count_droppedAtSender_map_fate (numbers : List Nat) :
    (numbers.map (scenario.fate found)).count .droppedAtSender = 0 := by
  refine List.count_eq_zero.mpr fun hmem => ?_
  obtain ⟨number, -, hfate⟩ := List.mem_map.mp hmem
  unfold fate at hfate
  split at hfate <;> cases hfate

theorem count_droppedAtReceiver_map_fate (numbers : List Nat) :
    (numbers.map (scenario.fate found)).count .droppedAtReceiver =
      if found then 0 else numbers.length := by
  split
  · next hfound =>
      refine List.count_eq_zero.mpr fun hmem => ?_
      obtain ⟨number, -, hfate⟩ := List.mem_map.mp hmem
      rw [fate, if_pos hfound] at hfate
      cases hfate
  · next hlost =>
      rw [← List.length_map (scenario.fate found)]
      refine List.count_eq_length.mpr fun delivery hmem => ?_
      obtain ⟨number, -, hfate⟩ := List.mem_map.mp hmem
      rw [← hfate, fate, if_neg hlost]

end Fate

end Scenario

/-! ## Rounds of frames -/

namespace Call

variable {scenario : Scenario} {start now : Call} {algorithm : Algorithm} {options : KeyOptions}
  {base : KeyMaterial} {place : Nat} {standing : Standing}

theorem StandsAt.sendFrame (h : start.StandsAt now algorithm options base place standing)
    (hsize : 1 ≤ scenario.frameSize ∧ scenario.frameSize ≤ Gcm.maxLength) {number : Nat}
    (hframe : start.UnambiguousAt (scenario.frameOf start number) place standing.ahead) :
    (scenario.sendFrame now number).1 =
        scenario.fate (standing.InReach options.window.toNat) number ∧
      start.StandsAt (scenario.sendFrame now number).2 algorithm options base (place + 1)
        (standing.arrive options.window.toNat) := by
  rw [← scenario.length_payload number] at hsize
  exact h.send (List.ne_nil_of_length_pos hsize.1) hsize.2 hframe

/-- Frames that follow one of their own round. -/
theorem StandsAt.sendRound_of_settled
    (hsize : 1 ≤ scenario.frameSize ∧ scenario.frameSize ≤ Gcm.maxLength)
    (hsettled : standing.arrive options.window.toNat = standing) (round : List Nat)
    (h : start.StandsAt now algorithm options base place standing)
    (hframes : ∀ i number, round[i]? = some number →
      start.UnambiguousAt (scenario.frameOf start number) (place + i) standing.ahead) :
    (scenario.sendRound now round).1 =
        round.map (scenario.fate (standing.InReach options.window.toNat)) ∧
      start.StandsAt (scenario.sendRound now round).2 algorithm options base
        (place + round.length) standing := by
  induction round generalizing now place with
  | nil => exact ⟨rfl, h⟩
  | cons number round ih =>
      obtain ⟨hfate, hsent⟩ := h.sendFrame hsize (hframes 0 number rfl)
      rw [hsettled] at hsent
      obtain ⟨hfates, hnext⟩ := ih hsent fun i later hlater => by
        rw [Nat.add_assoc, Nat.add_comm 1]
        exact hframes (i + 1) later hlater
      rw [Nat.add_assoc, Nat.add_comm 1] at hnext
      refine ⟨?_, hnext⟩
      rw [List.map_cons, ← hfate, ← hfates]
      rfl

/-- All frames of a round meet with one fate, and after the first of them
nothing changes any more. -/
theorem StandsAt.sendRound
    (hsize : 1 ≤ scenario.frameSize ∧ scenario.frameSize ≤ Gcm.maxLength) {round : List Nat}
    (hround : 1 ≤ round.length) (h : start.StandsAt now algorithm options base place standing)
    (hframes : ∀ i number, round[i]? = some number →
      start.UnambiguousAt (scenario.frameOf start number) (place + i) standing.ahead) :
    (scenario.sendRound now round).1 =
        round.map (scenario.fate (standing.InReach options.window.toNat)) ∧
      start.StandsAt (scenario.sendRound now round).2 algorithm options base
        (place + round.length) (standing.arrive options.window.toNat) := by
  cases round with
  | nil => exact absurd hround (Nat.not_succ_le_zero 0)
  | cons number round =>
      obtain ⟨hfate, hsent⟩ := h.sendFrame hsize (hframes 0 number rfl)
      obtain ⟨hfates, hnext⟩ := sendRound_of_settled hsize Standing.arrive_arrive
        round hsent fun i later hlater => by
          rw [Nat.add_assoc, Nat.add_comm 1]
          exact hframes (i + 1) later hlater
      rw [Nat.add_assoc, Nat.add_comm 1] at hnext
      refine ⟨?_, hnext⟩
      rw [Scenario.fate_congr Standing.inReach_arrive] at hfates
      rw [List.map_cons, ← hfate, ← hfates]
      rfl

/-- These frames, sent from a place on, each in the generation that its place
tells, are unambiguous. -/
def UnambiguousFrom (start : Call) (scenario : Scenario) (length place : Nat)
    (numbers : List Nat) : Prop :=
  ∀ i number, numbers[i]? = some number →
    start.UnambiguousAt (scenario.frameOf start number) (place + i) ((place + i) / length)

theorem UnambiguousFrom.round {length more : Nat} {round later : List Nat} (hpos : 0 < length)
    (hplace : place = more * length) (hround : round.length ≤ length)
    (h : start.UnambiguousFrom scenario length place (round ++ later)) :
    ∀ i number, round[i]? = some number →
      start.UnambiguousAt (scenario.frameOf start number) (place + i) more := by
  intro i number hnumber
  obtain ⟨hi, -⟩ := List.getElem?_eq_some_iff.mp hnumber
  have hgeneration : (place + i) / length = more := by
    rw [hplace, Nat.mul_comm, Nat.mul_add_div hpos,
      Nat.div_eq_of_lt (Nat.lt_of_lt_of_le hi hround), Nat.add_zero]
  rw [← hgeneration]
  exact h i number (by rw [List.getElem?_append_left hi, hnumber])

theorem UnambiguousFrom.later {length place : Nat} {round later : List Nat}
    (h : start.UnambiguousFrom scenario length place (round ++ later)) :
    start.UnambiguousFrom scenario length (place + round.length) later := by
  intro i number hnumber
  rw [Nat.add_assoc]
  refine h (round.length + i) number ?_
  rw [List.getElem?_append_right (Nat.le_add_right _ _), Nat.add_sub_cancel_left, hnumber]

section Rounds

variable {length more : Nat} {round : List Nat} {rest : List (List Nat)}

theorem StandsAt.sendFirstRound
    (hsize : 1 ≤ scenario.frameSize ∧ scenario.frameSize ≤ Gcm.maxLength) (hpos : 0 < length)
    (heven : Evenly length (round :: rest))
    (h : start.StandsAt now algorithm options base place standing)
    (hplace : place = more * length) (hahead : standing.ahead = more)
    (harrive : standing.arrive options.window.toNat = .afterRounds options.window.toNat more)
    (hframes : start.UnambiguousFrom scenario length place (round ++ rest.flatten)) :
    (scenario.sendRound now round).1 =
        round.map (scenario.fate (standing.InReach options.window.toNat)) ∧
      start.StandsAt (scenario.sendRound now round).2 algorithm options base
        (place + round.length) (.afterRounds options.window.toNat more) := by
  obtain ⟨hround, hshort, -⟩ := heven.of_cons hpos
  rw [← harrive]
  refine h.sendRound hsize hround ?_
  rw [hahead]
  exact hframes.round hpos hplace hshort

/-- Rounds with an advance of the sender's key before each but the first. -/
theorem StandsAt.sendRounds
    (hsize : 1 ≤ scenario.frameSize ∧ scenario.frameSize ≤ Gcm.maxLength) (hpos : 0 < length)
    (heven : Evenly length (round :: rest))
    (h : start.StandsAt now algorithm options base place standing)
    (hplace : place = more * length) (hahead : standing.ahead = more)
    (harrive : standing.arrive options.window.toNat = .afterRounds options.window.toNat more)
    (hroom : more + rest.length ≤ lastGeneration.toNat)
    (hframes : start.UnambiguousFrom scenario length place (round ++ rest.flatten)) :
    ∃ played, scenario.sendRounds now (round :: rest) = .ok played ∧
      played.deliveries = round.map (scenario.fate (standing.InReach options.window.toNat)) ++
        rest.flatten.map (scenario.fate (1 ≤ options.window.toNat)) ∧
      played.ratchets = rest.length ∧
      start.StandsAt played.call algorithm options base
        (place + (round.length + rest.flatten.length))
        (.afterRounds options.window.toNat (more + rest.length)) := by
  induction rest generalizing now place standing round more with
  | nil =>
      obtain ⟨hfates, hsent⟩ := h.sendFirstRound hsize hpos heven hplace hahead harrive hframes
      rw [List.flatten_nil, List.map_nil, List.append_nil]
      exact ⟨_, rfl, hfates, rfl, hsent⟩
  | cons next rest ih =>
      obtain ⟨hfates, hsent⟩ := h.sendFirstRound hsize hpos heven hplace hahead harrive hframes
      -- The sender's key is advanced, and the other rounds follow.
      have hmore := Standing.ahead_afterRounds options.window.toNat more
      rw [List.length_cons] at hroom
      obtain ⟨later, hlater, hstands⟩ := hsent.ratchetSender (by omega)
      obtain ⟨-, -, hfull⟩ := heven.of_cons hpos
      obtain ⟨hlength, hnext⟩ := hfull (List.cons_ne_nil _ _)
      have hnextPlace : place + round.length = (more + 1) * length := by
        rw [hplace, hlength, Nat.add_mul, Nat.one_mul]
      obtain ⟨played, hplayed, hdeliveries, hratchets, hend⟩ := ih hnext hstands hnextPlace
        (congrArg (· + 1) hmore) (Standing.arrive_ratchet_afterRounds _ _) (by omega)
        hframes.later
      rw [Scenario.fate_congr (Standing.inReach_ratchet_afterRounds _ _)] at hdeliveries
      refine ⟨⟨(scenario.sendRound now round).1 ++ played.deliveries, played.ratchets + 1,
        played.call⟩, ?_, ?_, ?_, ?_⟩
      · rw [Scenario.sendRounds]
        simp only [hlater, hplayed, bind, Except.bind]
        rfl
      · rw [hfates, hdeliveries, List.flatten_cons, List.map_append]
      · rw [hratchets, List.length_cons]
      · rw [List.flatten_cons, List.length_append, ← Nat.add_assoc place, List.length_cons,
          Nat.add_comm rest.length, ← Nat.add_assoc more]
        exact hend

end Rounds

/-- What can be seen of a call in which a frame was sent. -/
theorem StandsAt.snapshot (h : start.StandsAt now algorithm options base place standing)
    (hplace : 0 < place) :
    now.snapshot.senderOutcomes = [.ok] ∧ now.snapshot.receiverOutcomes = standing.heard ∧
      now.snapshot.receiverGenerations.getLast? = some (UInt32.ofNat standing.behind) ∧
      Audit.standard.violations now.snapshot = [] := by
  refine ⟨?_, h.receiverHeard, ?_, Audit.violations_standard_eq_nil_iff.mpr h.kept.lawful⟩
  · obtain ⟨earlier, rfl⟩ := Nat.exists_eq_add_of_le' hplace
    exact h.senderHeard.trans (by rw [List.take_succ_cons, List.take_nil])
  · obtain ⟨key, hkey, hreceiver⟩ := h.receiverKey
    have hcount := KeyMaterial.toNat_generation_of_advance hkey
    rw [h.base_first, UInt32.toNat_zero, Nat.zero_add] at hcount
    rw [← hcount, UInt32.ofNat_toNat]
    exact (h.generation hplace).trans (by rw [hreceiver, Option.map_some])

end Call

/-! ## The report -/

namespace Scenario

variable {scenario : Scenario} {algorithm : Algorithm} {media : MediaKind} {order : List Nat}
  {orders : List (List Nat)}

/-- The rounds that an order puts first and later, and their frames. -/
theorem lengths_of_perm_rounds (hframes : 0 < scenario.frames.toNat)
    (horders : List.Forall₂ List.Perm (order :: orders) scenario.rounds) :
    orders.length = scenario.roundCount - 1 ∧
      order.length + orders.flatten.length = scenario.frames.toNat ∧
      (orders ≠ [] → order.length = scenario.ratchetEvery.toNat) := by
  have hcount := horders.length_eq
  rw [length_rounds hframes, List.length_cons] at hcount
  obtain ⟨heven, hflat⟩ := evenly_rounds hframes
  refine ⟨by omega, ?_, ?_⟩
  · have hall := (List.Perm.flatten_congr horders).length_eq
    rwa [hflat, List.length_range, List.flatten_cons, List.length_append] at hall
  · intro hmore
    have hratchets : scenario.ratchetEvery ≠ 0 := by
      intro hnever
      rw [roundCount, if_pos hnever] at hcount
      exact hmore (List.length_eq_zero_iff.mp (by omega))
    obtain ⟨-, -, hfull⟩ := (heven.of_forall₂_perm horders).of_cons scenario.roundLength_pos
    exact (hfull hmore).1.trans (roundLength_of_ratchets hratchets)

theorem Startable.sendRounds (h : scenario.Startable algorithm media)
    (hframes : 0 < scenario.frames.toNat)
    (hsize : 1 ≤ scenario.frameSize ∧ scenario.frameSize ≤ Gcm.maxLength)
    (horders : List.Forall₂ List.Perm (order :: orders) scenario.rounds)
    (hunambiguous : (scenario.firstCall algorithm media).UnambiguousFrom scenario
      scenario.roundLength 0 (order :: orders).flatten) :
    ∃ played base, scenario.sendRounds (scenario.firstCall algorithm media) (order :: orders) =
        .ok played ∧
      played.deliveries = order.map (scenario.fate True) ++
        orders.flatten.map (scenario.fate (1 ≤ scenario.window.toNat)) ∧
      played.ratchets = orders.length ∧
      (scenario.firstCall algorithm media).StandsAt played.call algorithm scenario.keyOptions base
        scenario.frames.toNat (.afterRounds scenario.window.toNat orders.length) := by
  obtain ⟨-, htotal, -⟩ := lengths_of_perm_rounds hframes horders
  have heven := (evenly_rounds hframes).1.of_forall₂_perm horders
  have hroom : 0 + orders.length ≤ lastGeneration.toNat := by
    have hle := heven.length_le_flatten scenario.roundLength_pos
    have hlast : lastGeneration.toNat = UInt32.size - 1 := rfl
    have hlt := scenario.frames.toNat_lt_size
    rw [List.flatten_cons, List.length_append, List.length_cons] at hle
    omega
  have hreach : scenario.fate (Standing.InReach scenario.window.toNat ⟨0, 0, []⟩) =
      scenario.fate True :=
    fate_congr (iff_true_intro (Nat.zero_le _))
  obtain ⟨played, hplayed, hdeliveries, hratchets, hend⟩ :=
    h.standsAt.sendRounds hsize scenario.roundLength_pos heven
      (Nat.zero_mul _).symm rfl (Standing.arrive_start _) hroom hunambiguous
  have hwindow : scenario.keyOptions.window = scenario.window := rfl
  rw [hwindow, hreach] at hdeliveries
  rw [Nat.zero_add, Nat.zero_add, htotal] at hend
  exact ⟨played, _, hplayed, hdeliveries, hratchets, hend⟩

end Scenario

/-- The frames of each round may be sent in any order, that of the scenario's own
rounds among them: what the simulation reports is known beforehand. It gets to its
report if there is a buffer for the handles of all workers. -/
theorem report_is_foreseen {scenario : Scenario} {call : Call}
    (hstart : Call.start scenario = .ok call) (hframes : 0 < scenario.frames.toNat)
    (hsize : 1 ≤ scenario.frameSize ∧ scenario.frameSize ≤ Gcm.maxLength)
    {orders : List (List Nat)} (horders : List.Forall₂ List.Perm orders scenario.rounds)
    (hunambiguous : call.UnambiguousFrom scenario scenario.roundLength 0 orders.flatten) :
    scenario.play orders = .ok scenario.foreseen ∧
      (scenario.workers * handleSize ≤ maxBuffer →
        scenario.run orders = .ok scenario.foreseen) := by
  obtain ⟨algorithm, media, hstartable, rfl⟩ := Scenario.start_eq_ok_iff.mp hstart
  obtain ⟨order, orders, rfl⟩ : ∃ order rest, orders = order :: rest :=
    List.exists_cons_of_ne_nil ((Scenario.evenly_rounds hframes).1.of_forall₂_perm horders).ne_nil
  obtain ⟨hcount, htotal, hfull⟩ := Scenario.lengths_of_perm_rounds hframes horders
  obtain ⟨played, base, hplayed, hdeliveries, hratchets, hstands⟩ :=
    hstartable.sendRounds hframes hsize horders hunambiguous
  obtain ⟨hsender, hreceiver, hgeneration, hviolations⟩ := hstands.snapshot hframes
  have hplay : scenario.play (order :: orders) = .ok scenario.foreseen := by
    unfold Scenario.play
    simp only [hstart, hplayed, Except.mapError, bind, Except.bind, pure, Except.pure, hsender,
      hreceiver, hgeneration, hviolations, hratchets, hdeliveries, List.length_append,
      List.countP_append, List.count_append, List.length_map, Scenario.countP_map_fate,
      Scenario.count_droppedAtSender_map_fate, Scenario.count_droppedAtReceiver_map_fate, if_true,
      htotal, Nat.zero_add, Scenario.foreseen, ← hcount]
    by_cases hfound : 1 ≤ scenario.window.toNat
    · simp only [Standing.afterRounds, hfound, true_or, if_true, htotal]
    · cases orders with
      | nil =>
          rw [List.flatten_nil, List.length_nil, Nat.add_zero] at htotal
          simp only [Standing.afterRounds, hfound, List.length_nil, or_true, if_true, if_false,
            htotal, List.flatten_nil, Nat.add_zero]
      | cons next orders =>
          have hlater := hfull (List.cons_ne_nil _ _)
          have hlost : (next :: orders).flatten.length =
              scenario.frames.toNat - scenario.ratchetEvery.toNat := by omega
          simp only [Standing.afterRounds, hfound, List.length_cons, Nat.add_one_ne_zero, or_self,
            if_false, hlater, hlost, Nat.add_zero]
          rfl
  refine ⟨hplay, fun hworkers => ?_⟩
  have hfits : scenario.frameSize ≤ maxBuffer := Nat.le_trans hsize.2 (by decide)
  rw [Scenario.run_eq_of_play hstart hplay, if_pos (Scenario.fits_of_le hworkers hfits)]

/-- Two rounds, of two frames and of one. -/
def threeFrames : Scenario where
  participant := "a"
  algorithm := "aes-gcm"
  media := "audio"
  sharedKey := true
  salt := ""
  window := 1
  marker := "mark"
  ringSize := 1
  tolerance := some 0
  key := "\x01"
  keyIndex := 0
  frames := 3
  frameSize := 1
  keyFrameInterval := 0
  ratchetEvery := 2
  workers := 2
  seed := 0

def threeFramesCall : Call := threeFrames.firstCall .aesGcm .audio

theorem startable_threeFrames : threeFrames.Startable .aesGcm .audio where
  cipher_eq := by decide +kernel
  media_eq := by decide +kernel
  faultless := by decide
  options_faultless := by decide
  index_in := by decide

theorem lastFrame_closed :
    (SealedFrame.ofFrame (threeFrames.frameOf threeFramesCall 2) .aesGcm 0 skippedToKey
      ((threeFramesCall.entropy.afterDraws 12 2).draw 12).1).toOption.bind
      (·.openWith? suppliedKey) = none := by
  rw [skippedToKey_eq, suppliedKey_eq]
  decide +kernel

theorem marker_threeFrames :
    threeFramesCall.marker.length = 4 ∧ threeFramesCall.marker.getLast? = some 107 := by
  decide +kernel

theorem sealedFrame_unmarked {number place generation : Nat} {sealed : SealedFrame}
    (h : threeFramesCall.SealsTo (threeFrames.frameOf threeFramesCall number) place generation
      sealed) : Marker.exempts threeFramesCall.marker sealed.toBytes = false := by
  obtain ⟨slot, base, key, -, -, hsealed⟩ := h
  obtain ⟨ciphertext, hparts, -⟩ := SealedFrame.ofFrame_eq_ok_iff.mp hsealed
  have hvector : sealed.iv.length = 12 := by
    rw [hparts]
    exact Entropy.length_draw 12 _
  have hannounced : sealed.trailer.ivLength = UInt8.ofNat sealed.iv.length := by rw [hparts]
  obtain ⟨hlength, hlast⟩ := marker_threeFrames
  apply SealedFrame.exempts_toBytes_eq_false
  · intro hwhole
    rw [hwhole, SealedFrame.length_toBytes, hvector] at hlength
    omega
  · rw [hlast, hannounced, hvector]
    decide

theorem unmarked_threeFrames (number : Nat) :
    Marker.exempts threeFramesCall.marker (threeFrames.frameOf threeFramesCall number).payload =
      false := by
  obtain ⟨hlength, -⟩ := marker_threeFrames
  have hpayload : (threeFrames.frameOf threeFramesCall number).payload.length = 1 := by
    rw [Scenario.frameOf, Call.payload_frame, Scenario.length_payload]
    rfl
  rw [← Bool.not_eq_true, Marker.exempts_iff]
  rintro ⟨-, hwhole | ⟨-, hends⟩⟩
  · rw [hwhole, hpayload] at hlength
    cases hlength
  · have hle := hends.length_le
    rw [hlength, List.length_dropLast, hpayload] at hle
    omega

theorem salt_threeFrames : threeFrames.keyOptions.salt = [] := by
  decide +kernel

theorem senderKey?_threeFrames : threeFramesCall.senderKey? = some suppliedKey := by
  have hraw : Bytes.ofText threeFrames.key = [1] := by decide +kernel
  have hkey := startable_threeFrames.senderKey?_firstCall
  rwa [hraw, salt_threeFrames] at hkey

theorem openWith?_lastFrame {sealed : SealedFrame}
    (h : threeFramesCall.SealsTo (threeFrames.frameOf threeFramesCall 2) 2 1 sealed) :
    sealed.openWith? suppliedKey = none := by
  obtain ⟨slot, base, key, hsealing, hkey, hframe⟩ := h
  obtain ⟨named, hnamed, -, hnow⟩ :=
    startable_threeFrames.setUp.sealingKey_eq senderKey?_threeFrames
  obtain ⟨rfl, rfl⟩ : named = slot ∧ suppliedKey = base :=
    Prod.mk.inj (Except.ok.inj (hnow.symm.trans hsealing))
  obtain rfl : named = 0 := UInt8.toNat_inj.mp (Int.natCast_inj.mp hnamed.symm)
  have hsalt : threeFramesCall.sender.store.options.salt = [] :=
    (congrArg KeyOptions.salt startable_threeFrames.setUp.sender.options_eq).trans salt_threeFrames
  rw [hsalt] at hkey
  obtain rfl : skippedToKey = key := Except.ok.inj hkey
  have hsealed : SealedFrame.ofFrame (threeFrames.frameOf threeFramesCall 2) .aesGcm 0
      skippedToKey ((threeFramesCall.entropy.afterDraws 12 2).draw 12).1 = .ok sealed :=
    hframe
  have hclosed := lastFrame_closed
  rwa [hsealed] at hclosed

theorem unambiguousFrom_threeFrames (first second : Nat) :
    threeFramesCall.UnambiguousFrom threeFrames threeFrames.roundLength 0 [first, second, 2] := by
  intro place number hnumber
  refine ⟨unmarked_threeFrames number, sealedFrame_unmarked, ?_⟩
  intro sealed base hsealed hbase earlier hearlier body hopens
  -- Only the last frame has a generation before its own.
  obtain ⟨hplace, -⟩ := List.getElem?_eq_some_iff.mp hnumber
  have hlength : threeFrames.roundLength = 2 := rfl
  rw [hlength, Nat.zero_add] at hearlier hsealed
  have hthree : place < 3 := hplace
  obtain rfl : place = 2 := by omega
  obtain rfl : 2 = number := Option.some.inj hnumber
  obtain rfl : earlier = 0 := by omega
  obtain rfl : suppliedKey = base := Option.some.inj (senderKey?_threeFrames.symm.trans hbase)
  obtain ⟨opening, hopening, hbody⟩ := hopens
  obtain rfl : suppliedKey = opening := Except.ok.inj hopening
  have hopened := SealedFrame.openWith?_eq_some hbody
  rw [openWith?_lastFrame hsealed] at hopened
  cases hopened

theorem report_is_foreseen_threeFrames :
    Call.start threeFrames = .ok threeFramesCall ∧
      List.Forall₂ List.Perm [[1, 0], [2]] threeFrames.rounds ∧
      threeFramesCall.UnambiguousFrom threeFrames threeFrames.roundLength 0 [1, 0, 2] ∧
      threeFrames.play [[1, 0], [2]] = .ok
        { sent := 3
          delivered := 3
          droppedAtSender := 0
          droppedAtReceiver := 0
          ratchets := 1
          receiverGeneration := some 1
          senderOutcomes := [.ok]
          receiverOutcomes := [.ok, .keyRatcheted, .ok]
          violations := [] } ∧
      threeFrames.simulate = threeFrames.play [[1, 0], [2]] ∧
      threeFrames.run threeFrames.rounds = .ok threeFrames.foreseen := by
  have hstart := Scenario.start_of_startable startable_threeFrames
  have horders : List.Forall₂ List.Perm [[1, 0], [2]] threeFrames.rounds :=
    .cons (.swap 0 1 []) (.cons (.refl [2]) .nil)
  have hinOrder : List.Forall₂ List.Perm threeFrames.rounds threeFrames.rounds :=
    .cons (.refl [0, 1]) (.cons (.refl [2]) .nil)
  obtain ⟨hswapped, -⟩ :=
    report_is_foreseen hstart (by decide) (by decide) horders (unambiguousFrom_threeFrames 1 0)
  obtain ⟨hsimulated, hrun⟩ :=
    report_is_foreseen hstart (by decide) (by decide) hinOrder (unambiguousFrom_threeFrames 0 1)
  exact ⟨hstart, horders, unambiguousFrom_threeFrames 1 0, hswapped,
    hsimulated.trans hswapped.symm, hrun (by decide)⟩

end MediaSeal
