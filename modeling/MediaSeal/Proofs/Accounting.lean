import MediaSeal.Proofs.AuditedRuns
import MediaSeal.Proofs.Schedule
import MediaSeal.Proofs.Starting

/-!
# Every frame is accounted for

What becomes of a frame is noted in four places: by the path that it leaves the sender
on, by the path that it enters the receiver on, in the call's own record, and by
whoever sent it. `Call.Accounts` says that the four agree. A frame is pushed along the
second path only if it left the first, so each payload that is sent counts once on the
first, and once on the second if it got so far. This holds whatever the endpoints make
of the frame, so it holds through any change to the endpoints, to the keys and to what
is hooked up: only a path counts, and only when a frame is pushed along it.

That a run comes to its end is another matter. Once everything has its room, it could
only fail where the sender's key is advanced. Frames leave that key alone, so its
generation is the number of advances so far, and there are fewer of them than numbers
of frames. So a frame's number also tells which key it is sealed under. What a scenario
asks room for it asks at the first frame; a scenario of no frames fits anywhere.
-/

namespace MediaSeal

/-! ## Four accounts of one call -/

/-- A payload that was sent, whether the sender was switched on then, and what became
of it. -/
structure Sent where
  payload : Bytes
  encrypted : Bool
  delivery : Delivery

/-- What the call's record says was sent. -/
def FrameRecord.sent (record : FrameRecord) : Sent where
  payload := record.plaintext
  encrypted := record.encrypted
  delivery :=
    match record.wire, record.delivered with
    | none, _ => .droppedAtSender
    | some _, none => .droppedAtReceiver
    | some _, some payload => .delivered payload

/-- What can come over a call. -/
inductive CallEvent
  | step (step : CallStep)
  /-- One side is left with this endpoint, these keys and this hook, by whatever was
  done to them. -/
  | change (side : Direction) (endpoint : Endpoint Direction) (store : KeyStore)
      (hook : Option Direction)

def CallEvent.payload? : CallEvent → Option Bytes
  | .step (.send payload _) => some payload
  | .step .ratchetSender | .step (.provision _) | .change _ _ _ _ => none

/-- The side with all of it replaced that does not count. -/
def Leg.changed (leg : Leg) (endpoint : Endpoint Direction) (store : KeyStore)
    (hook : Option Direction) : Leg :=
  { leg with endpoint, store, path := { leg.path with hook } }

namespace Call

def afterEvent (call : Call) : CallEvent → Call
  | .step step => call.after step
  | .change .sender endpoint store hook =>
    { call with sender := call.sender.changed endpoint store hook }
  | .change .receiver endpoint store hook =>
    { call with receiver := call.receiver.changed endpoint store hook }

def sentIn (call : Call) : CallEvent → List Sent
  | .step (.send payload keyFrame) =>
    [⟨payload, call.sender.endpoint.enabled, (call.send payload keyFrame).1⟩]
  | .step .ratchetSender | .step (.provision _) | .change _ _ _ _ => []

/-- What is sent in the course of some events, and the call after them. -/
def through (call : Call) : List CallEvent → List Sent × Call
  | [] => ([], call)
  | event :: rest =>
    let (sent, last) := (call.afterEvent event).through rest
    (call.sentIn event ++ sent, last)

/-- The record and both paths agree with what was sent. -/
structure Accounts (call : Call) (sent : List Sent) : Prop where
  recorded : call.frames.map FrameRecord.sent = sent
  outbound : call.sender.path.forwarded + call.sender.path.dropped = sent.length
  inbound : call.receiver.path.forwarded + call.receiver.path.dropped =
    call.sender.path.forwarded
  delivered : (sent.map (·.delivery)).countP (·.isDelivered) = call.receiver.path.forwarded
  droppedAtReceiver :
    (sent.map (·.delivery)).count .droppedAtReceiver = call.receiver.path.dropped
  droppedAtSender : (sent.map (·.delivery)).count .droppedAtSender = call.sender.path.dropped

end Call

theorem MediaPath.total_count {Hook : Type} (path : MediaPath Hook) (output : Option Frame) :
    (path.count output).forwarded + (path.count output).dropped =
      path.forwarded + path.dropped + 1 := by
  cases output with
  | none => rfl
  | some frame => exact Nat.add_right_comm _ _ _

theorem Leg.path_push (leg : Leg) (entropy : Entropy) (frame : Frame) :
    (leg.push entropy frame).2.1.path = leg.path.count (leg.push entropy frame).1 := by
  unfold push
  cases leg.path.hook <;> rfl

namespace Call

/-- All that can become of a payload: it is held back by the first path, or by the
second, or by neither. -/
inductive SendsTo (call : Call) (payload : Bytes) : Delivery × Call → Prop
  | refused {sender : Leg} (entropy : Entropy)
      (outbound : sender.path = call.sender.path.count none) :
      SendsTo call payload (.droppedAtSender,
        call.recorded sender call.receiver entropy
          ⟨payload, call.sender.endpoint.enabled, none, none⟩)
  | lost {sender receiver : Leg} (entropy : Entropy) {wire : Frame}
      (outbound : sender.path = call.sender.path.count (some wire))
      (inbound : receiver.path = call.receiver.path.count none) :
      SendsTo call payload (.droppedAtReceiver,
        call.recorded sender receiver entropy
          ⟨payload, call.sender.endpoint.enabled, some wire.payload, none⟩)
  | received {sender receiver : Leg} (entropy : Entropy) {wire frame : Frame}
      (outbound : sender.path = call.sender.path.count (some wire))
      (inbound : receiver.path = call.receiver.path.count (some frame)) :
      SendsTo call payload (.delivered frame.payload,
        call.recorded sender receiver entropy
          ⟨payload, call.sender.endpoint.enabled, some wire.payload, some frame.payload⟩)

theorem sendsTo_send (call : Call) (payload : Bytes) (keyFrame : Bool) :
    call.SendsTo payload (call.send payload keyFrame) := by
  have houtbound := Leg.path_push call.sender call.entropy (call.frame payload keyFrame)
  rw [send]
  generalize call.sender.push call.entropy (call.frame payload keyFrame) = pushed at houtbound ⊢
  obtain ⟨wire, sender, entropy⟩ := pushed
  cases wire with
  | none => exact .refused entropy houtbound
  | some wire =>
      have hinbound := Leg.path_push call.receiver entropy wire
      dsimp only
      generalize call.receiver.push entropy wire = pushed at hinbound ⊢
      obtain ⟨delivered, receiver, entropy⟩ := pushed
      cases delivered with
      | none => exact .lost entropy houtbound hinbound
      | some frame => exact .received entropy houtbound hinbound

variable {call : Call} {sent : List Sent}

theorem Accounts.append (h : call.Accounts sent) {sender receiver : Leg} (entropy : Entropy)
    {record : FrameRecord}
    (houtbound : sender.path.forwarded + sender.path.dropped =
      call.sender.path.forwarded + call.sender.path.dropped + 1)
    (hinbound : receiver.path.forwarded + receiver.path.dropped + call.sender.path.forwarded =
      call.receiver.path.forwarded + call.receiver.path.dropped + sender.path.forwarded)
    (hdelivered : receiver.path.forwarded =
      call.receiver.path.forwarded + [record.sent.delivery].countP (·.isDelivered))
    (hlost : receiver.path.dropped =
      call.receiver.path.dropped + [record.sent.delivery].count .droppedAtReceiver)
    (hrefused : sender.path.dropped =
      call.sender.path.dropped + [record.sent.delivery].count .droppedAtSender) :
    (call.recorded sender receiver entropy record).Accounts (sent ++ [record.sent]) where
  recorded := by
    show (call.frames ++ [record]).map FrameRecord.sent = _
    rw [List.map_append, h.recorded, List.map_singleton]
  outbound := by
    rw [List.length_append, ← h.outbound]
    exact houtbound
  inbound := by
    have hbefore := h.inbound
    show receiver.path.forwarded + receiver.path.dropped = sender.path.forwarded
    omega
  delivered := by
    rw [List.map_append, List.countP_append, h.delivered]
    exact hdelivered.symm
  droppedAtReceiver := by
    rw [List.map_append, List.count_append, h.droppedAtReceiver]
    exact hlost.symm
  droppedAtSender := by
    rw [List.map_append, List.count_append, h.droppedAtSender]
    exact hrefused.symm

theorem Accounts.send (h : call.Accounts sent) (payload : Bytes) (keyFrame : Bool) :
    (call.send payload keyFrame).2.Accounts
      (sent ++
        [⟨payload, call.sender.endpoint.enabled, (call.send payload keyFrame).1⟩]) := by
  have hsends := call.sendsTo_send payload keyFrame
  generalize call.send payload keyFrame = outcome at hsends
  cases hsends with
  | refused entropy outbound =>
      refine h.append entropy ?_ ?_ rfl rfl ?_
      · rw [outbound, MediaPath.total_count]
      · rw [outbound]
        rfl
      · rw [outbound]
        rfl
  | lost entropy outbound inbound | received entropy outbound inbound =>
      refine h.append entropy ?_ ?_ ?_ ?_ ?_
      · rw [outbound, MediaPath.total_count]
      · rw [inbound, MediaPath.total_count, outbound]
        exact Nat.add_right_comm _ _ _
      · rw [inbound]
        rfl
      · rw [inbound]
        rfl
      · rw [outbound]
        rfl

/-- Whatever else happens, a path that no frame is pushed along does not count, and
nothing is recorded. -/
theorem Accounts.of_same {next : Call} (h : call.Accounts sent)
    (hframes : next.frames = call.frames)
    (hsender : next.sender.path.forwarded = call.sender.path.forwarded ∧
      next.sender.path.dropped = call.sender.path.dropped)
    (hreceiver : next.receiver.path.forwarded = call.receiver.path.forwarded ∧
      next.receiver.path.dropped = call.receiver.path.dropped) : next.Accounts sent where
  recorded := hframes ▸ h.recorded
  outbound := by rw [hsender.1, hsender.2, h.outbound]
  inbound := by rw [hsender.1, hreceiver.1, hreceiver.2, h.inbound]
  delivered := h.delivered.trans hreceiver.1.symm
  droppedAtReceiver := h.droppedAtReceiver.trans hreceiver.2.symm
  droppedAtSender := h.droppedAtSender.trans hsender.2.symm

theorem exists_withKeys_of_provision {raw : Bytes} {next : Call}
    (h : call.provision raw = .ok next) :
    ∃ sender receiver, next = call.withKeys sender receiver [] := by
  unfold provision at h
  cases hsender : call.sender.store.setKey call.participant call.keyIndex raw with
  | error error =>
      rw [hsender] at h
      cases h
  | ok sender =>
      cases hreceiver : call.receiver.store.setKey call.participant call.keyIndex raw with
      | error error =>
          rw [hsender, hreceiver] at h
          cases h
      | ok receiver =>
          rw [hsender, hreceiver] at h
          exact ⟨sender, receiver, (Except.ok.inj h).symm⟩

theorem Accounts.afterEvent (h : call.Accounts sent) (event : CallEvent) :
    (call.afterEvent event).Accounts (sent ++ call.sentIn event) := by
  cases event with
  | step step =>
      cases step with
      | send payload keyFrame => exact h.send payload keyFrame
      | ratchetSender =>
          rw [sentIn, List.append_nil, Call.afterEvent, after]
          cases hnext : call.ratchetSender with
          | error error => exact h
          | ok next =>
              obtain ⟨-, rfl⟩ := ratchetSender_eq_ok_iff.mp hnext
              exact h.of_same rfl ⟨rfl, rfl⟩ ⟨rfl, rfl⟩
      | provision raw =>
          rw [sentIn, List.append_nil, Call.afterEvent, after]
          cases hnext : call.provision raw with
          | error error => exact h
          | ok next =>
              obtain ⟨sender, receiver, rfl⟩ := exists_withKeys_of_provision hnext
              exact h.of_same rfl ⟨rfl, rfl⟩ ⟨rfl, rfl⟩
  | change side endpoint store hook =>
      rw [sentIn, List.append_nil]
      cases side with
      | sender => exact h.of_same rfl ⟨rfl, rfl⟩ ⟨rfl, rfl⟩
      | receiver => exact h.of_same rfl ⟨rfl, rfl⟩ ⟨rfl, rfl⟩

theorem Accounts.through (h : call.Accounts sent) (events : List CallEvent) :
    (call.through events).2.Accounts (sent ++ (call.through events).1) := by
  induction events generalizing call sent with
  | nil =>
      rw [Call.through, List.append_nil]
      exact h
  | cons event rest ih =>
      have hlater := ih (h.afterEvent event)
      rw [List.append_assoc] at hlater
      exact hlater

theorem map_payload_through (call : Call) (events : List CallEvent) :
    (call.through events).1.map (·.payload) = events.filterMap (·.payload?) := by
  induction events generalizing call with
  | nil => rfl
  | cons event rest ih =>
      have hevent : (call.sentIn event).map (·.payload) = event.payload?.toList := by
        cases event with
        | step step => cases step <;> rfl
        | change side endpoint store hook => rfl
      rw [Call.through, List.map_append, hevent, ih, List.filterMap_cons]
      cases event.payload? <;> rfl

end Call

/-! ## A run comes to its end -/

namespace Scenario

/-- The key that both sides start with. -/
def firstKey (scenario : Scenario) : KeyMaterial :=
  .supplied (Bytes.ofText scenario.key) (Bytes.ofText scenario.salt)

/-- Moves made one after the other. A key that cannot be advanced ends the run. -/
def perform (scenario : Scenario) (call : Call) : List Move → Except KeyError Played
  | [] => .ok ⟨[], 0, call⟩
  | .send number :: rest => do
    let (delivery, call) := scenario.sendFrame call number
    let later ← scenario.perform call rest
    return ⟨delivery :: later.deliveries, later.ratchets, later.call⟩
  | .ratchet :: rest => do
    let later ← scenario.perform (← call.ratchetSender) rest
    return ⟨later.deliveries, later.ratchets + 1, later.call⟩

variable {scenario : Scenario}

theorem perform_send_eq_ok {call : Call} {number : Nat} {rest : List Move} {later : Played}
    (h : scenario.perform (scenario.sendFrame call number).2 rest = .ok later) :
    scenario.perform call (.send number :: rest) =
      .ok ⟨(scenario.sendFrame call number).1 :: later.deliveries, later.ratchets, later.call⟩ := by
  simp only [perform, h, bind, Except.bind]
  rfl

theorem perform_ratchet_eq_ok {call next : Call} {rest : List Move} {later : Played}
    (hnext : call.ratchetSender = .ok next) (h : scenario.perform next rest = .ok later) :
    scenario.perform call (.ratchet :: rest) =
      .ok ⟨later.deliveries, later.ratchets + 1, later.call⟩ := by
  simp only [perform, hnext, h, bind, Except.bind]
  rfl

/-- Moves can be made in two goes. -/
theorem perform_append (call : Call) (first second : List Move) :
    scenario.perform call (first ++ second) =
      (scenario.perform call first).bind fun reached =>
        (scenario.perform reached.call second).map fun later =>
          ⟨reached.deliveries ++ later.deliveries, reached.ratchets + later.ratchets,
            later.call⟩ := by
  induction first generalizing call with
  | nil =>
      simp only [List.nil_append, perform, Except.bind, Nat.zero_add]
      cases scenario.perform call second <;> rfl
  | cons move rest ih =>
      cases move with
      | send number =>
          simp only [List.cons_append, perform, ih, bind]
          cases scenario.perform (scenario.sendFrame call number).2 rest with
          | error error => rfl
          | ok reached =>
              simp only [Except.bind, pure, Except.pure]
              cases scenario.perform reached.call second <;> rfl
      | ratchet =>
          simp only [List.cons_append, perform, ih, bind]
          cases call.ratchetSender with
          | error error => rfl
          | ok next =>
              simp only [Except.bind]
              cases scenario.perform next rest with
              | error error => rfl
              | ok reached =>
                  simp only [pure, Except.pure]
                  cases scenario.perform reached.call second with
                  | error error => rfl
                  | ok later => simp only [Except.map, Nat.add_right_comm]

theorem perform_sendRound (call : Call) (round : List Nat) (rest : List Move) :
    scenario.perform call (round.map .send ++ rest) =
      (scenario.perform (scenario.sendRound call round).2 rest).map fun later =>
        ⟨(scenario.sendRound call round).1 ++ later.deliveries, later.ratchets, later.call⟩ := by
  induction round generalizing call with
  | nil =>
      show scenario.perform call rest = (scenario.perform call rest).map _
      cases scenario.perform call rest <;> rfl
  | cons number round ih =>
      rw [List.map_cons, List.cons_append, perform]
      simp only [ih, sendRound, bind, Except.bind]
      generalize scenario.sendRound (scenario.sendFrame call number).2 round = sent
      cases scenario.perform sent.2 rest <;> rfl

theorem sendRounds_eq_perform (call : Call) (rounds : List (List Nat)) :
    scenario.sendRounds call rounds = scenario.perform call (Move.ofRounds rounds) := by
  induction rounds generalizing call with
  | nil => rfl
  | cons round rest ih =>
      rw [Move.ofRounds_cons, List.append_assoc, perform_sendRound]
      cases rest with
      | nil =>
          simp only [sendRounds, if_true, Move.ofRounds, perform, Except.map, List.append_nil]
      | cons next rest =>
          rw [if_neg (List.cons_ne_nil _ _), List.singleton_append, perform, sendRounds]
          simp only [bind, Except.bind, ih]
          cases (scenario.sendRound call round).2.ratchetSender with
          | error error => rfl
          | ok advanced =>
              dsimp only
              cases scenario.perform advanced (Move.ofRounds (next :: rest)) <;> rfl

/-- A move as something that comes over a call. -/
def eventOf (scenario : Scenario) : Move → CallEvent
  | .send number => .step (scenario.sendStep number)
  | .ratchet => .step .ratchetSender

variable {algorithm : Algorithm} {media : MediaKind} {options : KeyOptions}

/-- What is known of moves that were all made: what was sent, and that the sender's key
was advanced as often as they say. -/
structure Makes (scenario : Scenario) (algorithm : Algorithm) (options : KeyOptions)
    (key : KeyMaterial) (call : Call) (moves : List Move) (played : Played) : Prop where
  performed : scenario.perform call moves = .ok played
  length_eq : played.deliveries.length + moves.count .ratchet = moves.length
  ratchets_eq : played.ratchets = moves.count .ratchet
  deliveries_eq : (call.through (moves.map scenario.eventOf)).1.map (·.delivery) =
    played.deliveries
  call_eq : (call.through (moves.map scenario.eventOf)).2 = played.call
  setUp : played.call.SetUp algorithm options
  advanced : ∃ last, key.advance options.salt (moves.count .ratchet) = .ok last ∧
    played.call.senderKey? = some last

namespace Makes

variable {key following : KeyMaterial} {call next : Call} {rest : List Move} {later : Played}

/-- A frame leaves the sender's key as it is. -/
theorem send {number : Nat}
    (h : scenario.Makes algorithm options key (scenario.sendFrame call number).2 rest later) :
    scenario.Makes algorithm options key call (.send number :: rest)
      ⟨(scenario.sendFrame call number).1 :: later.deliveries, later.ratchets, later.call⟩ := by
  have hother : Move.send number ≠ .ratchet := nofun
  have hcount : (Move.send number :: rest).count .ratchet = rest.count .ratchet :=
    List.count_cons_of_ne hother
  have hlength := h.length_eq
  exact
    { performed := perform_send_eq_ok h.performed
      length_eq := by
        simp only [hcount, List.length_cons]
        omega
      ratchets_eq := hcount ▸ h.ratchets_eq
      deliveries_eq := congrArg (_ :: ·) h.deliveries_eq
      call_eq := h.call_eq
      setUp := h.setUp
      advanced := hcount ▸ h.advanced }

theorem ratchet (hnext : call.ratchetSender = .ok next)
    (hfollowing : key.ratchet options.salt = .ok following)
    (h : scenario.Makes algorithm options following next rest later) :
    scenario.Makes algorithm options key call (.ratchet :: rest)
      ⟨later.deliveries, later.ratchets + 1, later.call⟩ := by
  have hcount : (Move.ratchet :: rest).count .ratchet = rest.count .ratchet + 1 :=
    List.count_cons_self
  have hlength := h.length_eq
  have hthrough : call.through ((Move.ratchet :: rest).map scenario.eventOf) =
      next.through (rest.map scenario.eventOf) := by
    rw [← Call.after_ratchetSender hnext]
    rfl
  obtain ⟨last, hreaches, hends⟩ := h.advanced
  exact
    { performed := perform_ratchet_eq_ok hnext h.performed
      length_eq := by
        simp only [hcount, List.length_cons]
        omega
      ratchets_eq := hcount ▸ congrArg (· + 1) h.ratchets_eq
      deliveries_eq := hthrough ▸ h.deliveries_eq
      call_eq := hthrough ▸ h.call_eq
      setUp := h.setUp
      advanced := ⟨last, hcount ▸
        KeyMaterial.advance_succ_eq_ok_iff.mpr ⟨following, hfollowing, hreaches⟩, hends⟩ }

end Makes

/-- The sender's key has as many successors as it takes, so no move is refused. -/
theorem exists_makes (scenario : Scenario) {moves : List Move} {call : Call}
    (h : call.SetUp algorithm options) {key : KeyMaterial} (hkey : call.senderKey? = some key)
    (hroom : key.generation.toNat + moves.count .ratchet ≤ lastGeneration.toNat) :
    ∃ played, scenario.Makes algorithm options key call moves played := by
  induction moves generalizing call key with
  | nil => exact ⟨_, rfl, rfl, rfl, rfl, rfl, h, key, rfl, hkey⟩
  | cons move rest ih =>
      cases move with
      | send number =>
          have hother : Move.send number ≠ .ratchet := nofun
          rw [List.count_cons_of_ne hother] at hroom
          obtain ⟨hsetUp, hsame⟩ := h.send (framePayload scenario.seed (UInt32.ofNat number)
            scenario.frameSize) (scenario.isKeyFrame number)
          obtain ⟨later, hlater⟩ := ih hsetUp (hsame.trans hkey) hroom
          exact ⟨_, hlater.send⟩
      | ratchet =>
          -- There is room for this advance, so the key is not of the last generation.
          rw [List.count_cons_self] at hroom
          have hlast : key.generation ≠ lastGeneration := by
            intro hlast
            rw [hlast] at hroom
            omega
          have hfollowing : key.ratchet options.salt = .ok _ :=
            KeyMaterial.ratchet_eq_ok_iff.mpr ⟨hlast, rfl⟩
          have hgeneration := KeyMaterial.toNat_generation_of_ratchet hfollowing
          obtain ⟨next, hnext, hsetUp, hadvanced⟩ := h.ratchetSender hkey hfollowing
          obtain ⟨later, hlater⟩ := ih hsetUp hadvanced (by omega)
          exact ⟨_, hlater.ratchet hnext hfollowing⟩

/-- When it is the turn of a frame, the moves before it have been made, and those after it
are made from there. -/
theorem Makes.turn {key : KeyMaterial} {call : Call} {played : Played}
    {before after : List Move} {number : Nat}
    (hmade : scenario.Makes algorithm options key call (before ++ .send number :: after) played)
    (h : call.SetUp algorithm options) (hkey : call.senderKey? = some key)
    (hroom : key.generation.toNat + before.count .ratchet ≤ lastGeneration.toNat) :
    ∃ reached later, scenario.Makes algorithm options key call before reached ∧
      scenario.perform (scenario.sendFrame reached.call number).2 after = .ok later ∧
      played = ⟨reached.deliveries ++ (scenario.sendFrame reached.call number).1 ::
        later.deliveries, reached.ratchets + later.ratchets, later.call⟩ := by
  obtain ⟨reached, hreached⟩ := scenario.exists_makes h hkey hroom
  have hwhole := hmade.performed
  rw [perform_append, hreached.performed] at hwhole
  cases hlater : scenario.perform (scenario.sendFrame reached.call number).2 after with
  | error error =>
      simp only [Except.bind, perform, hlater, bind, Except.map] at hwhole
      cases hwhole
  | ok later =>
      simp only [Except.bind, perform_send_eq_ok hlater, Except.map] at hwhole
      exact ⟨reached, later, hreached, hlater, (Except.ok.inj hwhole).symm⟩

theorem length_eq_add_fates (deliveries : List Delivery) :
    deliveries.length = deliveries.countP (·.isDelivered) + deliveries.count .droppedAtSender +
      deliveries.count .droppedAtReceiver := by
  induction deliveries with
  | nil => rfl
  | cons delivery rest ih =>
      rw [List.length_cons, List.countP_cons, List.count_cons, List.count_cons, ih]
      cases delivery with
      | delivered payload =>
          show _ = _ + 1 + (_ + 0) + (_ + 0)
          omega
      | droppedAtSender =>
          show _ = _ + 0 + (_ + 1) + (_ + 0)
          omega
      | droppedAtReceiver =>
          show _ = _ + 0 + (_ + 0) + (_ + 1)
          omega

theorem play_eq_ok {call : Call} {rounds : List (List Nat)} {played : Played}
    (hstart : Call.start scenario = .ok call)
    (hplayed : scenario.sendRounds call rounds = .ok played) :
    ∃ report, scenario.play rounds = .ok report ∧ report.sent = played.deliveries.length ∧
      report.delivered = played.deliveries.countP (·.isDelivered) ∧
      report.droppedAtSender = played.deliveries.count .droppedAtSender ∧
      report.droppedAtReceiver = played.deliveries.count .droppedAtReceiver ∧
      report.ratchets = played.ratchets := by
  unfold play
  simp only [hstart, hplayed, Except.mapError, bind, Except.bind, pure, Except.pure]
  exact ⟨_, rfl, rfl, rfl, rfl, rfl, rfl⟩

theorem accounts_firstCall (scenario : Scenario) (algorithm : Algorithm) (media : MediaKind) :
    (scenario.firstCall algorithm media).Accounts [] where
  recorded := rfl
  outbound := rfl
  inbound := rfl
  delivered := rfl
  droppedAtReceiver := rfl
  droppedAtSender := rfl

/-- There is room for everything, or there are no frames to need it. -/
theorem fits_iff {arrange : List Nat → List Nat} (harrange : ∀ round, (arrange round).Perm round) :
    scenario.fits (scenario.rounds.map arrange) = true ↔
      scenario.frames = 0 ∨
        scenario.workers * handleSize ≤ maxBuffer ∧ scenario.frameSize ≤ maxBuffer := by
  have hnone : (scenario.rounds.map arrange).flatten = [] ↔ scenario.frames = 0 := by
    rw [← List.length_eq_zero_iff, (scenario.flatten_map_arrange harrange).length_eq,
      List.length_range, ← UInt32.toNat_inj, UInt32.toNat_zero]
  rw [fits, Bool.or_eq_true, decide_eq_true_iff, List.all_eq_true, ← hnone,
    List.flatten_eq_nil_iff]
  simp only [List.isEmpty_iff]

/-- A started call can be played to the end, in whatever order the frames of a round
are sent, and both paths agree with the report. -/
theorem Startable.play (h : scenario.Startable algorithm media) {arrange : List Nat → List Nat}
    (harrange : ∀ round, (arrange round).Perm round) :
    ∃ played report,
      scenario.Makes algorithm scenario.keyOptions scenario.firstKey
        (scenario.firstCall algorithm media) (scenario.movesFrom arrange 0) played ∧
      scenario.play (scenario.rounds.map arrange) = .ok report ∧
      report.sent = scenario.frames.toNat ∧
      report.sent = report.delivered + report.droppedAtSender + report.droppedAtReceiver ∧
      report.ratchets = (scenario.movesFrom arrange 0).count .ratchet ∧
      report.delivered = played.call.receiver.path.forwarded ∧
      report.droppedAtReceiver = played.call.receiver.path.dropped ∧
      report.droppedAtSender = played.call.sender.path.dropped := by
  have hroom : (0 : UInt32).toNat + (scenario.movesFrom arrange 0).count .ratchet ≤
      lastGeneration.toNat := by
    rw [UInt32.toNat_zero, Nat.zero_add]
    exact count_ratchet_movesFrom_le
  obtain ⟨played, hmade⟩ := scenario.exists_makes h.setUp h.senderKey?_firstCall hroom
  have haccounts := (scenario.accounts_firstCall algorithm media).through
    ((scenario.movesFrom arrange 0).map scenario.eventOf)
  rw [hmade.call_eq, List.nil_append] at haccounts
  have hlength := hmade.length_eq
  have hflat := (scenario.flatten_map_arrange harrange).length_eq
  have hrounds := hmade.performed
  rw [movesFrom_zero, ← sendRounds_eq_perform] at hrounds
  rw [movesFrom_zero, Move.length_ofRounds, Move.count_ratchet_ofRounds, hflat,
    List.length_range, Nat.add_right_cancel_iff] at hlength
  obtain ⟨report, hreport, hsent, hdelivered, hrefused, hlost, hadvances⟩ :=
    play_eq_ok (start_of_startable h) hrounds
  refine ⟨played, report, hmade, hreport, hsent.trans hlength, ?_,
    hadvances.trans hmade.ratchets_eq, ?_, ?_, ?_⟩
  · rw [hsent, hdelivered, hrefused, hlost, ← length_eq_add_fates]
  · rw [hdelivered, ← hmade.deliveries_eq, haccounts.delivered]
  · rw [hlost, ← hmade.deliveries_eq, haccounts.droppedAtReceiver]
  · rw [hrefused, ← hmade.deliveries_eq, haccounts.droppedAtSender]

/-- A run when it is the turn of a frame: the moves before it have led to `reached`, where
the sender has this key, the frame is sent from there, and the moves after it do the
rest. -/
structure Turn (scenario : Scenario) (call : Call) (played : Played) (before : List Move)
    (number : Nat) (after : List Move) (reached later : Played) (key : KeyMaterial) : Prop where
  reached_eq : scenario.perform call before = .ok reached
  later_eq : scenario.perform (scenario.sendFrame reached.call number).2 after = .ok later
  played_eq : played = ⟨reached.deliveries ++ (scenario.sendFrame reached.call number).1 ::
    later.deliveries, reached.ratchets + later.ratchets, later.call⟩
  senderKey?_eq : reached.call.senderKey? = some key

/-- When it is the turn of a frame, the sender has the key that its number tells. -/
theorem Startable.turn (h : scenario.Startable algorithm media) {arrange : List Nat → List Nat}
    (harrange : ∀ round, (arrange round).Perm round) {played : Played}
    (hmade : scenario.Makes algorithm scenario.keyOptions scenario.firstKey
      (scenario.firstCall algorithm media) (scenario.movesFrom arrange 0) played)
    {before after : List Move} {number : Nat}
    (hmoves : scenario.movesFrom arrange 0 = before ++ .send number :: after) :
    before.count .ratchet = number / scenario.ratchetEvery.toNat ∧
      ∃ reached later key,
        scenario.Turn (scenario.firstCall algorithm media) played before number after reached later
          key ∧
        scenario.firstKey.advance (Bytes.ofText scenario.salt)
          (number / scenario.ratchetEvery.toNat) = .ok key ∧
        key.generation.toNat = number / scenario.ratchetEvery.toNat := by
  have hcount := count_ratchet_before_send harrange hmoves
  have hall : (scenario.movesFrom arrange 0).count .ratchet ≤ lastGeneration.toNat :=
    count_ratchet_movesFrom_le
  rw [hmoves] at hall hmade
  rw [List.count_append] at hall
  have hroom : (0 : UInt32).toNat + before.count .ratchet ≤ lastGeneration.toNat := by
    rw [UInt32.toNat_zero]
    omega
  obtain ⟨reached, later, hreached, hlater, hplayed⟩ :=
    hmade.turn h.setUp h.senderKey?_firstCall hroom
  obtain ⟨key, hadvanced, hkey⟩ := hreached.advanced
  rw [hcount] at hadvanced
  refine ⟨hcount, reached, later, key, ⟨hreached.performed, hlater, hplayed, hkey⟩, hadvanced, ?_⟩
  rw [KeyMaterial.toNat_generation_of_advance hadvanced]
  exact Nat.zero_add _

end Scenario

/-- A scenario whose call starts is played to the end, unless it asks for more room than
there can be. The workers may get to the frames of a round in any order; `play` plays the
moves of the loop, which send each frame once. When it is the turn of a frame, the
sender's key has been advanced once for each round that was full by then. And whatever
is sent through a call, and whatever is done to it in between, its record and both paths
agree with what its users were told. -/
theorem every_frame_is_accounted_for {scenario : Scenario} {call : Call}
    (hstart : Call.start scenario = .ok call) :
    (∀ arrange : List Nat → List Nat,
      (∀ round, (arrange round).Perm (shares scenario.workers round).flatten) →
      let moves := scenario.movesFrom arrange 0
      let orders := scenario.rounds.map arrange
      scenario.sendRounds call orders = scenario.perform call moves ∧
      (∃ played report, scenario.perform call moves = .ok played ∧
        scenario.play orders = .ok report ∧
        (scenario.run orders =
          if scenario.frames = 0 ∨
            scenario.workers * handleSize ≤ maxBuffer ∧ scenario.frameSize ≤ maxBuffer
          then .ok report else .error .noRoom) ∧
        report.sent = scenario.frames.toNat ∧
        report.sent = report.delivered + report.droppedAtSender + report.droppedAtReceiver ∧
        (report.ratchets =
          if scenario.ratchetEvery = 0 ∨ scenario.frames = 0 then 0
          else (scenario.frames.toNat - 1) / scenario.ratchetEvery.toNat) ∧
        (report.delivered = played.call.receiver.path.forwarded ∧
          report.droppedAtReceiver = played.call.receiver.path.dropped ∧
          report.droppedAtSender = played.call.sender.path.dropped) ∧
        (∃ last, played.call.senderKey? = some last ∧
          last.generation.toNat = report.ratchets) ∧
        ∀ before number after, moves = before ++ .send number :: after →
          before.count .ratchet = number / scenario.ratchetEvery.toNat ∧
          ∃ reached later key,
            scenario.Turn call played before number after reached later key ∧
            scenario.firstKey.advance (Bytes.ofText scenario.salt)
              (number / scenario.ratchetEvery.toNat) = .ok key ∧
            key.generation.toNat = number / scenario.ratchetEvery.toNat) ∧
      ∀ number, moves.count (.send number) = if number < scenario.frames.toNat then 1 else 0) ∧
    ∀ events : List CallEvent,
      let sent := (call.through events).1
      let now := (call.through events).2
      sent.map (·.payload) = events.filterMap (·.payload?) ∧ now.Accounts sent := by
  obtain ⟨algorithm, media, hstartable, rfl⟩ := Scenario.start_eq_ok_iff.mp hstart
  constructor
  · intro arrange hshares moves orders
    obtain ⟨-, -, hworkers⟩ := Scenario.fault?_eq_none_iff.mp hstartable.faultless
    have harrange : ∀ round, (arrange round).Perm round := fun round =>
      (hshares round).trans (flatten_shares_perm hworkers round)
    obtain ⟨played, report, hmade, hreport, hsent, hfates, hratchets, hpaths⟩ :=
      hstartable.play harrange
    refine ⟨?_, ⟨played, report, hmade.performed, hreport, ?_, hsent, hfates, ?_, hpaths, ?_, ?_⟩,
      Scenario.count_send_movesFrom harrange⟩
    · show scenario.sendRounds _ (scenario.rounds.map arrange) =
        scenario.perform _ (scenario.movesFrom arrange 0)
      rw [Scenario.movesFrom_zero, Scenario.sendRounds_eq_perform]
    · rw [Scenario.run_eq_of_play hstart hreport]
      exact if_congr (Scenario.fits_iff harrange) rfl rfl
    · rw [hratchets, Scenario.count_ratchet_movesFrom]
    · obtain ⟨last, hadvanced, hlast⟩ := hmade.advanced
      refine ⟨last, hlast, ?_⟩
      rw [KeyMaterial.toNat_generation_of_advance hadvanced, hratchets]
      exact Nat.zero_add _
    · intro before number after hmoves
      exact hstartable.turn harrange hmade hmoves
  · intro events
    have haccounts := (scenario.accounts_firstCall algorithm media).through events
    rw [List.nil_append] at haccounts
    exact ⟨Call.map_payload_through _ events, haccounts⟩

/-- A payload is sent, the sender is switched off, and another payload is sent. -/
def switchedOffEvents : List CallEvent :=
  let sender := threeFramesCall.sender
  [.step (.send [7] false),
    .change .sender { sender.endpoint with enabled := false } sender.store (some .sender),
    .step .ratchetSender, .step (.send [8, 9] true)]

theorem every_frame_is_accounted_for_in_threeFrames :
    Call.start threeFrames = .ok threeFramesCall ∧
      (∃ report, threeFrames.play [[1, 0], [2]] = .ok report ∧
        threeFrames.run [[1, 0], [2]] = .ok report ∧ report.sent = 3 ∧
        report.sent = report.delivered + report.droppedAtSender + report.droppedAtReceiver ∧
        report.ratchets = 1 ∧
        ∃ reached key, threeFrames.perform threeFramesCall [.send 1, .send 0, .ratchet] =
            .ok reached ∧
          reached.call.senderKey? = some key ∧ key.generation.toNat = 1) ∧
      (threeFramesCall.through switchedOffEvents).1.map (·.payload) = [[7], [8, 9]] ∧
      (threeFramesCall.through switchedOffEvents).2.Accounts
        (threeFramesCall.through switchedOffEvents).1 := by
  have hstart := Scenario.start_of_startable startable_threeFrames
  obtain ⟨hruns, hevents⟩ := every_frame_is_accounted_for hstart
  have hreverse : ∀ round : List Nat,
      round.reverse.Perm (shares threeFrames.workers round).flatten := by
    intro round
    have hdealt := flatten_shares_perm (by decide : 1 ≤ threeFrames.workers) round
    exact (List.reverse_perm round).trans hdealt.symm
  obtain ⟨-, ⟨played, report, -, hreport, hrun, hsent, hfates, hratchets, -, -, hturns⟩, -⟩ :=
    hruns List.reverse hreverse
  have hmoves : threeFrames.movesFrom List.reverse 0 =
      [.send 1, .send 0, .ratchet] ++ .send 2 :: [] := Scenario.movesFrom_zero
  obtain ⟨-, reached, later, key, hturn, -, hgeneration⟩ := hturns _ _ _ hmoves
  exact ⟨hstart, ⟨report, hreport, hrun, hsent, hfates, hratchets, reached, key,
    hturn.reached_eq, hturn.senderKey?_eq, hgeneration⟩, hevents switchedOffEvents⟩

/-- A scenario of one frame, with more workers than a buffer can hold the handles of. -/
def crowded : Scenario :=
  { Scenario.default with
    frames := 1
    workers := 9223372036854775807 }

theorem crowded_breaks_off :
    (∃ call, Call.start crowded = .ok call) ∧ crowded.rounds = [[0]] ∧
      crowded.run crowded.rounds = .error .noRoom ∧
      ∃ report, crowded.play crowded.rounds = .ok report ∧ report.sent = 1 := by
  have hstartable : crowded.Startable .aesGcm .video :=
    { cipher_eq := by decide +kernel
      media_eq := by decide +kernel
      faultless := by decide
      options_faultless := by decide
      index_in := by decide }
  have hstart := Scenario.start_of_startable hstartable
  have hsame : ∀ round : List Nat, (id round).Perm round := fun round => .refl round
  obtain ⟨-, report, -, hreport, hsent, -⟩ := hstartable.play hsame
  rw [List.map_id] at hreport
  refine ⟨⟨_, hstart⟩, rfl, ?_, report, hreport, hsent⟩
  rw [Scenario.run_eq_of_play hstart hreport, if_neg (by decide)]

end MediaSeal
