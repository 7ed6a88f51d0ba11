import MediaSeal.Call.Basic
import MediaSeal.Proofs.History
import MediaSeal.Proofs.Reception
import MediaSeal.Proofs.Sending

/-!
# What happens in a call

A call pushes a payload along two paths, through hooks, endpoints, stores and
recorders, most of which are the same before and after. `Call.SetUp` collects
what stays: who takes part, which cipher is used, that both sides are switched
on, hooked up and listened to, and that both stores are set up alike. While
that holds, what a payload does to a side is one function of the result of
encrypting or decrypting it, `Leg.worked`, and a payload has one of three fates.
Each of the three is an equation for the call afterwards.

Setting the key and advancing the sender's are described by the keys that the
stores hold then.
-/

namespace MediaSeal

@[simp] theorem MediaPath.hook_count {Hook : Type} (path : MediaPath Hook)
    (output : Option Frame) : (path.count output).hook = path.hook := by
  cases output <;> rfl

theorem KeyStore.Sound.setKey_eq_ok {store : KeyStore} (h : store.Sound)
    {participant : Participant} {index : Int} (raw : Bytes)
    (hindex : 0 ≤ index ∧ index < store.options.ringSize) :
    store.setKey participant index raw = .ok (store.after (.setKey participant index raw)) := by
  obtain ⟨other, hother⟩ := h.exists_setKey_eq_ok_iff.mpr hindex
  rw [hother, KeyStore.after, hother]

/-! ## One side -/

namespace Leg

/-- The side belongs to a participant, works in one direction with the key
options given, and its recorder hears of everything. -/
structure SetUp (leg : Leg) (participant : Participant) (direction : Direction)
    (algorithm : Algorithm) (options : KeyOptions) : Prop where
  participant_eq : leg.endpoint.participant = participant
  direction_eq : leg.endpoint.direction = direction
  algorithm_eq : leg.endpoint.algorithm = algorithm
  enabled : leg.endpoint.enabled = true
  reports : leg.endpoint.reportsTo direction = true
  hooked : leg.path.hook = some direction
  options_eq : leg.store.options = options
  sound : leg.store.Sound

/-- The side after it worked on a frame with this result, which left this
store. -/
def worked (leg : Leg) (frame : Frame) (result : Except FrameError Opened) (store : KeyStore) :
    Leg where
  endpoint :=
    { leg.endpoint with
      lastOutcome := Outcome.latest leg.endpoint.lastOutcome (Endpoint.history result) }
  store := store
  path := leg.path.count (result.toOption.map fun opened => frame.withPayload opened.payload)
  heard := leg.heard ++ Outcome.transitions leg.endpoint.lastOutcome (Endpoint.history result)

variable {leg : Leg} {participant : Participant} {direction : Direction} {algorithm : Algorithm}
  {options : KeyOptions} {store : KeyStore}

theorem SetUp.push_eq (h : leg.SetUp participant direction algorithm options)
    (entropy : Entropy) (frame : Frame) :
    leg.push entropy frame =
      let processed := leg.endpoint.process leg.store entropy frame
      (processed.1.toOption.map fun opened => frame.withPayload opened.payload,
        leg.worked frame processed.1 processed.2.1, processed.2.2) := by
  have hattempt : leg.endpoint.attempt leg.store entropy frame =
      let processed := leg.endpoint.process leg.store entropy frame
      { endpoint := (leg.worked frame processed.1 processed.2.1).endpoint
        store := processed.2.1
        entropy := processed.2.2
        output := processed.1.toOption.map fun opened => frame.withPayload opened.payload
        transitions :=
          Outcome.transitions leg.endpoint.lastOutcome (Endpoint.history processed.1) } := by
    rw [Endpoint.attempt, if_pos h.enabled]
    rfl
  have hreports : (leg.endpoint.attempt leg.store entropy frame).endpoint.reportsTo direction =
      true := by
    rw [hattempt]
    exact h.reports
  simp only [push, h.hooked, hreports, if_true]
  rw [hattempt]
  rfl

theorem SetUp.push_sender (h : leg.SetUp participant .sender algorithm options)
    (entropy : Entropy) (frame : Frame) :
    leg.push entropy frame =
      let encrypted := frame.encrypt leg.store participant algorithm leg.endpoint.keyIndex entropy
      (encrypted.1.toOption.map frame.withPayload,
        leg.worked frame (encrypted.1.map (⟨·, 0⟩)) leg.store, encrypted.2) := by
  rw [h.push_eq]
  simp only [Endpoint.process, h.direction_eq, h.participant_eq, h.algorithm_eq]
  cases (frame.encrypt leg.store participant algorithm leg.endpoint.keyIndex entropy).1 <;> rfl

theorem SetUp.push_receiver (h : leg.SetUp participant .receiver algorithm options)
    (entropy : Entropy) (frame : Frame) :
    leg.push entropy frame =
      let decrypted := leg.store.decrypt participant algorithm frame.payload
      (decrypted.1.toOption.map fun opened => frame.withPayload opened.payload,
        leg.worked frame decrypted.1 decrypted.2, entropy) := by
  rw [h.push_eq]
  simp only [Endpoint.process, h.direction_eq, h.participant_eq, h.algorithm_eq]

theorem SetUp.withStore (h : leg.SetUp participant direction algorithm options)
    (hoptions : store.options = options) (hsound : store.Sound) :
    (leg.withStore store).SetUp participant direction algorithm options :=
  { h with
    options_eq := hoptions
    sound := hsound }

theorem SetUp.worked (h : leg.SetUp participant direction algorithm options) (frame : Frame)
    (result : Except FrameError Opened) (hstore : leg.store.MovesTo store) :
    (leg.worked frame result store).SetUp participant direction algorithm options :=
  { h with
    hooked := (MediaPath.hook_count _ _).trans h.hooked
    options_eq := hstore.options_eq.trans h.options_eq
    sound := hstore.sound }

/-- What the recorder heard are the changes of this history. -/
structure Tells (leg : Leg) (history : List Outcome) : Prop where
  heard_eq : leg.heard = Outcome.transitions none history
  last_eq : leg.endpoint.lastOutcome = Outcome.latest none history

theorem Tells.last_eq_getLast? {history : List Outcome} (h : leg.Tells history) :
    leg.endpoint.lastOutcome = leg.heard.getLast? := by
  rw [h.last_eq, h.heard_eq, ← Outcome.getLast?_transitions, Option.or_none]

theorem Tells.worked {history : List Outcome} (h : leg.Tells history) (frame : Frame)
    (result : Except FrameError Opened) (store : KeyStore) :
    (leg.worked frame result store).Tells (history ++ Endpoint.history result) where
  heard_eq := by
    rw [Outcome.transitions_append, ← h.heard_eq, ← h.last_eq]
    rfl
  last_eq := by
    rw [Outcome.latest_append, ← h.last_eq]
    rfl

end Leg

/-! ## Both sides -/

namespace Call

/-- The two sides are set up for each other. -/
structure SetUp (call : Call) (algorithm : Algorithm) (options : KeyOptions) : Prop where
  faultless : options.fault? = none
  marker_eq : call.marker = options.marker
  index_in : 0 ≤ call.keyIndex ∧ call.keyIndex < options.ringSize
  sender : call.sender.SetUp call.participant .sender algorithm options
  receiver : call.receiver.SetUp call.participant .receiver algorithm options
  senderIndex_eq : call.sender.endpoint.keyIndex = call.keyIndex

/-- The key that the sender has. -/
def senderKey? (call : Call) : Option KeyMaterial :=
  call.sender.store.key? call.participant call.keyIndex

@[inherit_doc senderKey?]
def receiverKey? (call : Call) : Option KeyMaterial :=
  call.receiver.store.key? call.participant call.keyIndex

/-- A frame's payload as the sender encrypts it, and what is left of the
source. -/
def encrypted (call : Call) (algorithm : Algorithm) (frame : Frame) :
    Except FrameError Bytes × Entropy :=
  frame.encrypt call.sender.store call.participant algorithm call.keyIndex call.entropy

/-- What the receiver makes of a payload. -/
def decrypted (call : Call) (algorithm : Algorithm) (wire : Bytes) :
    Except FrameError Opened × KeyStore :=
  call.receiver.store.decrypt call.participant algorithm wire

/-- The call after a payload, with this record of it. -/
def recorded (call : Call) (sender receiver : Leg) (entropy : Entropy) (record : FrameRecord) :
    Call :=
  let call := { call with sender, receiver, entropy, frames := call.frames ++ [record] }
  { call with generations := call.generations ++ call.receiverGeneration?.toList }

theorem receiverGeneration?_eq (call : Call) :
    call.receiverGeneration? = call.receiverKey?.map (·.generation) := by
  rw [receiverGeneration?, receiverKey?, KeyStore.key?]
  cases call.receiver.store.ring? call.participant with
  | none => rfl
  | some ring => rfl

variable {call : Call} {algorithm : Algorithm} {options : KeyOptions}

theorem SetUp.sealingKey_eq (h : call.SetUp algorithm options) {key : KeyMaterial}
    (hkey : call.senderKey? = some key) :
    ∃ slot : UInt8, call.keyIndex = slot.toNat ∧ slot.toNat < options.ringSize ∧
      call.sender.store.sealingKey call.participant call.keyIndex = .ok (slot, key) := by
  have hoptions := h.sender.options_eq
  rcases KeyStore.sealingKey_cases (hoptions.symm ▸ h.faultless) call.participant call.keyIndex with
    ⟨hout, -⟩ | ⟨slot, hslot, hlt, ⟨hnone, -⟩ | ⟨found, hfound, hsealing⟩⟩
  · exact absurd (hoptions.symm ▸ h.index_in) hout
  · cases hnone.symm.trans hkey
  · obtain rfl : key = found := Option.some.inj (hkey.symm.trans hfound)
    exact ⟨slot, hslot, hoptions ▸ hlt, hsealing⟩

/-! ### A payload sent -/

section Send

variable {payload wire : Bytes} {keyFrame : Bool} {error : FrameError} {opened : Opened}

theorem SetUp.push_sender (h : call.SetUp algorithm options) (frame : Frame) :
    call.sender.push call.entropy frame =
      ((call.encrypted algorithm frame).1.toOption.map frame.withPayload,
        call.sender.worked frame ((call.encrypted algorithm frame).1.map (⟨·, 0⟩))
          call.sender.store,
        (call.encrypted algorithm frame).2) := by
  rw [h.sender.push_sender, h.senderIndex_eq]
  rfl

theorem SetUp.send_of_refused (h : call.SetUp algorithm options)
    (herror : (call.encrypted algorithm (call.frame payload keyFrame)).1 = .error error) :
    call.send payload keyFrame =
      (.droppedAtSender,
        call.recorded
          (call.sender.worked (call.frame payload keyFrame) (.error error) call.sender.store)
          call.receiver (call.encrypted algorithm (call.frame payload keyFrame)).2
          ⟨payload, true, none, none⟩) := by
  rw [send, h.push_sender, herror, h.sender.enabled]
  rfl

theorem SetUp.send_of_sealed (h : call.SetUp algorithm options)
    (hwire : (call.encrypted algorithm (call.frame payload keyFrame)).1 = .ok wire) :
    call.send payload keyFrame =
      (match (call.decrypted algorithm wire).1 with
        | .ok opened => .delivered opened.payload
        | .error _ => .droppedAtReceiver,
        call.recorded
          (call.sender.worked (call.frame payload keyFrame) (.ok ⟨wire, 0⟩) call.sender.store)
          (call.receiver.worked ((call.frame payload keyFrame).withPayload wire)
            (call.decrypted algorithm wire).1 (call.decrypted algorithm wire).2)
          (call.encrypted algorithm (call.frame payload keyFrame)).2
          ⟨payload, true, some wire,
            (call.decrypted algorithm wire).1.toOption.map (·.payload)⟩) := by
  rw [send, h.push_sender, hwire, h.sender.enabled]
  simp only [Except.toOption, Option.map_some, h.receiver.push_receiver]
  have hdecrypted : call.receiver.store.decrypt call.participant algorithm
      ((call.frame payload keyFrame).withPayload wire).payload =
        call.decrypted algorithm wire := rfl
  rw [hdecrypted]
  cases (call.decrypted algorithm wire).1 with
  | ok opened => rfl
  | error error => rfl

end Send

theorem SetUp.recorded (h : call.SetUp algorithm options) {sender receiver : Leg}
    (hsender : sender.SetUp call.participant .sender algorithm options)
    (hreceiver : receiver.SetUp call.participant .receiver algorithm options)
    (hindex : sender.endpoint.keyIndex = call.keyIndex) (entropy : Entropy)
    (record : FrameRecord) :
    (call.recorded sender receiver entropy record).SetUp algorithm options where
  faultless := h.faultless
  marker_eq := h.marker_eq
  index_in := h.index_in
  sender := hsender
  receiver := hreceiver
  senderIndex_eq := hindex

/-- A payload that is sent leaves the sender's keys alone. -/
theorem SetUp.send (h : call.SetUp algorithm options) (payload : Bytes) (keyFrame : Bool) :
    (call.send payload keyFrame).2.SetUp algorithm options ∧
      (call.send payload keyFrame).2.senderKey? = call.senderKey? := by
  have hsame := h.sender.sound.movesTo_self
  cases hwire : (call.encrypted algorithm (call.frame payload keyFrame)).1 with
  | error error =>
      rw [h.send_of_refused hwire]
      exact ⟨h.recorded (h.sender.worked _ _ hsame) h.receiver h.senderIndex_eq _ _, rfl⟩
  | ok wire =>
      have hmoves : call.receiver.store.MovesTo (call.decrypted algorithm wire).2 :=
        h.receiver.sound.movesTo_decrypt _ _ _
      rw [h.send_of_sealed hwire]
      exact ⟨h.recorded (h.sender.worked _ _ hsame) (h.receiver.worked _ _ hmoves)
        h.senderIndex_eq _ _, rfl⟩

/-! ### Keys set and advanced -/

/-- The call with the key calls made on either side. -/
def withKeys (call : Call) (sender receiver : KeyStore) (generations : List UInt32) : Call :=
  { call with
    sender := call.sender.withStore sender
    receiver := call.receiver.withStore receiver
    generations }

theorem SetUp.withKeys (h : call.SetUp algorithm options) {sender receiver : KeyStore}
    (hsender : sender.options = options ∧ sender.Sound)
    (hreceiver : receiver.options = options ∧ receiver.Sound) (generations : List UInt32) :
    (call.withKeys sender receiver generations).SetUp algorithm options where
  faultless := h.faultless
  marker_eq := h.marker_eq
  index_in := h.index_in
  sender := h.sender.withStore hsender.1 hsender.2
  receiver := h.receiver.withStore hreceiver.1 hreceiver.2
  senderIndex_eq := h.senderIndex_eq

theorem SetUp.provision_eq (h : call.SetUp algorithm options) (raw : Bytes) :
    call.provision raw =
      .ok (call.withKeys
        (call.sender.store.after (.setKey call.participant call.keyIndex raw))
        (call.receiver.store.after (.setKey call.participant call.keyIndex raw)) []) := by
  have hsender : call.sender.store.setKey call.participant call.keyIndex raw = _ :=
    h.sender.sound.setKey_eq_ok raw (h.sender.options_eq ▸ h.index_in)
  have hreceiver : call.receiver.store.setKey call.participant call.keyIndex raw = _ :=
    h.receiver.sound.setKey_eq_ok raw (h.receiver.options_eq ▸ h.index_in)
  rw [provision, hsender, hreceiver]
  rfl

theorem ratchetSender_eq_ok_iff {next : Call} :
    call.ratchetSender = .ok next ↔
      (∃ raw store, call.sender.store.ratchetKey call.participant call.keyIndex =
        .ok (raw, store)) ∧
      next = call.withKeys
        (call.sender.store.after (.ratchetKey call.participant call.keyIndex))
        call.receiver.store call.generations := by
  cases hratchet : call.sender.store.ratchetKey call.participant call.keyIndex with
  | error error => simp [ratchetSender, hratchet, bind, Except.bind]
  | ok result =>
      obtain ⟨raw, store⟩ := result
      have hnext : call.ratchetSender = .ok (call.withKeys
          (call.sender.store.after (.ratchetKey call.participant call.keyIndex))
          call.receiver.store call.generations) := by
        rw [ratchetSender, KeyStore.after, hratchet]
        rfl
      rw [hnext, Except.ok.injEq]
      constructor
      · intro hsame
        exact ⟨⟨raw, store, rfl⟩, hsame.symm⟩
      · intro hsame
        exact hsame.2.symm

/-- The sender's key is advanced if it has a successor. -/
theorem SetUp.ratchetSender (h : call.SetUp algorithm options) {key following : KeyMaterial}
    (hkey : call.senderKey? = some key) (hfollowing : key.ratchet options.salt = .ok following) :
    ∃ next, call.ratchetSender = .ok next ∧ next.SetUp algorithm options ∧
      next.senderKey? = some following := by
  have hsound := h.sender.sound
  have hoptions := h.sender.options_eq
  have hok := hsound.exists_ratchetKey_eq_ok_iff.mpr
    ⟨key, following, hkey, hoptions.symm ▸ hfollowing⟩
  refine ⟨_, ratchetSender_eq_ok_iff.mpr ⟨hok, rfl⟩,
    h.withKeys ⟨(KeyStore.options_after _ _).trans hoptions, hsound.after _⟩
      ⟨h.receiver.options_eq, h.receiver.sound⟩ _, ?_⟩
  show (call.sender.store.after _).key? call.participant call.keyIndex = _
  rw [senderKey?] at hkey
  rw [KeyStore.key?_after hsound, KeyCall.effect, if_pos ⟨.inr rfl, rfl⟩, hkey, Option.map_some,
    hoptions, KeyMaterial.nextOrLast, hfollowing]

end Call

/-! ## Setting up a call -/

namespace Scenario

/-- The store of either side when the first key was set. -/
def firstStore (scenario : Scenario) : KeyStore :=
  (KeyStore.mk scenario.keyOptions scenario.keyOptions.emptyRing []).after
    (.setKey ⟨scenario.participant⟩ scenario.keyIndex (Bytes.ofText scenario.key))

/-- A side of the scenario's call before the first frame. -/
def firstLeg (scenario : Scenario) (direction : Direction) (algorithm : Algorithm)
    (media : MediaKind) (keyIndex : Int) : Leg where
  endpoint :=
    { participant := ⟨scenario.participant⟩
      direction, algorithm, media, keyIndex
      enabled := true
      observer := some direction
      lastOutcome := none
      detached := false }
  store := scenario.firstStore
  path := (MediaPath.new media).attach direction
  heard := []

/-- The scenario's call before the first frame. -/
def firstCall (scenario : Scenario) (algorithm : Algorithm) (media : MediaKind) : Call where
  participant := ⟨scenario.participant⟩
  media := media
  keyIndex := scenario.keyIndex
  marker := scenario.keyOptions.marker
  sender := scenario.firstLeg .sender algorithm media scenario.keyIndex
  receiver := scenario.firstLeg .receiver algorithm media 0
  entropy := Entropy.ofSeed scenario.seed
  frames := []
  generations := []

variable {scenario : Scenario} {algorithm : Algorithm} {media : MediaKind}

/-- What a scenario must be like for a call to come of it. -/
structure Startable (scenario : Scenario) (algorithm : Algorithm) (media : MediaKind) : Prop where
  cipher_eq : scenario.cipher = .ok algorithm
  media_eq : scenario.mediaKind = .ok media
  faultless : scenario.fault? = none
  options_faultless : scenario.keyOptions.fault? = none
  index_in : 0 ≤ scenario.keyIndex ∧ scenario.keyIndex < scenario.keyOptions.ringSize

theorem validate_eq_ok_iff :
    scenario.validate = .ok () ↔
      (∃ algorithm, scenario.cipher = .ok algorithm) ∧
        (∃ media, scenario.mediaKind = .ok media) ∧ scenario.fault? = none := by
  unfold validate
  cases scenario.cipher with
  | error error => simp [bind, Except.bind]
  | ok algorithm =>
      cases scenario.mediaKind with
      | error error => simp [bind, Except.bind]
      | ok media =>
          cases scenario.fault? <;> simp [bind, Except.bind, pure, Except.pure]

theorem participant_isEmpty (h : scenario.fault? = none) :
    Participant.isEmpty ⟨scenario.participant⟩ = false := by
  unfold fault? at h
  split at h
  · cases h
  · next hnonempty => exact Bool.eq_false_iff.mpr hnonempty

theorem start_of_startable (h : scenario.Startable algorithm media) :
    Call.start scenario = .ok (scenario.firstCall algorithm media) := by
  have hvalid := validate_eq_ok_iff.mpr ⟨⟨_, h.cipher_eq⟩, ⟨_, h.media_eq⟩, h.faultless⟩
  have hnew : KeyStore.new scenario.keyOptions = .ok _ :=
    KeyStore.new_eq_ok_iff.mpr ⟨h.options_faultless, rfl⟩
  have hset : KeyStore.setKey _ ⟨scenario.participant⟩ scenario.keyIndex _ = _ :=
    (KeyStore.sound_of_new hnew).setKey_eq_ok (Bytes.ofText scenario.key) h.index_in
  unfold Call.start
  simp only [hvalid, h.cipher_eq, h.media_eq, Leg.new, hnew, Endpoint.new,
    participant_isEmpty h.faultless, Except.mapError, bind, Except.bind, pure, Except.pure,
    Bool.false_eq_true, if_false, Call.provision, Leg.setKeyIndex, hset]
  rfl

theorem startable_of_start {call : Call} (h : Call.start scenario = .ok call) :
    ∃ algorithm media, scenario.Startable algorithm media := by
  unfold Call.start at h
  cases hvalid : scenario.validate with
  | error error =>
      rw [hvalid] at h
      cases h
  | ok _ =>
      obtain ⟨⟨algorithm, hcipher⟩, ⟨media, hmedia⟩, hfaultless⟩ := validate_eq_ok_iff.mp hvalid
      simp only [hvalid, hcipher, hmedia, Leg.new, Endpoint.new, participant_isEmpty hfaultless,
        Except.mapError, bind, Except.bind, pure, Except.pure, Bool.false_eq_true, if_false] at h
      cases hnew : KeyStore.new scenario.keyOptions with
      | error error =>
          rw [hnew] at h
          cases h
      | ok store =>
          obtain ⟨hoptions, rfl⟩ := KeyStore.new_eq_ok_iff.mp hnew
          refine ⟨algorithm, media, hcipher, hmedia, hfaultless, hoptions, ?_⟩
          rw [hnew] at h
          simp only [Call.provision, Leg.setKeyIndex, bind, Except.bind] at h
          cases hset : KeyStore.setKey ⟨scenario.keyOptions, scenario.keyOptions.emptyRing, []⟩
              ⟨scenario.participant⟩ scenario.keyIndex (Bytes.ofText scenario.key) with
          | error error =>
              rw [hset] at h
              cases h
          | ok other => exact (KeyStore.sound_of_new hnew).exists_setKey_eq_ok_iff.mp ⟨other, hset⟩

theorem start_eq_ok_iff {call : Call} :
    Call.start scenario = .ok call ↔
      ∃ algorithm media, scenario.Startable algorithm media ∧
        call = scenario.firstCall algorithm media := by
  constructor
  · intro h
    obtain ⟨algorithm, media, hstartable⟩ := startable_of_start h
    rw [start_of_startable hstartable] at h
    exact ⟨algorithm, media, hstartable, (Except.ok.inj h).symm⟩
  · rintro ⟨algorithm, media, hstartable, rfl⟩
    exact start_of_startable hstartable

theorem Startable.sound_firstStore (h : scenario.Startable algorithm media) :
    scenario.firstStore.Sound :=
  (KeyStore.sound_of_new (KeyStore.new_eq_ok_iff.mpr ⟨h.options_faultless, rfl⟩)).after _

theorem options_firstStore (scenario : Scenario) :
    scenario.firstStore.options = scenario.keyOptions :=
  KeyStore.options_after _ _

theorem Startable.setUp (h : scenario.Startable algorithm media) :
    (scenario.firstCall algorithm media).SetUp algorithm scenario.keyOptions where
  faultless := h.options_faultless
  marker_eq := rfl
  index_in := h.index_in
  sender := ⟨rfl, rfl, rfl, rfl, rfl, rfl, scenario.options_firstStore, h.sound_firstStore⟩
  receiver := ⟨rfl, rfl, rfl, rfl, rfl, rfl, scenario.options_firstStore, h.sound_firstStore⟩
  senderIndex_eq := rfl

theorem Startable.key?_firstStore (h : scenario.Startable algorithm media) :
    scenario.firstStore.key? ⟨scenario.participant⟩ scenario.keyIndex =
      some (.supplied (Bytes.ofText scenario.key) scenario.keyOptions.salt) := by
  have hnew := KeyStore.new_eq_ok_iff.mpr ⟨h.options_faultless, rfl⟩
  rw [firstStore, KeyStore.key?_after (KeyStore.sound_of_new hnew), KeyCall.effect,
    if_pos ⟨.inr rfl, rfl, h.index_in⟩]

end Scenario

end MediaSeal
