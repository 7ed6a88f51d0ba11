import MediaSeal.Proofs.AuditVerdict
import MediaSeal.Proofs.CallSteps
import MediaSeal.Proofs.Exemption

/-!
# What each step of a call keeps lawful

A payload is sent, the sender's key is advanced behind the receiver's back, or
both sides are given a new key. `Call.Kept` is what all of these preserve, and
it is enough for a snapshot of the call to be lawful.

Four things have to hold at once, and each has a reason of its own. A payload
leaves as it was only if it was to be left alone; otherwise it is sealed, and
longer. What is delivered was opened, with the material it was sealed with, so
it is what was sent. A recorder hears the changes of a history, and neighbours
among the changes differ. The receiver's key moves down its line and never up.
How far the receiver has fallen behind, and whether its ring still tolerates
failures, decides whether a payload is delivered, but not whether it is intact.

Two things are assumed of each payload that is sealed. It does not look
exempt, since it would be delivered unopened then; and the first key that the
receiver finds to open it, if it finds one, has the material that it was sealed
with.
-/

namespace MediaSeal

/-! ## Opened with the right material -/

/-- If a key of the receiver opens the frame, the first that does has this
material. -/
def KeyStore.OpensFirstWith (store : KeyStore) (participant : Participant) (frame : SealedFrame)
    (raw : Bytes) : Prop :=
  ∀ base steps candidate body,
    store.key? participant frame.trailer.keyIndex.toNat = some base →
    steps ≤ store.options.window.toNat →
    base.advance store.options.salt steps = .ok candidate →
    frame.trailer.algorithm.decrypt candidate.frameKey frame.iv frame.aad frame.ciphertext =
      .ok body →
    (∀ earlier < steps, ∀ other, ¬ frame.OpensAfter store.options.salt base earlier other) →
    candidate.raw = raw

theorem KeyStore.Sound.payload_of_decrypt_ok {store : KeyStore} {participant : Participant}
    {algorithm : Algorithm} {slot : UInt8} {payload : Bytes} {sealed : SealedFrame}
    {key : KeyMaterial} {opened : Opened} (h : store.Sound)
    (hcarries : sealed.Carries payload algorithm slot key.frameKey)
    (hkey : key.Derived store.options.salt)
    (hexempt : Marker.exempts store.options.marker sealed.toBytes = false)
    (hfirst : store.OpensFirstWith participant sealed key.raw)
    (hopened : (store.decrypt participant algorithm sealed.toBytes).1 = .ok opened) :
    opened.payload = payload := by
  obtain ⟨frame, ring, base, -, hreaches, -⟩ :=
    opens_of_decrypt_ok sealed.toBytes_ne_nil hexempt hopened
  obtain rfl : sealed = frame := Except.ok.inj
    ((SealedFrame.parse_toBytes hcarries.wellFormed).symm.trans hreaches.parsed)
  obtain ⟨hsteps, ⟨body, ⟨candidate, hcandidate, hbody⟩, hwhole⟩, hleast⟩ :=
    hreaches.decrypt_ok_iff.mp hopened
  have hfits := h.fits hreaches.ring_eq
  rw [hfits.salt_eq] at hcandidate hleast
  have hbase : store.key? participant sealed.trailer.keyIndex.toNat = some base :=
    key?_eq_some_iff.mpr ⟨ring, hreaches.ring_eq, hreaches.key_eq⟩
  have hraw := hfirst base _ candidate body hbase hsteps hcandidate hbody hleast
  have hderived := KeyMaterial.derived_of_advance hcandidate
    fun _ => hfits.derived hreaches.key_eq
  obtain ⟨content, hcontent, hpayload⟩ := hcarries.opens
  rw [KeyMaterial.frameKey_eq_of_derived hraw hderived hkey, hcarries.algorithm_eq,
    hcontent] at hbody
  rw [hwhole, ← hpayload, Except.ok.inj hbody]

/-! ## What every step preserves -/

namespace Call

/-- If the payload is sealed, it does not look exempt, and a receiver that
opens it does so with the material it was sealed with. -/
def Unmistakable (call : Call) (payload : Bytes) (keyFrame : Bool) : Prop :=
  let algorithm := call.sender.endpoint.algorithm
  ∀ slot key sealed, call.sender.store.options.leavesClear payload = false →
    call.sender.store.sealingKey call.participant call.keyIndex = .ok (slot, key) →
    SealedFrame.ofFrame (call.frame payload keyFrame) algorithm slot key
      (call.entropy.draw algorithm.ivLength).1 = .ok sealed →
    Marker.exempts call.marker sealed.toBytes = false ∧
      call.receiver.store.OpensFirstWith call.participant sealed key.raw

theorem payload_frame (call : Call) (payload : Bytes) (keyFrame : Bool) :
    (call.frame payload keyFrame).payload = payload := by
  unfold frame
  split <;> rfl

/-- The invariant of a call. -/
structure Kept (call : Call) (algorithm : Algorithm) (options : KeyOptions) : Prop where
  setUp : call.SetUp algorithm options
  covered : ∀ record ∈ call.frames, record.Covered call.marker
  intact : ∀ record ∈ call.frames, record.Intact call.marker
  senderTells : ∃ history, call.sender.Tells history
  receiverTells : ∃ history, call.receiver.Tells history
  forward : call.generations.IsChain (· ≤ ·)
  reached : ∀ generation ∈ call.generations,
    ∃ key, call.receiverKey? = some key ∧ generation ≤ key.generation

variable {call : Call} {algorithm : Algorithm} {options : KeyOptions}

theorem Kept.lawful (h : call.Kept algorithm options) : call.snapshot.Lawful := by
  obtain ⟨sent, hsent⟩ := h.senderTells
  obtain ⟨received, hreceived⟩ := h.receiverTells
  refine ⟨h.covered, h.intact, ?_, ?_, h.forward⟩
  · show call.sender.heard.IsChain _
    rw [hsent.heard_eq]
    exact Outcome.isChain_transitions sent
  · show call.receiver.heard.IsChain _
    rw [hreceived.heard_eq]
    exact Outcome.isChain_transitions received

/-- Generations up to that of a key, continued by that of the key. -/
theorem forward_append_generation {generations : List UInt32} {key? : Option KeyMaterial}
    (hforward : generations.IsChain (· ≤ ·))
    (hreached : ∀ generation ∈ generations,
      ∃ key, key? = some key ∧ generation ≤ key.generation) :
    (generations ++ (key?.map (·.generation)).toList).IsChain (· ≤ ·) ∧
      ∀ generation ∈ generations ++ (key?.map (·.generation)).toList,
        ∃ key, key? = some key ∧ generation ≤ key.generation := by
  cases key? with
  | none =>
      rw [Option.map_none, Option.toList_none, List.append_nil]
      exact ⟨hforward, hreached⟩
  | some key =>
      rw [Option.map_some, Option.toList_some]
      constructor
      · refine hforward.append (.singleton _) ?_
        intro last hlast next hnext
        obtain ⟨found, hfound, hle⟩ := hreached last (List.mem_of_getLast? hlast)
        obtain rfl : key = found := Option.some.inj hfound
        obtain rfl : key.generation = next := Option.some.inj hnext
        exact hle
      · exact List.forall_mem_append.mpr
          ⟨hreached, List.forall_mem_singleton.mpr ⟨key, rfl, UInt32.le_refl _⟩⟩

theorem generations_recorded (call : Call) (sender receiver : Leg) (entropy : Entropy)
    (record : FrameRecord) :
    (call.recorded sender receiver entropy record).generations =
      call.generations ++
        ((receiver.store.key? call.participant call.keyIndex).map (·.generation)).toList := by
  simp only [recorded, receiverGeneration?_eq]
  rfl

theorem Kept.recorded (h : call.Kept algorithm options) {sender receiver : Leg}
    {entropy : Entropy} {record : FrameRecord}
    (hsetUp : (call.recorded sender receiver entropy record).SetUp algorithm options)
    (hsender : ∃ history, sender.Tells history) (hreceiver : ∃ history, receiver.Tells history)
    (hstore : call.receiver.store.MovesTo receiver.store)
    (hcovered : record.Covered call.marker) (hintact : record.Intact call.marker) :
    (call.recorded sender receiver entropy record).Kept algorithm options := by
  have hreached : ∀ generation ∈ call.generations,
      ∃ key, receiver.store.key? call.participant call.keyIndex = some key ∧
        generation ≤ key.generation := by
    intro generation hgeneration
    obtain ⟨key, hkey, hle⟩ := h.reached generation hgeneration
    obtain ⟨steps, later, hlater, hnow⟩ := hstore.keys hkey
    have hcount := KeyMaterial.toNat_generation_of_advance hlater
    refine ⟨later, hnow, ?_⟩
    rw [UInt32.le_iff_toNat_le] at hle ⊢
    omega
  obtain ⟨hforward, hreached⟩ := forward_append_generation h.forward hreached
  rw [← generations_recorded call sender receiver entropy record] at hforward hreached
  exact
    { setUp := hsetUp
      covered := List.forall_mem_append.mpr ⟨h.covered, List.forall_mem_singleton.mpr hcovered⟩
      intact := List.forall_mem_append.mpr ⟨h.intact, List.forall_mem_singleton.mpr hintact⟩
      senderTells := hsender
      receiverTells := hreceiver
      forward := hforward
      reached := hreached }

/-! ### A payload sent -/

section Send

variable {payload wire : Bytes} {keyFrame : Bool}

theorem Kept.covered_wire (h : call.Kept algorithm options)
    (hwire : (call.encrypted algorithm (call.frame payload keyFrame)).1 = .ok wire)
    (delivered : Option Bytes) :
    FrameRecord.Covered call.marker ⟨payload, true, some wire, delivered⟩ := by
  intro sent hsent _ hpayload hmarker
  obtain rfl : wire = sent := Option.some.inj hsent
  have hclear : call.sender.store.options.leavesClear (call.frame payload keyFrame).payload =
      false := by
    rw [h.setUp.sender.options_eq, payload_frame]
    exact KeyOptions.leavesClear_eq_false_iff.mpr ⟨hpayload, h.setUp.marker_eq ▸ hmarker⟩
  rcases Frame.encrypt_eq_ok hwire with ⟨hleft, -⟩ | ⟨-, slot, key, sealed, -, hsealed, rfl⟩
  · rw [hclear] at hleft
    cases hleft
  · have hseals := SealedFrame.sealsTo_toBytes
      (KeyOptions.leavesClear_eq_false_iff.mp hclear).1 hsealed
    have hlonger := hseals.longer
    rw [payload_frame] at hlonger
    exact hlonger

theorem Kept.payload_of_decrypted (h : call.Kept algorithm options)
    (hunmistakable : call.Unmistakable payload keyFrame)
    (hwire : (call.encrypted algorithm (call.frame payload keyFrame)).1 = .ok wire)
    {opened : Opened} (hopened : (call.decrypted algorithm wire).1 = .ok opened) :
    opened.payload = (Marker.strip? call.marker payload).getD payload := by
  have hmarker := h.setUp.marker_eq.trans (congrArg _ h.setUp.receiver.options_eq.symm)
  rcases Frame.encrypt_eq_ok hwire with
    ⟨hclear, rfl⟩ | ⟨hclear, slot, key, sealed, hkey, hsealed, rfl⟩
  · rw [h.setUp.sender.options_eq, ← h.setUp.receiver.options_eq] at hclear
    rw [decrypted, KeyStore.decrypt_of_clear hclear, payload_frame] at hopened
    rw [hmarker, ← Except.ok.inj hopened]
  · have hcarries := SealedFrame.carries_of_ofFrame
      (KeyOptions.leavesClear_eq_false_iff.mp hclear).1 hsealed
    obtain ⟨-, ring, hring, hplace⟩ := KeyStore.sealingKey_eq_ok_iff.mp hkey
    have hderived := (h.setUp.sender.sound.fits hring).derived hplace
    rw [payload_frame] at hclear
    rw [← h.setUp.sender.algorithm_eq] at hsealed
    obtain ⟨hexempt, hfirst⟩ := hunmistakable slot key sealed hclear hkey hsealed
    rw [h.setUp.sender.options_eq, ← h.setUp.receiver.options_eq] at hclear hderived
    rw [hmarker] at hexempt ⊢
    rw [h.setUp.receiver.sound.payload_of_decrypt_ok hcarries hderived hexempt hfirst hopened,
      payload_frame, Marker.exempts_eq_false_iff.mp
        (KeyOptions.leavesClear_eq_false_iff.mp hclear).2, Option.getD_none]

theorem Kept.send (h : call.Kept algorithm options)
    (hunmistakable : call.Unmistakable payload keyFrame) :
    (call.send payload keyFrame).2.Kept algorithm options := by
  obtain ⟨sent, hsent⟩ := h.senderTells
  obtain ⟨received, hreceived⟩ := h.receiverTells
  have hsame := h.setUp.sender.sound.movesTo_self
  cases hwire : (call.encrypted algorithm (call.frame payload keyFrame)).1 with
  | error error =>
      rw [h.setUp.send_of_refused hwire]
      exact h.recorded
        (h.setUp.recorded (h.setUp.sender.worked _ _ hsame) h.setUp.receiver
          h.setUp.senderIndex_eq _ _)
        ⟨_, hsent.worked _ _ _⟩ ⟨_, hreceived⟩ h.setUp.receiver.sound.movesTo_self nofun nofun
  | ok wire =>
      have hmoves : call.receiver.store.MovesTo (call.decrypted algorithm wire).2 :=
        h.setUp.receiver.sound.movesTo_decrypt _ _ _
      rw [h.setUp.send_of_sealed hwire]
      refine h.recorded
        (h.setUp.recorded (h.setUp.sender.worked _ _ hsame) (h.setUp.receiver.worked _ _ hmoves)
          h.setUp.senderIndex_eq _ _)
        ⟨_, hsent.worked _ _ _⟩ ⟨_, hreceived.worked _ _ _⟩ hmoves (h.covered_wire hwire _) ?_
      intro delivered hdelivered _
      cases hopened : (call.decrypted algorithm wire).1 with
      | error error =>
          rw [hopened] at hdelivered
          cases hdelivered
      | ok opened =>
          rw [hopened] at hdelivered
          obtain rfl : opened.payload = delivered := Option.some.inj hdelivered
          exact h.payload_of_decrypted hunmistakable hwire hopened

end Send

/-! ### Keys set and advanced -/

theorem Kept.ratchetSender (h : call.Kept algorithm options) {next : Call}
    (hnext : call.ratchetSender = .ok next) : next.Kept algorithm options := by
  obtain ⟨-, rfl⟩ := ratchetSender_eq_ok_iff.mp hnext
  exact
    { h with
      setUp := h.setUp.withKeys
        ⟨(KeyStore.options_after _ _).trans h.setUp.sender.options_eq,
          h.setUp.sender.sound.after _⟩
        ⟨h.setUp.receiver.options_eq, h.setUp.receiver.sound⟩ _
      senderTells := h.senderTells.imp fun _ htells => ⟨htells.heard_eq, htells.last_eq⟩ }

theorem Kept.provision (h : call.Kept algorithm options) {raw : Bytes} {next : Call}
    (hnext : call.provision raw = .ok next) : next.Kept algorithm options := by
  rw [h.setUp.provision_eq] at hnext
  obtain rfl := Except.ok.inj hnext
  exact
    { h with
      setUp := h.setUp.withKeys
        ⟨(KeyStore.options_after _ _).trans h.setUp.sender.options_eq,
          h.setUp.sender.sound.after _⟩
        ⟨(KeyStore.options_after _ _).trans h.setUp.receiver.options_eq,
          h.setUp.receiver.sound.after _⟩ _
      senderTells := h.senderTells.imp fun _ htells => ⟨htells.heard_eq, htells.last_eq⟩
      receiverTells := h.receiverTells.imp fun _ htells => ⟨htells.heard_eq, htells.last_eq⟩
      forward := .nil
      reached := nofun }

end Call

theorem Scenario.Startable.kept {scenario : Scenario} {algorithm : Algorithm} {media : MediaKind}
    (h : scenario.Startable algorithm media) :
    (scenario.firstCall algorithm media).Kept algorithm scenario.keyOptions where
  setUp := h.setUp
  covered := nofun
  intact := nofun
  senderTells := ⟨[], rfl, rfl⟩
  receiverTells := ⟨[], rfl, rfl⟩
  forward := .nil
  reached := nofun

end MediaSeal
