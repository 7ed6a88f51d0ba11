import MediaSeal.Call.Simulation
import MediaSeal.Proofs.LawfulCalls

/-!
# Where a call stands

How a call goes that nobody disturbs is a matter of counting. The sender's key
is so many generations on, the receiver's so many, and a frame finds its way if
the one is in reach of the other. If it does, the receiver catches up; if not,
it stays where it is, and since the sender never goes back, it stays there for
good. `Standing` keeps these two numbers and what the receiver's recorder has
heard, and `arrive` and `ratchet` say what a frame and an advance of the
sender's key make of them.

`Call.StandsAt` says of a call that these numbers are true of it. Every frame
and every advance preserves it. What this takes of the frames is that none
looks exempt and none opens under an earlier generation than its own, for then
the receiver would not come as far as it is said to.

A ring that no longer tolerates failures makes no difference. It takes a
failure to invalidate it, and after a failure nothing is in reach again.
-/

namespace MediaSeal

/-! ## Counting -/

/-- How many generations the keys of sender and receiver are on, and what the
receiver's recorder has heard. -/
structure Standing where
  ahead : Nat
  behind : Nat
  heard : List Outcome

namespace Standing

variable {window : Nat} {standing : Standing}

/-- Whether the receiver finds the sender's key. -/
def InReach (window : Nat) (standing : Standing) : Prop :=
  standing.ahead ≤ standing.behind + window

instance (window : Nat) (standing : Standing) : Decidable (standing.InReach window) :=
  inferInstanceAs (Decidable (_ ≤ _))

/-- The outcomes that a frame has for the receiver. -/
def outcomes (window : Nat) (standing : Standing) : List Outcome :=
  if standing.InReach window then
    if standing.behind < standing.ahead then [.keyRatcheted, .ok] else [.ok]
  else [.decryptionFailed]

/-- A frame of the sender arrived. -/
def arrive (window : Nat) (standing : Standing) : Standing where
  ahead := standing.ahead
  behind := if standing.InReach window then standing.ahead else standing.behind
  heard := standing.heard ++
    Outcome.transitions standing.heard.getLast? (standing.outcomes window)

/-- The sender's key was advanced. -/
def ratchet (standing : Standing) : Standing := { standing with ahead := standing.ahead + 1 }

theorem arrive_of_inReach (h : standing.InReach window) :
    standing.arrive window =
      ⟨standing.ahead, standing.ahead, standing.heard ++ Outcome.transitions
        standing.heard.getLast? (standing.outcomes window)⟩ := by
  rw [arrive, if_pos h]

theorem arrive_of_not_inReach (h : ¬ standing.InReach window) :
    standing.arrive window =
      ⟨standing.ahead, standing.behind, standing.heard ++ Outcome.transitions
        standing.heard.getLast? [.decryptionFailed]⟩ := by
  rw [arrive, if_neg h, outcomes, if_neg h]

theorem inReach_arrive : (standing.arrive window).InReach window ↔ standing.InReach window := by
  by_cases h : standing.InReach window
  · rw [arrive_of_inReach h]
    exact iff_of_true (Nat.le_add_right _ _) h
  · rw [arrive_of_not_inReach h]
    exact Iff.rfl

/-- Another frame under the same key changes nothing. -/
theorem arrive_arrive : (standing.arrive window).arrive window = standing.arrive window := by
  by_cases h : standing.InReach window
  · have hlast : (standing.arrive window).heard.getLast? = some .ok := by
      rw [arrive, Outcome.getLast?_append_transitions, outcomes, if_pos h]
      split <;> rfl
    have hagain := inReach_arrive.mpr h
    rw [arrive_of_inReach hagain, hlast, outcomes, if_pos hagain, arrive_of_inReach h,
      if_neg (Nat.lt_irrefl _)]
    simp only [Outcome.transitions, if_true, List.append_nil]
  · have hlast : (standing.arrive window).heard.getLast? = some .decryptionFailed := by
      rw [arrive, Outcome.getLast?_append_transitions, outcomes, if_neg h]
      rfl
    have hagain := inReach_arrive.not.mpr h
    rw [arrive_of_not_inReach hagain, hlast, arrive_of_not_inReach h]
    simp only [Outcome.transitions, if_true, List.append_nil]

/-- After one round of frames, and so many more with an advance before each. -/
def afterRounds (window more : Nat) : Standing :=
  if 1 ≤ window ∨ more = 0 then
    ⟨more, more, .ok :: (List.replicate more [.keyRatcheted, .ok]).flatten⟩
  else ⟨more, 0, [.ok, .decryptionFailed]⟩

theorem arrive_start (window : Nat) :
    (Standing.mk 0 0 []).arrive window = afterRounds window 0 := by
  have hreach : (Standing.mk 0 0 []).InReach window := Nat.zero_le _
  rw [arrive_of_inReach hreach, outcomes, if_pos hreach, if_neg (Nat.lt_irrefl _), afterRounds,
    if_pos (.inr rfl)]
  rfl

theorem ahead_afterRounds (window more : Nat) : (afterRounds window more).ahead = more := by
  unfold afterRounds
  split <;> rfl

theorem inReach_ratchet_afterRounds (window more : Nat) :
    (afterRounds window more).ratchet.InReach window ↔ 1 ≤ window := by
  unfold afterRounds
  split
  · show more + 1 ≤ more + window ↔ 1 ≤ window
    omega
  · show more + 1 ≤ 0 + window ↔ 1 ≤ window
    omega

theorem arrive_ratchet_afterRounds (window more : Nat) :
    (afterRounds window more).ratchet.arrive window = afterRounds window (more + 1) := by
  by_cases h : 1 ≤ window
  · have hreach := (inReach_ratchet_afterRounds window more).mpr h
    have hlast : (Outcome.ok :: (List.replicate more [Outcome.keyRatcheted, .ok]).flatten).getLast?
        = some .ok := by
      cases more with
      | zero => rfl
      | succ more =>
          rw [List.replicate_succ', List.flatten_append, List.getLast?_cons, List.getLast?_append]
          rfl
    rw [arrive_of_inReach hreach, outcomes, if_pos hreach]
    simp only [afterRounds, if_pos (Or.inl h), ratchet, Nat.lt_succ_self, if_true, hlast]
    rw [List.replicate_succ', List.flatten_append, List.cons_append]
    rfl
  · have hreach := (inReach_ratchet_afterRounds window more).not.mpr h
    rw [arrive_of_not_inReach hreach]
    cases more with
    | zero =>
        simp only [afterRounds, h, ratchet, or_true, if_true, Nat.add_one_ne_zero, or_self,
          if_false]
        rfl
    | succ more =>
        simp only [afterRounds, h, ratchet, Nat.add_one_ne_zero, or_self, if_false]
        rfl

end Standing

/-! ## One frame and the keys in reach of it -/

namespace KeyStore

variable {store : KeyStore} {participant : Participant} {algorithm : Algorithm} {slot : UInt8}
  {payload : Bytes} {sealed : SealedFrame} {ring : KeyRing} {ahead behind : KeyMaterial}

/-- A frame sealed under a key in reach is opened, if none of the keys before
that one opens it. -/
theorem Sound.decrypt_in_reach {lag : Nat} (h : store.Sound)
    (hcarries : sealed.Carries payload algorithm slot ahead.frameKey)
    (hexempt : Marker.exempts store.options.marker sealed.toBytes = false)
    (hslot : slot.toNat < store.options.ringSize)
    (hring : store.ring? participant = some ring) (hvalid : ring.invalidated = false)
    (hbehind : ring.key? slot.toNat = some behind) (hlag : lag ≤ store.options.window.toNat)
    (hahead : behind.advance store.options.salt lag = .ok ahead)
    (hearlier : ∀ earlier < lag, ∀ body,
      ¬ sealed.OpensAfter store.options.salt behind earlier body) :
    store.decrypt participant algorithm sealed.toBytes =
      (.ok ⟨payload, lag⟩, store.withRing participant (ring.caughtUp slot.toNat ahead)) := by
  have hreaches := hcarries.reachesCipher (Marker.exempts_eq_false_iff.mp hexempt) hslot hring
    hbehind hvalid
  obtain ⟨body, hbody, hwhole⟩ := hcarries.opens
  rw [← hcarries.algorithm_eq] at hbody
  rw [← (h.fits hring).salt_eq] at hahead hearlier
  rw [hreaches.decrypt_of_opens hlag hahead hbody hearlier, hwhole, hcarries.keyIndex_eq]

theorem decrypt_of_invalidated {base : KeyMaterial}
    (hwell : sealed.WellFormed)
    (hexempt : Marker.exempts store.options.marker sealed.toBytes = false)
    (hslot : sealed.trailer.keyIndex.toNat < store.options.ringSize)
    (hring : store.ring? participant = some ring) (hinvalid : ring.invalidated = true)
    (hbase : ring.key? sealed.trailer.keyIndex.toNat = some base) :
    store.decrypt participant sealed.trailer.algorithm sealed.toBytes =
      (.error (.keyInvalidated sealed.trailer.keyIndex), store) := by
  have hempty := List.isEmpty_eq_false_iff.mpr sealed.toBytes_ne_nil
  have hnamed := keySlot_eq_ok_iff.mpr ⟨rfl, hslot⟩
  unfold decrypt
  simp only [hempty, Marker.exempts_eq_false_iff.mp hexempt, SealedFrame.parse_toBytes hwell,
    hnamed, hring, hbase, hinvalid, ne_eq, not_true_eq_false, if_false, if_true,
    Bool.false_eq_true]

/-- A frame that no key in reach opens is refused, whether or not the ring is
still in use, and no key moves. -/
theorem Sound.decrypt_out_of_reach (h : store.Sound)
    (hcarries : sealed.Carries payload algorithm slot ahead.frameKey)
    (hexempt : Marker.exempts store.options.marker sealed.toBytes = false)
    (hslot : slot.toNat < store.options.ringSize)
    (hring : store.ring? participant = some ring) (hbehind : ring.key? slot.toNat = some behind)
    (hclosed : ∀ steps ≤ store.options.window.toNat, ∀ body,
      ¬ sealed.OpensAfter store.options.salt behind steps body) :
    ∃ error : FrameError, error.outcome = .decryptionFailed ∧
      (store.decrypt participant algorithm sealed.toBytes).1 = .error error ∧
      ∀ other index, (store.decrypt participant algorithm sealed.toBytes).2.key? other index =
        store.key? other index := by
  cases hvalid : ring.invalidated with
  | true =>
      rw [← hcarries.keyIndex_eq] at hslot hbehind
      rw [← hcarries.algorithm_eq, decrypt_of_invalidated hcarries.wellFormed hexempt hslot hring
        hvalid hbehind]
      exact ⟨_, rfl, rfl, fun _ _ => rfl⟩
  | false =>
      have hreaches := hcarries.reachesCipher (Marker.exempts_eq_false_iff.mp hexempt) hslot hring
        hbehind hvalid
      rw [← (h.fits hring).salt_eq] at hclosed
      rw [hreaches.decrypt_of_closed hclosed]
      exact ⟨_, rfl, rfl, key?_withRing_recordFailure hring⟩

end KeyStore

/-! ## Calls and their standing -/

/-- What is left of a source after so many vectors were drawn. -/
def Entropy.afterDraws (entropy : Entropy) (length : Nat) : (count : Nat) → Entropy
  | 0 => entropy
  | count + 1 => ((entropy.afterDraws length count).draw length).2

namespace Call

/-- The frame is sealed to this if it is sent in this place, counted from the
start of the call, with the sender's key so many generations on. -/
def SealsTo (start : Call) (frame : Frame) (place generation : Nat) (sealed : SealedFrame) :
    Prop :=
  let algorithm := start.sender.endpoint.algorithm
  ∃ slot base key,
    start.sender.store.sealingKey start.participant start.keyIndex = .ok (slot, base) ∧
    base.advance start.sender.store.options.salt generation = .ok key ∧
    SealedFrame.ofFrame frame algorithm slot key
      ((start.entropy.afterDraws algorithm.ivLength place).draw algorithm.ivLength).1 = .ok sealed

/-- The frame is not to be left alone, and sent in this place and generation
it neither looks exempt nor opens under an earlier generation. -/
structure UnambiguousAt (start : Call) (frame : Frame) (place generation : Nat) : Prop where
  unmarked : Marker.exempts start.marker frame.payload = false
  sealed_unmarked : ∀ {sealed}, start.SealsTo frame place generation sealed →
    Marker.exempts start.marker sealed.toBytes = false
  fresh : ∀ {sealed base}, start.SealsTo frame place generation sealed →
    start.senderKey? = some base →
    ∀ earlier < generation, ∀ body,
      ¬ sealed.OpensAfter start.sender.store.options.salt base earlier body

/-- The call `now` is the call `start` after so many frames, with so many
advances of the sender's key, and it stands like this. -/
structure StandsAt (start now : Call) (algorithm : Algorithm) (options : KeyOptions)
    (base : KeyMaterial) (place : Nat) (standing : Standing) : Prop where
  start_setUp : start.SetUp algorithm options
  base_eq : start.senderKey? = some base
  base_first : base.generation = 0
  kept : now.Kept algorithm options
  participant_eq : now.participant = start.participant
  media_eq : now.media = start.media
  keyIndex_eq : now.keyIndex = start.keyIndex
  entropy_eq : now.entropy = start.entropy.afterDraws algorithm.ivLength place
  senderKey : ∃ key, base.advance options.salt standing.ahead = .ok key ∧
    now.senderKey? = some key
  receiverKey : ∃ key, base.advance options.salt standing.behind = .ok key ∧
    now.receiverKey? = some key
  behind_le : standing.behind ≤ standing.ahead
  valid : standing.InReach options.window.toNat →
    ∀ ring, now.receiver.store.ring? now.participant = some ring → ring.invalidated = false
  senderHeard : now.sender.heard = [Outcome.ok].take place
  receiverHeard : now.receiver.heard = standing.heard
  generation : 0 < place → now.generations.getLast? = now.receiverKey?.map (·.generation)

section Send

variable {start now : Call} {algorithm : Algorithm} {options : KeyOptions} {base : KeyMaterial}
  {place : Nat} {standing : Standing} {payload : Bytes} {keyFrame : Bool}

/-- What the sender seals a frame to now is what the start of the call says. -/
theorem StandsAt.sealsTo (h : start.StandsAt now algorithm options base place standing)
    {frame : Frame} {slot : UInt8} {key : KeyMaterial} {sealed : SealedFrame}
    (hkey : now.sender.store.sealingKey now.participant now.keyIndex = .ok (slot, key))
    (hsealed : SealedFrame.ofFrame frame algorithm slot key
      (now.entropy.draw algorithm.ivLength).1 = .ok sealed) :
    base.advance options.salt standing.ahead = .ok key ∧
      start.SealsTo frame place standing.ahead sealed := by
  obtain ⟨found, hfound, hsender⟩ := h.senderKey
  obtain ⟨named, hnamed, -, hagain⟩ := h.kept.setUp.sealingKey_eq hsender
  obtain ⟨first, hfirst, -, hsealing⟩ := h.start_setUp.sealingKey_eq h.base_eq
  obtain ⟨rfl, rfl⟩ : named = slot ∧ found = key :=
    Prod.mk.inj (Except.ok.inj (hagain.symm.trans hkey))
  obtain rfl : first = named := by
    rw [h.keyIndex_eq, hfirst] at hnamed
    exact UInt8.toNat_inj.mp (Int.natCast_inj.mp hnamed)
  refine ⟨hfound, first, base, found, hsealing, ?_, ?_⟩
  · rw [h.start_setUp.sender.options_eq]
    exact hfound
  · rw [h.start_setUp.sender.algorithm_eq, ← h.entropy_eq]
    exact hsealed

theorem frame_eq_of_media (h : now.media = start.media) (payload : Bytes) (keyFrame : Bool) :
    now.frame payload keyFrame = start.frame payload keyFrame := by
  rw [frame, frame, h]

/-- From the receiver's key to the sender's it is as far as the counts say. -/
theorem StandsAt.exists_lag (h : start.StandsAt now algorithm options base place standing) :
    ∃ ahead behind lag, now.senderKey? = some ahead ∧ now.receiverKey? = some behind ∧
      base.advance options.salt standing.ahead = .ok ahead ∧
      base.advance options.salt standing.behind = .ok behind ∧
      standing.ahead = standing.behind + lag ∧ behind.advance options.salt lag = .ok ahead := by
  obtain ⟨ahead, hahead, hsender⟩ := h.senderKey
  obtain ⟨behind, hbehind, hreceiver⟩ := h.receiverKey
  obtain ⟨lag, hlag⟩ := Nat.exists_eq_add_of_le h.behind_le
  refine ⟨ahead, behind, lag, hsender, hreceiver, hahead, hbehind, hlag, ?_⟩
  rw [← KeyMaterial.advance_add hbehind, ← hlag]
  exact hahead

/-- No key opens a frame that the receiver has still to get past. -/
theorem StandsAt.closed_earlier (h : start.StandsAt now algorithm options base place standing)
    {frame : Frame} {sealed : SealedFrame} (hframe : start.UnambiguousAt frame place standing.ahead)
    (hsealsTo : start.SealsTo frame place standing.ahead sealed) {behind : KeyMaterial}
    (hbehind : base.advance options.salt standing.behind = .ok behind) {steps : Nat}
    (hsteps : standing.behind + steps < standing.ahead) (body : Bytes) :
    ¬ sealed.OpensAfter now.receiver.store.options.salt behind steps body := by
  have hfresh := hframe.fresh hsealsTo h.base_eq (standing.behind + steps) hsteps body
  rw [h.start_setUp.sender.options_eq, SealedFrame.opensAfter_add_iff hbehind] at hfresh
  rwa [h.kept.setUp.receiver.options_eq]

theorem StandsAt.unmistakable (h : start.StandsAt now algorithm options base place standing)
    (hframe : start.UnambiguousAt (start.frame payload keyFrame) place standing.ahead) :
    now.Unmistakable payload keyFrame := by
  intro slot key sealed hclear hkey hsealed
  rw [h.kept.setUp.sender.algorithm_eq, frame_eq_of_media h.media_eq] at hsealed
  obtain ⟨hkeyAhead, hsealsTo⟩ := h.sealsTo hkey hsealed
  obtain ⟨ahead, behind, lag, hsender, hreceiver, hahead, hbehind, hlag, hdistance⟩ := h.exists_lag
  obtain rfl : ahead = key := Except.ok.inj (hahead.symm.trans hkeyAhead)
  have hmarker : now.marker = start.marker :=
    h.kept.setUp.marker_eq.trans h.start_setUp.marker_eq.symm
  refine ⟨hmarker ▸ hframe.sealed_unmarked hsealsTo, ?_⟩
  intro found steps candidate body hfound hsteps hcandidate hbody hleast
  have hpayload : (start.frame payload keyFrame).payload ≠ [] := by
    rw [payload_frame]
    exact (KeyOptions.leavesClear_eq_false_iff.mp hclear).1
  have hcarries := SealedFrame.carries_of_ofFrame hpayload hsealed
  obtain ⟨hslot, -⟩ := KeyStore.keySlot_eq_ok_iff.mp (KeyStore.sealingKey_eq_ok_iff.mp hkey).1
  obtain rfl : behind = found := by
    rw [hcarries.keyIndex_eq, ← hslot] at hfound
    exact Option.some.inj (hreceiver.symm.trans hfound)
  have hclosed := fun (hlt : standing.behind + steps < standing.ahead) =>
    h.closed_earlier hframe hsealsTo hbehind hlt body
  rw [h.kept.setUp.receiver.options_eq] at hcandidate hleast hclosed
  rcases Nat.lt_trichotomy steps lag with hbefore | rfl | hbeyond
  · exact absurd ⟨candidate, hcandidate, hbody⟩ (hclosed (by omega))
  · rw [Except.ok.inj (hcandidate.symm.trans hdistance)]
  · obtain ⟨content, hcontent, -⟩ := hcarries.opens
    rw [← hcarries.algorithm_eq] at hcontent
    exact absurd ⟨ahead, hdistance, hcontent⟩ (hleast lag hbeyond content)

/-- A frame that the receiver makes this of. -/
theorem StandsAt.send_of_received
    (h : start.StandsAt now algorithm options base place standing)
    (hunmistakable : now.Unmistakable payload keyFrame) {wire : Bytes}
    (hencrypted : now.encrypted algorithm (now.frame payload keyFrame) =
      (.ok wire, (now.entropy.draw algorithm.ivLength).2))
    (houtcomes : Endpoint.history (now.decrypted algorithm wire).1 =
      standing.outcomes options.window.toNat)
    (hkey : ∃ key,
      base.advance options.salt (standing.arrive options.window.toNat).behind = .ok key ∧
      (now.decrypted algorithm wire).2.key? now.participant now.keyIndex = some key)
    (hvalid : standing.InReach options.window.toNat →
      ∀ ring, (now.decrypted algorithm wire).2.ring? now.participant = some ring →
        ring.invalidated = false) :
    start.StandsAt (now.send payload keyFrame).2 algorithm options base (place + 1)
      (standing.arrive options.window.toNat) := by
  have hkept := h.kept.send hunmistakable
  obtain ⟨sent, hsent⟩ := h.kept.senderTells
  obtain ⟨received, hreceived⟩ := h.kept.receiverTells
  obtain ⟨key, hadvance, hnow⟩ := hkey
  rw [h.kept.setUp.send_of_sealed (congrArg Prod.fst hencrypted)] at hkept ⊢
  refine
    { h with
      kept := hkept
      participant_eq := h.participant_eq
      media_eq := h.media_eq
      keyIndex_eq := h.keyIndex_eq
      entropy_eq := ?_
      senderKey := h.senderKey
      receiverKey := ⟨key, hadvance, hnow⟩
      behind_le := ?_
      valid := fun hreach => hvalid (Standing.inReach_arrive.mp hreach)
      senderHeard := ?_
      receiverHeard := ?_
      generation := fun _ => ?_ }
  · rw [Entropy.afterDraws, ← h.entropy_eq]
    exact congrArg Prod.snd hencrypted
  · have hle := h.behind_le
    show (if _ then _ else _) ≤ standing.ahead
    split
    · exact Nat.le_refl _
    · exact hle
  · show now.sender.heard ++ Outcome.transitions now.sender.endpoint.lastOutcome [.ok] = _
    rw [hsent.last_eq_getLast?, h.senderHeard]
    cases place with
    | zero => rfl
    | succ place => rw [List.take_succ_cons, List.take_succ_cons, List.take_nil, List.take_nil]; rfl
  · show now.receiver.heard ++ Outcome.transitions now.receiver.endpoint.lastOutcome _ = _
    rw [hreceived.last_eq_getLast?, houtcomes, h.receiverHeard]
    rfl
  · show List.getLast? _ =
      Option.map _ ((now.decrypted algorithm wire).2.key? now.participant now.keyIndex)
    have hgenerations := generations_recorded now
      (now.sender.worked (now.frame payload keyFrame) (.ok ⟨wire, 0⟩) now.sender.store)
      (now.receiver.worked ((now.frame payload keyFrame).withPayload wire)
        (now.decrypted algorithm wire).1 (now.decrypted algorithm wire).2)
    rw [hgenerations]
    show (now.generations ++
      (Option.map _ ((now.decrypted algorithm wire).2.key? _ _)).toList).getLast? = _
    rw [hnow, Option.map_some, Option.toList_some, List.getLast?_concat]

/-- The sender seals the frame, and what leaves it is the sealed frame. -/
theorem StandsAt.exists_sealed (h : start.StandsAt now algorithm options base place standing)
    (hpayload : payload ≠ []) (hlength : payload.length ≤ Gcm.maxLength)
    (hunmarked : Marker.exempts start.marker payload = false) :
    ∃ (slot : UInt8) (ahead : KeyMaterial) (sealed : SealedFrame),
      now.keyIndex = slot.toNat ∧ slot.toNat < options.ringSize ∧
      base.advance options.salt standing.ahead = .ok ahead ∧
      sealed.Carries payload algorithm slot ahead.frameKey ∧
      start.SealsTo (start.frame payload keyFrame) place standing.ahead sealed ∧
      now.encrypted algorithm (now.frame payload keyFrame) =
        (.ok sealed.toBytes, (now.entropy.draw algorithm.ivLength).2) := by
  obtain ⟨ahead, hahead, hsender⟩ := h.senderKey
  obtain ⟨slot, hslot, hlt, hsealing⟩ := h.kept.setUp.sealingKey_eq hsender
  have hclear : now.sender.store.options.leavesClear (start.frame payload keyFrame).payload =
      false := by
    rw [h.kept.setUp.sender.options_eq, payload_frame, KeyOptions.leavesClear_eq_false_iff,
      ← h.start_setUp.marker_eq]
    exact ⟨hpayload, hunmarked⟩
  rw [← start.payload_frame payload keyFrame] at hpayload hlength
  obtain ⟨sealed, hsealed⟩ : ∃ sealed, SealedFrame.ofFrame (start.frame payload keyFrame) algorithm
      slot ahead (now.entropy.draw algorithm.ivLength).1 = .ok sealed :=
    SealedFrame.exists_ofFrame_eq_ok hlength (Entropy.length_draw _ _)
  have hcarries := SealedFrame.carries_of_ofFrame hpayload hsealed
  rw [payload_frame] at hcarries
  obtain ⟨-, hsealsTo⟩ := h.sealsTo hsealing hsealed
  refine ⟨slot, ahead, sealed, hslot, hlt, hahead, hcarries, hsealsTo, ?_⟩
  have hreaches : (start.frame payload keyFrame).reachesCipher now.sender.store now.participant
      now.keyIndex = true := by
    rw [Frame.reachesCipher, hclear, hsealing]
    rfl
  rw [frame_eq_of_media h.media_eq, encrypted, Frame.encrypt, if_pos hreaches]
  simp only [Frame.encryptWith_of_sealingKey hclear hsealing, hsealed]
  rfl

section Received

variable {slot : UInt8} {ahead : KeyMaterial} {sealed : SealedFrame}

/-- What is in reach is opened, and the receiver's key is the sender's then. -/
theorem StandsAt.decrypted_in_reach
    (h : start.StandsAt now algorithm options base place standing)
    {frame : Frame} (hframe : start.UnambiguousAt frame place standing.ahead)
    (hsealsTo : start.SealsTo frame place standing.ahead sealed)
    (hslot : now.keyIndex = slot.toNat) (hlt : slot.toNat < options.ringSize)
    (hahead : base.advance options.salt standing.ahead = .ok ahead)
    (hcarries : sealed.Carries payload algorithm slot ahead.frameKey)
    (hreach : standing.InReach options.window.toNat) :
    (now.decrypted algorithm sealed.toBytes).1 =
        .ok ⟨payload, standing.ahead - standing.behind⟩ ∧
      (now.decrypted algorithm sealed.toBytes).2.key? now.participant now.keyIndex =
        some ahead ∧
      ∀ ring, (now.decrypted algorithm sealed.toBytes).2.ring? now.participant = some ring →
        ring.invalidated = false := by
  obtain ⟨later, behind, lag, -, hreceiver, hlater, hbehind, hlag, hdistance⟩ := h.exists_lag
  obtain rfl : ahead = later := Except.ok.inj (hahead.symm.trans hlater)
  obtain ⟨ring, hring, hplace⟩ := KeyStore.key?_eq_some_iff.mp hreceiver
  have hvalid := h.valid hreach ring hring
  have hreceiverSetUp := h.kept.setUp.receiver
  rw [← hreceiverSetUp.options_eq] at hlt hdistance
  have hlagLe : lag ≤ now.receiver.store.options.window.toNat := by
    rw [hreceiverSetUp.options_eq]
    unfold Standing.InReach at hreach
    omega
  have hexempt : Marker.exempts now.receiver.store.options.marker sealed.toBytes = false := by
    rw [hreceiverSetUp.options_eq, ← h.start_setUp.marker_eq]
    exact hframe.sealed_unmarked hsealsTo
  rw [hslot] at hplace
  have hdecrypted : now.decrypted algorithm sealed.toBytes = _ :=
    hreceiverSetUp.sound.decrypt_in_reach hcarries hexempt hlt hring hvalid hplace hlagLe hdistance
      fun steps hsteps => h.closed_earlier hframe hsealsTo hbehind (by omega)
  have hin : slot.toNat < ring.size := by
    rw [(hreceiverSetUp.sound.fits hring).size_eq]
    exact hlt
  rw [hdecrypted]
  refine ⟨?_, ?_, ?_⟩
  · rw [hlag, Nat.add_sub_cancel_left]
  · rw [KeyStore.key?_withRing_caughtUp hring hin, if_pos ⟨.inr rfl, hslot⟩]
  · intro found hfound
    rw [KeyStore.ring?_withRing_self] at hfound
    obtain rfl := Option.some.inj hfound
    exact hvalid

theorem StandsAt.decrypted_out_of_reach
    (h : start.StandsAt now algorithm options base place standing)
    {frame : Frame} (hframe : start.UnambiguousAt frame place standing.ahead)
    (hsealsTo : start.SealsTo frame place standing.ahead sealed)
    (hslot : now.keyIndex = slot.toNat) (hlt : slot.toNat < options.ringSize)
    (hcarries : sealed.Carries payload algorithm slot ahead.frameKey)
    (hreach : ¬ standing.InReach options.window.toNat) :
    ∃ error : FrameError, error.outcome = .decryptionFailed ∧
      (now.decrypted algorithm sealed.toBytes).1 = .error error ∧
      (now.decrypted algorithm sealed.toBytes).2.key? now.participant now.keyIndex =
        now.receiverKey? := by
  obtain ⟨behind, hbehind, hreceiver⟩ := h.receiverKey
  obtain ⟨ring, hring, hplace⟩ := KeyStore.key?_eq_some_iff.mp hreceiver
  have hreceiverSetUp := h.kept.setUp.receiver
  rw [← hreceiverSetUp.options_eq] at hlt hreach
  have hexempt : Marker.exempts now.receiver.store.options.marker sealed.toBytes = false := by
    rw [hreceiverSetUp.options_eq, ← h.start_setUp.marker_eq]
    exact hframe.sealed_unmarked hsealsTo
  rw [hslot] at hplace
  obtain ⟨error, houtcome, herror, hkeys⟩ :=
    hreceiverSetUp.sound.decrypt_out_of_reach hcarries hexempt hlt hring hplace
      fun steps hsteps => h.closed_earlier hframe hsealsTo hbehind (by
        unfold Standing.InReach at hreach
        omega)
  exact ⟨error, houtcome, herror, hkeys _ _⟩

end Received

/-- A frame is delivered if the receiver finds the key, and dropped otherwise;
and the call stands as counting says. -/
theorem StandsAt.send (h : start.StandsAt now algorithm options base place standing)
    (hpayload : payload ≠ []) (hlength : payload.length ≤ Gcm.maxLength)
    (hframe : start.UnambiguousAt (start.frame payload keyFrame) place standing.ahead) :
    (now.send payload keyFrame).1 =
        (if standing.InReach options.window.toNat then .delivered payload
          else .droppedAtReceiver) ∧
      start.StandsAt (now.send payload keyFrame).2 algorithm options base (place + 1)
        (standing.arrive options.window.toNat) := by
  have hunmistakable := h.unmistakable hframe
  have hunmarked := hframe.unmarked
  rw [payload_frame] at hunmarked
  obtain ⟨slot, ahead, sealed, hslot, hlt, hahead, hcarries, hsealsTo, hencrypted⟩ :=
    h.exists_sealed hpayload hlength hunmarked
  have hsend := congrArg Prod.fst
    (h.kept.setUp.send_of_sealed (congrArg Prod.fst hencrypted))
  by_cases hreach : standing.InReach options.window.toNat
  · obtain ⟨hopened, hkey, hvalid⟩ := h.decrypted_in_reach hframe hsealsTo hslot hlt
      hahead hcarries hreach
    refine ⟨by rw [hsend, if_pos hreach, hopened], ?_⟩
    refine h.send_of_received hunmistakable hencrypted ?_ ⟨ahead, ?_, hkey⟩ fun _ => hvalid
    · rw [hopened, Standing.outcomes, if_pos hreach]
      simp only [Endpoint.history, Nat.sub_pos_iff_lt]
    · rw [Standing.arrive_of_inReach hreach]
      exact hahead
  · obtain ⟨error, houtcome, hrefused, hkey⟩ := h.decrypted_out_of_reach hframe
      hsealsTo hslot hlt hcarries hreach
    obtain ⟨behind, hbehind, hreceiver⟩ := h.receiverKey
    refine ⟨by rw [hsend, if_neg hreach, hrefused], ?_⟩
    refine h.send_of_received hunmistakable hencrypted ?_ ⟨behind, ?_, hkey.trans hreceiver⟩
      fun hagain => absurd hagain hreach
    · rw [hrefused, Standing.outcomes, if_neg hreach, Endpoint.history, houtcome]
    · rw [Standing.arrive_of_not_inReach hreach]
      exact hbehind

/-- The sender's key is advanced, as long as it is not of the last generation. -/
theorem StandsAt.ratchetSender (h : start.StandsAt now algorithm options base place standing)
    (hroom : standing.ahead < lastGeneration.toNat) :
    ∃ next, now.ratchetSender = .ok next ∧
      start.StandsAt next algorithm options base place standing.ratchet := by
  obtain ⟨ahead, hahead, hsender⟩ := h.senderKey
  have hcount := KeyMaterial.toNat_generation_of_advance hahead
  rw [h.base_first, UInt32.toNat_zero, Nat.zero_add] at hcount
  obtain ⟨later, hlater⟩ : ∃ later, ahead.advance options.salt 1 = .ok later :=
    KeyMaterial.advance_isOk_iff.mpr (by omega)
  obtain ⟨_, hratchet, hsame⟩ := KeyMaterial.advance_succ_eq_ok_iff.mp hlater
  obtain rfl := Except.ok.inj hsame
  obtain ⟨next, hnext, -, hadvanced⟩ := h.kept.setUp.ratchetSender hsender hratchet
  obtain ⟨-, rfl⟩ := ratchetSender_eq_ok_iff.mp hnext
  exact ⟨_, hnext,
    { h with
      kept := h.kept.ratchetSender hnext
      senderKey := ⟨_, (KeyMaterial.advance_add hahead).trans hlater, hadvanced⟩
      behind_le := Nat.le_succ_of_le h.behind_le
      valid := fun hreach => h.valid (Nat.le_of_succ_le hreach) }⟩

end Send

end Call

namespace Scenario

variable {scenario : Scenario} {algorithm : Algorithm} {media : MediaKind}

theorem Startable.senderKey?_firstCall (h : scenario.Startable algorithm media) :
    (scenario.firstCall algorithm media).senderKey? =
      some (.supplied (Bytes.ofText scenario.key) scenario.keyOptions.salt) :=
  h.key?_firstStore

theorem Startable.standsAt (h : scenario.Startable algorithm media) :
    let call := scenario.firstCall algorithm media
    call.StandsAt call algorithm scenario.keyOptions
      (.supplied (Bytes.ofText scenario.key) scenario.keyOptions.salt) 0 ⟨0, 0, []⟩ where
  start_setUp := h.setUp
  base_eq := h.key?_firstStore
  base_first := rfl
  kept := h.kept
  participant_eq := rfl
  media_eq := rfl
  keyIndex_eq := rfl
  entropy_eq := rfl
  senderKey := ⟨_, rfl, h.key?_firstStore⟩
  receiverKey := ⟨_, rfl, h.key?_firstStore⟩
  behind_le := Nat.le_refl _
  valid := by
    intro _ ring hring
    have hnew := KeyStore.new_eq_ok_iff.mpr ⟨h.options_faultless, rfl⟩
    have hset : KeyStore.setKey _ ⟨scenario.participant⟩ scenario.keyIndex _ = _ :=
      (KeyStore.sound_of_new hnew).setKey_eq_ok (Bytes.ofText scenario.key) h.index_in
    obtain ⟨-, set, hset, hstore⟩ := KeyStore.setKey_eq_ok_iff.mp hset
    obtain ⟨slot, -, -, rfl⟩ := KeyRing.setKey_eq_ok_iff.mp hset
    have hring : scenario.firstStore.ring? ⟨scenario.participant⟩ = some ring := hring
    rw [firstStore, hstore, KeyStore.ring?_withRing_self] at hring
    exact Option.some.inj hring ▸ rfl
  senderHeard := rfl
  receiverHeard := rfl
  generation := nofun

end Scenario

end MediaSeal
