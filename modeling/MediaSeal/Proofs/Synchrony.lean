import MediaSeal.Proofs.Exemption
import MediaSeal.Proofs.Reception

/-!
# A receiver that lags behind does not fall out of step

Sender and receiver have a store each. Keys are set, advanced and taken away
on both sides; only the sender may also advance a key without telling the
receiver, as long as the receiver could still find it. The receiver moves by
itself when it opens a frame, and it is shown frames that it rejects.

Throughout, the receiver's key is one that the sender's key descends from, by
no more steps than the receiver searches. Every kind of step preserves this
for a reason of its own. Setting a key starts both anew. Advancing both keeps
the distance, unless the sender's key is of the last generation: then the call
on the sender is refused and the receiver gains a step. Opening a frame moves
the receiver down the same line and never beyond the sender, since the
sender's own key is among those it tries.

The search stops at the first key that opens the frame, which need not be the
sender's. What is assumed is that it then has the material that the frame was
sealed with; from there on the line is the same, so even such a receiver
arrives at the sender's keys.
-/

namespace MediaSeal

/-! ## The distance between two keys -/

/-- Both places are empty, or the sender's key descends from the receiver's
within reach of the search. -/
inductive KeysInStep (options : KeyOptions) :
    (ahead behind : Option KeyMaterial) → Prop
  | empty : KeysInStep options none none
  | filled {ahead behind : KeyMaterial} {lag : Nat}
      (within : lag ≤ options.window.toNat)
      (generation_eq : ahead.generation.toNat = behind.generation.toNat + lag)
      (descends : behind.advance options.salt lag = .ok ahead) :
      KeysInStep options (some ahead) (some behind)

theorem KeyMaterial.nextOrLast_of_ok {salt : Bytes} {key next : KeyMaterial}
    (h : key.ratchet salt = .ok next) : key.nextOrLast salt = next := by
  rw [nextOrLast, h]

theorem KeyMaterial.nextOrLast_of_error {salt : Bytes} {key : KeyMaterial} {error : CipherError}
    (h : key.ratchet salt = .error error) : key.nextOrLast salt = key := by
  rw [nextOrLast, h]

namespace KeysInStep

variable {options : KeyOptions} {ahead behind : KeyMaterial}

theorem of_advance {lag : Nat} (hlag : lag ≤ options.window.toNat)
    (hahead : behind.advance options.salt lag = .ok ahead) :
    KeysInStep options (some ahead) (some behind) :=
  .filled hlag (KeyMaterial.toNat_generation_of_advance hahead) hahead

theorem same (options : KeyOptions) (key : Option KeyMaterial) :
    KeysInStep options key key := by
  cases key with
  | none => exact .empty
  | some key => exact of_advance (Nat.zero_le _) (KeyMaterial.advance_zero key)

/-- The sender alone moves on, and had room to. -/
theorem nextOrLast_ahead (h : KeysInStep options (some ahead) (some behind))
    (hroom : ahead.generation.toNat < behind.generation.toNat + options.window.toNat) :
    KeysInStep options (some (ahead.nextOrLast options.salt)) (some behind) := by
  cases hnext : ahead.ratchet options.salt with
  | error error =>
      rw [KeyMaterial.nextOrLast_of_error hnext]
      exact h
  | ok next =>
      rw [KeyMaterial.nextOrLast_of_ok hnext]
      cases h with
      | @filled _ _ lag within generation_eq descends =>
          have hone := KeyMaterial.advance_succ_eq_ok_iff.mpr
            ⟨next, hnext, KeyMaterial.advance_zero next⟩
          have hmore := (KeyMaterial.advance_add descends).trans hone
          exact of_advance (by omega) hmore

/-- Both move on. A sender at the end of its line stays, and the receiver
comes a step closer. -/
theorem nextOrLast_both (h : KeysInStep options (some ahead) (some behind)) :
    KeysInStep options (some (ahead.nextOrLast options.salt))
      (some (behind.nextOrLast options.salt)) := by
  cases h with
  | @filled _ _ lag within generation_eq descends =>
      cases hnext : ahead.ratchet options.salt with
      | ok next =>
          have hone := KeyMaterial.advance_succ_eq_ok_iff.mpr
            ⟨next, hnext, KeyMaterial.advance_zero next⟩
          obtain ⟨closer, hcloser, hrest⟩ := KeyMaterial.advance_succ_eq_ok_iff.mp
            ((KeyMaterial.advance_add descends).trans hone)
          rw [KeyMaterial.nextOrLast_of_ok hnext, KeyMaterial.nextOrLast_of_ok hcloser]
          exact of_advance within hrest
      | error error =>
          rw [KeyMaterial.nextOrLast_of_error hnext]
          cases lag with
          | zero =>
              injection descends with hsame
              rw [hsame, KeyMaterial.nextOrLast_of_error hnext]
              exact same options (some ahead)
          | succ lag =>
              obtain ⟨closer, hcloser, hrest⟩ :=
                KeyMaterial.advance_succ_eq_ok_iff.mp descends
              rw [KeyMaterial.nextOrLast_of_ok hcloser]
              exact of_advance (by omega) hrest

/-- What is done on both sides keeps them in step. -/
theorem effect {ahead behind : Option KeyMaterial} (h : KeysInStep options ahead behind)
    (call : KeyCall) (participant : Participant) (index : Int) :
    KeysInStep options (call.effect options participant index ahead)
      (call.effect options participant index behind) := by
  cases call with
  | setKey other place raw =>
      simp only [KeyCall.effect]
      split
      · exact same options _
      · exact h
  | ratchetKey other place =>
      simp only [KeyCall.effect]
      split
      · cases h with
        | empty => exact .empty
        | filled within generation_eq descends =>
            exact (KeysInStep.filled within generation_eq descends).nextOrLast_both
      · exact h
  | remove other =>
      simp only [KeyCall.effect]
      split
      · exact .empty
      · exact h

end KeysInStep

/-! ## Sender and receiver -/

/-- A sender's store and a receiver's. -/
structure Link where
  sender : KeyStore
  receiver : KeyStore

/-- What can happen between them. A frame is sent with whatever vector was
drawn for it; a rejected payload can come from anywhere. -/
inductive LinkStep
  | both (call : KeyCall)
  | ratchetSender (participant : Participant) (index : Int)
  | reject (participant : Participant) (algorithm : Algorithm) (payload : Bytes)
  | send (participant : Participant) (algorithm : Algorithm) (index : Int) (frame : Frame)
      (iv : Bytes)

namespace Link

/-- The stores after a step. -/
def after (link : Link) : LinkStep → Link
  | .both call => ⟨link.sender.after call, link.receiver.after call⟩
  | .ratchetSender participant index =>
      { link with sender := link.sender.after (.ratchetKey participant index) }
  | .reject participant algorithm payload =>
      { link with receiver := (link.receiver.decrypt participant algorithm payload).2 }
  | .send participant algorithm index frame iv =>
      match frame.encryptWith link.sender participant algorithm index iv with
      | .ok wire =>
          { link with receiver := (link.receiver.decrypt participant algorithm wire).2 }
      | .error _ => link

/-- The stores after several steps. -/
def run (link : Link) (steps : List LinkStep) : Link := steps.foldl after link

/-- If the frame is sealed, it does not look exempt, and no key that the
receiver might try opens it but one with the material it was sealed with. -/
def Unambiguous (link : Link) (participant : Participant) (algorithm : Algorithm)
    (index : Int) (frame : Frame) (iv : Bytes) : Prop :=
  ∀ slot key sealed, link.sender.options.leavesClear frame.payload = false →
    link.sender.sealingKey participant index = .ok (slot, key) →
    SealedFrame.ofFrame frame algorithm slot key iv = .ok sealed →
    Marker.exempts link.receiver.options.marker sealed.toBytes = false ∧
      ∀ base steps candidate body, link.receiver.key? participant index = some base →
        steps ≤ link.receiver.options.window.toNat →
        base.advance link.receiver.options.salt steps = .ok candidate →
        algorithm.decrypt candidate.frameKey sealed.iv sealed.aad sealed.ciphertext = .ok body →
        candidate.raw = key.raw

/-- Whether a step is one of those that the two keep up with. -/
def Allows (link : Link) : LinkStep → Prop
  | .both _ => True
  | .ratchetSender participant index =>
      ∀ ahead behind, link.sender.key? participant index = some ahead →
        link.receiver.key? participant index = some behind →
        ahead.generation.toNat <
          behind.generation.toNat + link.receiver.options.window.toNat
  | .reject participant algorithm payload =>
      ∃ error, (link.receiver.decrypt participant algorithm payload).1 = .error error
  | .send participant algorithm index frame iv =>
      link.Unambiguous participant algorithm index frame iv

/-- Each step is allowed when its turn comes. -/
def AllowsAll (link : Link) : List LinkStep → Prop
  | [] => True
  | step :: rest => link.Allows step ∧ (link.after step).AllowsAll rest

end Link

/-! ## Whole runs -/

/-- The invariant of sender and receiver. -/
structure Link.Kept (options : KeyOptions) (link : Link) : Prop where
  sender_options : link.sender.options = options
  receiver_options : link.receiver.options = options
  sender_sound : link.sender.Sound
  receiver_sound : link.receiver.Sound
  inStep : ∀ participant index, KeysInStep options (link.sender.key? participant index)
    (link.receiver.key? participant index)

namespace Link

variable {options : KeyOptions} {link : Link}

theorem kept_of_new {store : KeyStore} (h : KeyStore.new options = .ok store) :
    (Link.mk store store).Kept options := by
  have hoptions : store.options = options := by
    obtain ⟨-, rfl⟩ := KeyStore.new_eq_ok_iff.mp h
    rfl
  exact ⟨hoptions, hoptions, KeyStore.sound_of_new h, KeyStore.sound_of_new h,
    fun participant index => .same options _⟩

theorem Kept.behind_of_ahead (h : link.Kept options) {participant : Participant} {index : Int}
    {ahead : KeyMaterial} (hahead : link.sender.key? participant index = some ahead) :
    ∃ behind lag, link.receiver.key? participant index = some behind ∧
      lag ≤ options.window.toNat ∧ behind.advance options.salt lag = .ok ahead := by
  have hinStep := h.inStep participant index
  rw [hahead] at hinStep
  cases hkey : link.receiver.key? participant index with
  | none =>
      rw [hkey] at hinStep
      cases hinStep
  | some behind =>
      rw [hkey] at hinStep
      cases hinStep with
      | filled within generation_eq descends => exact ⟨behind, _, rfl, within, descends⟩

/-- Every sealed frame finds the receiver in step. -/
theorem Kept.reception (h : link.Kept options) (htolerance : options.tolerance = none)
    {participant : Participant} {algorithm : Algorithm} {index : Int} {frame : Frame}
    {iv wire : Bytes} (hclear : options.leavesClear frame.payload = false)
    (hsent : frame.encryptWith link.sender participant algorithm index iv = .ok wire)
    (hunambiguous : link.Unambiguous participant algorithm index frame iv) :
    ∃ ahead behind found taken rest, link.sender.key? participant index = some ahead ∧
      link.receiver.Reception participant algorithm index frame.payload wire ahead behind
        found taken rest := by
  rw [← h.sender_options] at hclear
  obtain ⟨slot, ahead, hsealing, sealed, hsealed, rfl⟩ :=
    (Frame.encryptWith_eq_ok_iff hclear).mp hsent
  obtain ⟨hexempt, honly⟩ := hunambiguous slot ahead sealed hclear hsealing hsealed
  obtain ⟨hslot, sending, hsending, hkey⟩ := KeyStore.sealingKey_eq_ok_iff.mp hsealing
  obtain ⟨rfl, hlt⟩ := KeyStore.keySlot_eq_ok_iff.mp hslot
  have hahead := KeyStore.key?_eq_some_iff.mpr ⟨sending, hsending, hkey⟩
  obtain ⟨behind, lag, hbehind, hlag, hdescends⟩ := h.behind_of_ahead hahead
  rw [h.sender_options, ← h.receiver_options] at hlt
  rw [← h.receiver_options] at htolerance hlag hdescends
  have hcarries := SealedFrame.carries_of_ofFrame
    (KeyOptions.leavesClear_eq_false_iff.mp hclear).1 hsealed
  obtain ⟨found, taken, rest, hreception⟩ := h.receiver_sound.reception htolerance hlt hbehind
    hlag hdescends hcarries hexempt (fun steps candidate body hsteps hcandidate hopens =>
      honly behind steps candidate body hbehind hsteps hcandidate hopens)
  exact ⟨ahead, behind, found, taken, rest, hahead, hreception⟩

/-! ### One step -/

theorem Kept.both (h : link.Kept options) (call : KeyCall) :
    (link.after (.both call)).Kept options where
  sender_options := (KeyStore.options_after _ call).trans h.sender_options
  receiver_options := (KeyStore.options_after _ call).trans h.receiver_options
  sender_sound := h.sender_sound.after call
  receiver_sound := h.receiver_sound.after call
  inStep := by
    intro participant index
    have heffect := (h.inStep participant index).effect call participant index
    simp only [Link.after]
    rw [KeyStore.key?_after h.sender_sound, KeyStore.key?_after h.receiver_sound,
      h.sender_options, h.receiver_options]
    exact heffect

theorem Kept.ratchetSender (h : link.Kept options) {participant : Participant} {index : Int}
    (hroom : link.Allows (.ratchetSender participant index)) :
    (link.after (.ratchetSender participant index)).Kept options where
  sender_options := (KeyStore.options_after _ _).trans h.sender_options
  receiver_options := h.receiver_options
  sender_sound := h.sender_sound.after (.ratchetKey participant index)
  receiver_sound := h.receiver_sound
  inStep := by
    intro other place
    have hinStep := h.inStep other place
    simp only [Link.after]
    rw [KeyStore.key?_after h.sender_sound, KeyCall.effect, h.sender_options]
    split
    · next htouched =>
        obtain ⟨hrow, rfl⟩ := htouched
        have hsender := KeyStore.key?_of_same_row (h.sender_options ▸ hrow) place
        have hreceiver := KeyStore.key?_of_same_row (h.receiver_options ▸ hrow) place
        rw [hsender, hreceiver] at hinStep ⊢
        cases hahead : link.sender.key? participant place with
        | none =>
            rw [hahead] at hinStep
            exact hinStep
        | some ahead =>
            obtain ⟨behind, lag, hbehind, -, -⟩ := h.behind_of_ahead hahead
            have hless := hroom ahead behind hahead hbehind
            rw [hahead, hbehind] at hinStep
            rw [hbehind]
            rw [h.receiver_options] at hless
            exact hinStep.nextOrLast_ahead hless
    · exact hinStep

/-- A receiver whose store has the keys it had is in step as it was. -/
theorem Kept.withReceiver (h : link.Kept options) {store : KeyStore}
    (hoptions : store.options = options) (hsound : store.Sound)
    (hinStep : ∀ participant index, KeysInStep options (link.sender.key? participant index)
      (store.key? participant index)) : ({ link with receiver := store } : Link).Kept options where
  sender_options := h.sender_options
  receiver_options := hoptions
  sender_sound := h.sender_sound
  receiver_sound := hsound
  inStep := hinStep

theorem Kept.reject (h : link.Kept options) (htolerance : options.tolerance = none)
    {participant : Participant} {algorithm : Algorithm} {payload : Bytes}
    (hrejected : link.Allows (.reject participant algorithm payload)) :
    (link.after (.reject participant algorithm payload)).Kept options := by
  obtain ⟨error, herror⟩ := hrejected
  simp only [Link.after]
  rcases KeyStore.store_of_decrypt_error herror with hsame | ⟨ring, hring, hother⟩
  · rw [hsame]
    exact h
  · have hfits := h.receiver_sound.fits hring
    have hnone : ring.tolerance = none :=
      hfits.tolerance_eq.trans ((congrArg _ h.receiver_options).trans htolerance)
    rw [hother, KeyRing.recordFailure_of_tolerance hnone]
    refine h.withReceiver ((KeyStore.options_withRing _ _ _).trans h.receiver_options)
      (h.receiver_sound.withRing hfits participant) (fun other index => ?_)
    rw [KeyStore.key?_withRing_of_ring? hring]
    exact h.inStep other index

theorem Kept.send (h : link.Kept options) (htolerance : options.tolerance = none)
    {participant : Participant} {algorithm : Algorithm} {index : Int} {frame : Frame}
    {iv : Bytes} (hunambiguous : link.Allows (.send participant algorithm index frame iv)) :
    (link.after (.send participant algorithm index frame iv)).Kept options := by
  simp only [Link.after]
  cases hsent : frame.encryptWith link.sender participant algorithm index iv with
  | error error => exact h
  | ok wire =>
      dsimp only
      cases hclear : options.leavesClear frame.payload with
      | true =>
          rw [← h.sender_options] at hclear
          rw [Frame.encryptWith_of_clear hclear] at hsent
          injection hsent with hsent
          subst hsent
          rw [h.sender_options, ← h.receiver_options] at hclear
          rw [KeyStore.decrypt_of_clear hclear]
          exact h
      | false =>
          obtain ⟨ahead, behind, found, taken, rest, hahead, hreception⟩ :=
            h.reception htolerance hclear hsent hunambiguous
          refine h.withReceiver (hreception.options_eq.trans h.receiver_options)
            hreception.sound (fun other place => ?_)
          rw [hreception.keys]
          split
          · next htouched =>
              obtain ⟨hrow, rfl⟩ := htouched
              have hwithin := hreception.within
              have hrest := hreception.rest_eq
              rw [h.receiver_options] at hrow hwithin hrest
              rw [KeyStore.key?_of_same_row (h.sender_options ▸ hrow), hahead]
              exact .of_advance (by omega) hrest
          · exact h.inStep other place

theorem Kept.after (h : link.Kept options) (htolerance : options.tolerance = none)
    {step : LinkStep} (hallowed : link.Allows step) : (link.after step).Kept options := by
  cases step with
  | both call => exact h.both call
  | ratchetSender participant index => exact h.ratchetSender hallowed
  | reject participant algorithm payload => exact h.reject htolerance hallowed
  | send participant algorithm index frame iv => exact h.send htolerance hallowed

/-! ### All steps -/

theorem allowsAll_append {first second : List LinkStep} :
    link.AllowsAll (first ++ second) ↔
      link.AllowsAll first ∧ (link.run first).AllowsAll second := by
  induction first generalizing link with
  | nil => simp only [List.nil_append, AllowsAll, true_and, run, List.foldl_nil]
  | cons step rest ih =>
      rw [List.cons_append, AllowsAll, AllowsAll, ih, and_assoc]
      rfl

theorem Kept.run {steps : List LinkStep} (h : link.Kept options)
    (htolerance : options.tolerance = none) (hallowed : link.AllowsAll steps) :
    (link.run steps).Kept options := by
  induction steps generalizing link with
  | nil => exact h
  | cons step rest ih => exact ih (h.after htolerance hallowed.1) hallowed.2

end Link

/-- Two stores set up alike stay in step through every allowed run, whatever
the order of its steps. Every sealed frame of the run is decrypted to the
payload that was sent. The steps it takes are the least that lead to the
sender's material, so if the line does not come back to that material, they
are the whole distance, and the receiver then has the sender's key. -/
theorem receiver_stays_in_step {options : KeyOptions} {store : KeyStore}
    (hnew : KeyStore.new options = .ok store) (htolerance : options.tolerance = none)
    {steps : List LinkStep} (hallowed : (Link.mk store store).AllowsAll steps) :
    (∀ earlier later, steps = earlier ++ later →
      let link := (Link.mk store store).run earlier
      ∀ participant index, KeysInStep options (link.sender.key? participant index)
        (link.receiver.key? participant index)) ∧
    (∀ earlier later participant algorithm index frame iv wire,
      steps = earlier ++ .send participant algorithm index frame iv :: later →
      let link := (Link.mk store store).run earlier
      options.leavesClear frame.payload = false →
      frame.encryptWith link.sender participant algorithm index iv = .ok wire →
      ∃ ahead behind found taken rest,
        link.sender.key? participant index = some ahead ∧
        link.receiver.key? participant index = some behind ∧
        behind.advance options.salt taken = .ok found ∧
        found.advance options.salt rest = .ok ahead ∧
        taken + rest ≤ options.window.toNat ∧
        (∀ before < taken, ∀ candidate,
          behind.advance options.salt before = .ok candidate → candidate.raw ≠ ahead.raw) ∧
        ((∀ before < taken + rest, ∀ candidate,
          behind.advance options.salt before = .ok candidate → candidate.raw ≠ ahead.raw) →
          found = ahead) ∧
        let outcome := link.receiver.decrypt participant algorithm wire
        outcome.1 = .ok ⟨frame.payload, taken⟩ ∧
        outcome.2.key? participant index = some found ∧
        outcome.2.getKey? participant index = link.sender.getKey? participant index) := by
  have hstart := Link.kept_of_new hnew
  refine ⟨?_, ?_⟩
  · intro earlier later hsplit link
    subst hsplit
    exact (hstart.run htolerance (Link.allowsAll_append.mp hallowed).1).inStep
  · intro earlier later participant algorithm index frame iv wire hsplit link hclear hsent
    subst hsplit
    obtain ⟨hearlier, hsend, -⟩ := Link.allowsAll_append.mp hallowed
    have hkept : link.Kept options := hstart.run htolerance hearlier
    obtain ⟨ahead, behind, found, taken, rest, hahead, hreception⟩ :=
      hkept.reception htolerance hclear hsent hsend
    obtain ⟨hbehind, htaken, hrest, hwithin, hraw, hfirst, hopened, -, -, hkeys⟩ := hreception
    rw [hkept.receiver_options] at htaken hrest hwithin hfirst
    refine ⟨ahead, behind, found, taken, rest, hahead, hbehind, htaken, hrest, hwithin, hfirst,
      ?_, ?_⟩
    · intro hfresh
      cases rest with
      | zero =>
          injection hrest
      | succ rest => exact absurd hraw (hfresh taken (by omega) found htaken)
    · intro outcome
      have hkey : outcome.2.key? participant index = some found := by
        rw [hkeys, if_pos ⟨.inr rfl, rfl⟩]
      refine ⟨hopened, hkey, ?_⟩
      rw [KeyStore.getKey?_eq, KeyStore.getKey?_eq, hkey, hahead, Option.map_some,
        Option.map_some, hraw]

/-- Stores whose receiver searches one generation ahead. -/
def narrowOptions : KeyOptions :=
  { shared := false
    salt := []
    window := 1
    marker := []
    ringSize := 2
    tolerance := none }

def suppliedKey : KeyMaterial := .supplied [1] []

def skippedToKey : KeyMaterial := .atGeneration (ratchetMaterial [1] []) [] 1

/-- The keys are worked out once, apart from what is done with them. -/
theorem suppliedKey_eq :
    suppliedKey = ⟨[1], 0,
      .ofBytes [4, 143, 143, 155, 162, 221, 145, 248, 27, 210, 40, 93, 132, 137, 171, 203]⟩ := by
  decide +kernel

theorem skippedToKey_eq :
    skippedToKey =
      ⟨[57, 115, 133, 191, 215, 195, 233, 3, 233, 125, 230, 114, 244, 235, 207, 10, 44, 111, 57,
          237, 67, 124, 86, 235, 66, 85, 233, 252, 240, 239, 64, 35], 1,
        .ofBytes [189, 148, 169, 7, 213, 238, 48, 32, 64, 147, 130, 160, 207, 230, 65, 11]⟩ := by
  decide +kernel

def skippingFrame : Frame := ⟨.audio, false, [7]⟩

/-- The sender skips a generation, and the receiver rejects a payload before
it gets to see a frame. -/
def skippingSteps : List LinkStep :=
  [.both (.setKey ⟨"a"⟩ 1 [1]), .ratchetSender ⟨"a"⟩ 1, .reject ⟨"a"⟩ .aesGcm [0],
    .send ⟨"a"⟩ .aesGcm 1 skippingFrame (Bytes.zeros 12), .both (.ratchetKey ⟨"a"⟩ 1),
    .both (.remove ⟨"a"⟩)]

theorem skippingFrame_closed :
    (SealedFrame.ofFrame skippingFrame .aesGcm 1 skippedToKey (Bytes.zeros 12)).toOption.bind
      (·.openWith? suppliedKey) = none := by
  rw [skippedToKey_eq, suppliedKey_eq]
  decide +kernel

theorem allowsAll_skippingSteps :
    (Link.mk ⟨narrowOptions, narrowOptions.emptyRing, []⟩
      ⟨narrowOptions, narrowOptions.emptyRing, []⟩).AllowsAll skippingSteps := by
  refine ⟨trivial, ?_, ⟨_, rfl⟩, ?_, trivial, trivial, trivial⟩
  · intro ahead behind hahead hbehind
    obtain rfl : suppliedKey = ahead := Option.some.inj hahead
    obtain rfl : suppliedKey = behind := Option.some.inj hbehind
    decide
  · intro slot key sealed hclear hsealing hsealed
    obtain ⟨rfl, rfl⟩ : (1 : UInt8) = slot ∧ skippedToKey = key :=
      Prod.mk.inj (Except.ok.inj hsealing)
    refine ⟨rfl, ?_⟩
    intro base steps candidate body hbase hsteps hcandidate hopens
    obtain rfl : suppliedKey = base := Option.some.inj hbase
    have hwindow : steps ≤ 1 := hsteps
    obtain rfl | rfl : steps = 0 ∨ steps = 1 := by omega
    · obtain rfl : suppliedKey = candidate := Except.ok.inj hcandidate
      have hcarries := SealedFrame.carries_of_ofFrame (List.cons_ne_nil 7 []) hsealed
      have hopen := SealedFrame.openWith?_eq_some (hcarries.algorithm_eq.symm ▸ hopens)
      have hclosed := skippingFrame_closed
      rw [hsealed] at hclosed
      exact absurd (hopen.symm.trans hclosed) (Option.some_ne_none _)
    · obtain rfl : skippedToKey = candidate := Except.ok.inj hcandidate
      rfl

theorem receiver_stays_in_step_skipping :
    ∃ store, KeyStore.new narrowOptions = .ok store ∧
      (Link.mk store store).AllowsAll skippingSteps ∧
      ∀ earlier later, skippingSteps = earlier ++ later →
        let link := (Link.mk store store).run earlier
        ∀ participant index, KeysInStep narrowOptions (link.sender.key? participant index)
          (link.receiver.key? participant index) :=
  ⟨_, rfl, allowsAll_skippingSteps, (receiver_stays_in_step rfl rfl allowsAll_skippingSteps).1⟩

end MediaSeal
