import Mathlib.Data.Nat.Find
import MediaSeal.Proofs.Generations
import MediaSeal.Protection.Decrypt

/-!
# Decrypting is a search for the first generation that opens

A frame that reaches the cipher is tried under the key that the slot holds and
under the generations after it. What comes out is settled by one question:
under which numbers of steps does the frame open? If there are such numbers in
reach, the least of them is taken, its payload is returned and the slot is
moved there; if there are none, nothing of the ring but its count of failures
has changed.

How far the search reaches is bounded twice, by the window and by the last
generation. The second bound is not in the loop: the loop runs into a ratchet
step that is refused. `advance_isOk_iff` makes the two bounds one.
-/

namespace MediaSeal

variable {salt : Bytes}

namespace SealedFrame

/-- The frame opens to `body` under the material `steps` generations after
`base`. -/
def OpensAfter (frame : SealedFrame) (salt : Bytes) (base : KeyMaterial) (steps : Nat)
    (body : Bytes) : Prop :=
  ∃ key, base.advance salt steps = .ok key ∧
    frame.trailer.algorithm.decrypt key.frameKey frame.iv frame.aad frame.ciphertext = .ok body

theorem opensAfter_zero_iff {frame : SealedFrame} {base : KeyMaterial} {body : Bytes} :
    frame.OpensAfter salt base 0 body ↔
      frame.trailer.algorithm.decrypt base.frameKey frame.iv frame.aad frame.ciphertext =
        .ok body := by
  constructor
  · intro h
    obtain ⟨key, hkey, hbody⟩ := h
    injection hkey with hkey
    rw [hkey]
    exact hbody
  · exact fun hbody => ⟨base, rfl, hbody⟩

theorem opensAfter_succ_iff {frame : SealedFrame} {base : KeyMaterial} {steps : Nat}
    {body : Bytes} :
    frame.OpensAfter salt base (steps + 1) body ↔
      ∃ next, base.ratchet salt = .ok next ∧ frame.OpensAfter salt next steps body := by
  constructor
  · intro h
    obtain ⟨key, hkey, hbody⟩ := h
    obtain ⟨next, hnext, hrest⟩ := KeyMaterial.advance_succ_eq_ok_iff.mp hkey
    exact ⟨next, hnext, key, hrest, hbody⟩
  · intro h
    obtain ⟨next, hnext, key, hrest, hbody⟩ := h
    exact ⟨key, KeyMaterial.advance_succ_eq_ok_iff.mpr ⟨next, hnext, hrest⟩, hbody⟩

theorem opensAfter_add_iff {frame : SealedFrame} {base middle : KeyMaterial} {first second : Nat}
    {body : Bytes} (h : base.advance salt first = .ok middle) :
    frame.OpensAfter salt base (first + second) body ↔
      frame.OpensAfter salt middle second body := by
  rw [OpensAfter, OpensAfter, KeyMaterial.advance_add h]

/-- No frame opens beyond the last generation. -/
theorem OpensAfter.generation_le {frame : SealedFrame} {base : KeyMaterial} {steps : Nat}
    {body : Bytes} (h : frame.OpensAfter salt base steps body) :
    base.generation.toNat + steps ≤ lastGeneration.toNat := by
  obtain ⟨key, hkey, -⟩ := h
  exact KeyMaterial.advance_isOk_iff.mp ⟨key, hkey⟩

/-- Either some least number of steps in the window opens the frame, or none
does. -/
theorem least_or_closed (frame : SealedFrame) (salt : Bytes) (base : KeyMaterial)
    (window : Nat) :
    (∃ steps ≤ window, (∃ body, frame.OpensAfter salt base steps body) ∧
      ∀ earlier < steps, ∀ body, ¬ frame.OpensAfter salt base earlier body) ∨
    ∀ steps ≤ window, ∀ body, ¬ frame.OpensAfter salt base steps body := by
  classical
  by_cases hany : ∃ steps, steps ≤ window ∧ ∃ body, frame.OpensAfter salt base steps body
  · obtain ⟨hle, hopens⟩ := Nat.find_spec hany
    refine .inl ⟨Nat.find hany, hle, hopens, fun earlier hlt body hearlier => ?_⟩
    exact Nat.find_min hany hlt ⟨by omega, body, hearlier⟩
  · exact .inr fun steps hsteps body hopens => hany ⟨steps, hsteps, body, hopens⟩

/-! ## The loop -/

theorem openWith?_eq_some_iff {frame : SealedFrame} {key : KeyMaterial} {payload : Bytes} :
    frame.openWith? key = some payload ↔
      ∃ body, frame.trailer.algorithm.decrypt key.frameKey frame.iv frame.aad
        frame.ciphertext = .ok body ∧ frame.header ++ body = payload := by
  unfold openWith?
  cases frame.trailer.algorithm.decrypt key.frameKey frame.iv frame.aad frame.ciphertext <;> simp

theorem openWith?_eq_some {frame : SealedFrame} {key : KeyMaterial} {body : Bytes}
    (h : frame.trailer.algorithm.decrypt key.frameKey frame.iv frame.aad frame.ciphertext =
      .ok body) : frame.openWith? key = some (frame.header ++ body) := by
  simp only [openWith?, h]

theorem openWith?_eq_none {frame : SealedFrame} {key : KeyMaterial}
    (h : ∀ body, frame.trailer.algorithm.decrypt key.frameKey frame.iv frame.aad
      frame.ciphertext ≠ .ok body) : frame.openWith? key = none := by
  unfold openWith?
  split
  · next body hbody => exact absurd hbody (h body)
  · rfl

theorem findKey?_of_opens {frame : SealedFrame} {window first : Nat} {key : KeyMaterial}
    {payload : Bytes} (h : frame.openWith? key = some payload) :
    frame.findKey? salt window first key = some ⟨key, ⟨payload, first⟩⟩ := by
  unfold findKey?
  simp only [h]

theorem findKey?_zero {frame : SealedFrame} {first : Nat} {key : KeyMaterial}
    (h : frame.openWith? key = none) : frame.findKey? salt 0 first key = none := by
  unfold findKey?
  simp only [h]

theorem findKey?_succ {frame : SealedFrame} {window first : Nat} {key next : KeyMaterial}
    (h : frame.openWith? key = none) (hnext : key.ratchet salt = .ok next) :
    frame.findKey? salt (window + 1) first key =
      frame.findKey? salt window (first + 1) next := by
  rw [findKey?]
  simp only [h, hnext]

theorem findKey?_last {frame : SealedFrame} {window first : Nat} {key : KeyMaterial}
    {error : CipherError} (h : frame.openWith? key = none)
    (herror : key.ratchet salt = .error error) :
    frame.findKey? salt (window + 1) first key = none := by
  rw [findKey?]
  simp only [h, herror]

/-- Nothing is found if no generation in the window opens the frame. -/
theorem findKey?_eq_none {frame : SealedFrame} {window first : Nat} {base : KeyMaterial}
    (h : ∀ steps ≤ window, ∀ body, ¬ frame.OpensAfter salt base steps body) :
    frame.findKey? salt window first base = none := by
  have hbase : frame.openWith? base = none := openWith?_eq_none fun body hbody =>
    h 0 (Nat.zero_le _) body (opensAfter_zero_iff.mpr hbody)
  induction window generalizing first base with
  | zero => exact findKey?_zero hbase
  | succ window ih =>
      cases hnext : base.ratchet salt with
      | error error => exact findKey?_last hbase hnext
      | ok next =>
          rw [findKey?_succ hbase hnext]
          have hrest : ∀ steps ≤ window, ∀ body, ¬ frame.OpensAfter salt next steps body :=
            fun steps hsteps body hopens => h (steps + 1) (Nat.succ_le_succ hsteps) body
              (opensAfter_succ_iff.mpr ⟨next, hnext, hopens⟩)
          exact ih hrest (openWith?_eq_none fun body hbody =>
            hrest 0 (Nat.zero_le _) body (opensAfter_zero_iff.mpr hbody))

/-- What is found is the first generation in the window that opens the
frame. -/
theorem findKey?_eq_some {frame : SealedFrame} {window first steps : Nat}
    {base key : KeyMaterial} {body : Bytes} (hsteps : steps ≤ window)
    (hkey : base.advance salt steps = .ok key)
    (hbody : frame.trailer.algorithm.decrypt key.frameKey frame.iv frame.aad
      frame.ciphertext = .ok body)
    (hleast : ∀ earlier < steps, ∀ body, ¬ frame.OpensAfter salt base earlier body) :
    frame.findKey? salt window first base =
      some ⟨key, ⟨frame.header ++ body, first + steps⟩⟩ := by
  induction steps generalizing window first base with
  | zero =>
      injection hkey with hkey
      subst hkey
      exact findKey?_of_opens (openWith?_eq_some hbody)
  | succ steps ih =>
      obtain ⟨next, hnext, hrest⟩ := KeyMaterial.advance_succ_eq_ok_iff.mp hkey
      obtain ⟨window, rfl⟩ : ∃ n, window = n + 1 := ⟨window - 1, by omega⟩
      have hbase : frame.openWith? base = none := openWith?_eq_none fun other hother =>
        hleast 0 (Nat.succ_pos _) other (opensAfter_zero_iff.mpr hother)
      rw [findKey?_succ hbase hnext, ih (Nat.le_of_succ_le_succ hsteps) hrest
        fun earlier hlt other hopens => hleast (earlier + 1) (Nat.succ_lt_succ hlt) other
          (opensAfter_succ_iff.mpr ⟨next, hnext, hopens⟩), Nat.add_right_comm, Nat.add_assoc]

end SealedFrame

/-! ## What the search does to a ring -/

namespace KeyRing

variable {ring : KeyRing} {window : UInt32} {frame : SealedFrame} {base : KeyMaterial}

/-- The ring once a frame was decrypted with a key for this slot. -/
def caughtUp (ring : KeyRing) (slot : Nat) (key : KeyMaterial) : KeyRing :=
  { ring with
    slots := ring.slots.set slot (some key)
    failures := 0 }

theorem key?_caughtUp {slot : Nat} (hslot : slot < ring.size) (key : KeyMaterial)
    (place : Int) :
    (ring.caughtUp slot key).key? place =
      if place = slot then some key else ring.key? place :=
  key?_set rfl hslot place

/-- A search that starts from what the slot holds ends with what it found in
the slot. -/
theorem openSealed_of_found {found : FoundKey}
    (hkey : ring.key? frame.trailer.keyIndex.toNat = some base)
    (hfound : frame.findKey? ring.salt window.toNat 0 base = some found) :
    ring.openSealed window frame base =
      (.ok found.opened, ring.caughtUp frame.trailer.keyIndex.toNat found.key) := by
  have hcommit : ring.commit frame.trailer.keyIndex.toNat base found.key = _ :=
    commit_of_key? hkey rfl rfl
  rw [Int.toNat_natCast] at hcommit
  unfold openSealed
  simp only [hfound, hcommit, recordSuccess, caughtUp]

theorem openSealed_of_none (hnone : frame.findKey? ring.salt window.toNat 0 base = none) :
    ring.openSealed window frame base =
      (.error (.decryptionFailed frame.trailer.keyIndex (countUp window)),
        ring.recordFailure.2) := by
  unfold openSealed
  simp only [hnone]

end KeyRing

/-- A payload that gets as far as the cipher, with its parts, the ring it is
decrypted in and the key that its index names there. -/
structure KeyStore.ReachesCipher (store : KeyStore) (participant : Participant)
    (algorithm : Algorithm) (payload : Bytes) (frame : SealedFrame) (ring : KeyRing)
    (base : KeyMaterial) : Prop where
  nonempty : payload ≠ []
  unmarked : Marker.strip? store.options.marker payload = none
  parsed : SealedFrame.parse payload = .ok frame
  algorithm_eq : frame.trailer.algorithm = algorithm
  index_lt : frame.trailer.keyIndex.toNat < store.options.ringSize
  ring_eq : store.ring? participant = some ring
  key_eq : ring.key? frame.trailer.keyIndex.toNat = some base
  valid : ring.invalidated = false

namespace KeyStore.ReachesCipher

variable {store : KeyStore} {participant : Participant} {algorithm : Algorithm}
  {payload : Bytes} {frame : SealedFrame} {ring : KeyRing} {base : KeyMaterial}

/-- Decrypting is opening the frame in the participant's ring. -/
theorem decrypt_eq (h : store.ReachesCipher participant algorithm payload frame ring base) :
    store.decrypt participant algorithm payload =
      ((ring.openSealed store.options.window frame base).1,
        store.withRing participant (ring.openSealed store.options.window frame base).2) := by
  have hempty : payload.isEmpty = false := List.isEmpty_eq_false_iff.mpr h.nonempty
  have hslot := KeyStore.keySlot_eq_ok_iff.mpr ⟨rfl, h.index_lt⟩
  unfold KeyStore.decrypt
  simp only [hempty, h.unmarked, h.parsed, h.algorithm_eq, hslot, h.ring_eq, h.key_eq, h.valid,
    ne_eq, not_true_eq_false, if_false, Bool.false_eq_true]

theorem slot_lt (h : store.ReachesCipher participant algorithm payload frame ring base) :
    frame.trailer.keyIndex.toNat < ring.size := by
  obtain ⟨slot, hslot, hlt, -⟩ := KeyRing.key?_eq_some_iff.mp h.key_eq
  omega

/-- The outcome when some number of steps in the window opens the frame. -/
theorem decrypt_of_opens (h : store.ReachesCipher participant algorithm payload frame ring base)
    {steps : Nat} {key : KeyMaterial} {body : Bytes}
    (hsteps : steps ≤ store.options.window.toNat)
    (hkey : base.advance ring.salt steps = .ok key)
    (hbody : frame.trailer.algorithm.decrypt key.frameKey frame.iv frame.aad
      frame.ciphertext = .ok body)
    (hleast : ∀ earlier < steps, ∀ body, ¬ frame.OpensAfter ring.salt base earlier body) :
    store.decrypt participant algorithm payload =
      (.ok ⟨frame.header ++ body, steps⟩,
        store.withRing participant (ring.caughtUp frame.trailer.keyIndex.toNat key)) := by
  have hfound : frame.findKey? ring.salt store.options.window.toNat 0 base = some _ :=
    SealedFrame.findKey?_eq_some hsteps hkey hbody hleast
  rw [Nat.zero_add] at hfound
  rw [h.decrypt_eq, KeyRing.openSealed_of_found h.key_eq hfound]

/-- The outcome when none does. -/
theorem decrypt_of_closed (h : store.ReachesCipher participant algorithm payload frame ring base)
    (hclosed : ∀ steps ≤ store.options.window.toNat, ∀ body,
      ¬ frame.OpensAfter ring.salt base steps body) :
    store.decrypt participant algorithm payload =
      (.error (.decryptionFailed frame.trailer.keyIndex
          (KeyRing.countUp store.options.window)),
        store.withRing participant ring.recordFailure.2) := by
  rw [h.decrypt_eq, KeyRing.openSealed_of_none (SealedFrame.findKey?_eq_none hclosed)]

theorem decrypt_ok_iff (h : store.ReachesCipher participant algorithm payload frame ring base)
    {opened : Opened} :
    (store.decrypt participant algorithm payload).1 = .ok opened ↔
      opened.steps ≤ store.options.window.toNat ∧
        (∃ body, frame.OpensAfter ring.salt base opened.steps body ∧
          opened.payload = frame.header ++ body) ∧
        ∀ earlier < opened.steps, ∀ body, ¬ frame.OpensAfter ring.salt base earlier body := by
  constructor
  · intro hopened
    rcases frame.least_or_closed ring.salt base store.options.window.toNat with
      ⟨steps, hsteps, ⟨body, hopens⟩, hleast⟩ | hclosed
    · have ⟨key, hkey, hbody⟩ := hopens
      rw [h.decrypt_of_opens hsteps hkey hbody hleast] at hopened
      injection hopened with hopened
      subst hopened
      exact ⟨hsteps, ⟨body, hopens, rfl⟩, hleast⟩
    · rw [h.decrypt_of_closed hclosed] at hopened
      cases hopened
  · rintro ⟨hsteps, ⟨body, ⟨key, hkey, hbody⟩, hpayload⟩, hleast⟩
    rw [h.decrypt_of_opens hsteps hkey hbody hleast, ← hpayload]

end KeyStore.ReachesCipher

/-- Why a payload is turned away before any key is tried on it. -/
inductive KeyStore.TurnsAway (store : KeyStore) (participant : Participant)
    (algorithm : Algorithm) (payload : Bytes) : FrameError → Prop
  | malformed {cause : MalformedFrame} (h : SealedFrame.parse payload = .error cause) :
      TurnsAway store participant algorithm payload (.malformed cause)
  | algorithmMismatch {frame : SealedFrame} (parsed : SealedFrame.parse payload = .ok frame)
      (h : frame.trailer.algorithm ≠ algorithm) :
      TurnsAway store participant algorithm payload
        (.algorithmMismatch algorithm frame.trailer.algorithm)
  | invalidKeyIndex {frame : SealedFrame} (parsed : SealedFrame.parse payload = .ok frame)
      (h : store.options.ringSize ≤ frame.trailer.keyIndex.toNat) :
      TurnsAway store participant algorithm payload
        (.invalidKeyIndex frame.trailer.keyIndex.toNat store.options.ringSize)
  | missingKey {frame : SealedFrame} (parsed : SealedFrame.parse payload = .ok frame)
      (h : ∀ ring, store.ring? participant = some ring →
        ring.key? frame.trailer.keyIndex.toNat = none) :
      TurnsAway store participant algorithm payload
        (.missingKey frame.trailer.keyIndex.toNat)
  | keyInvalidated {frame : SealedFrame} {ring : KeyRing}
      (parsed : SealedFrame.parse payload = .ok frame)
      (found : store.ring? participant = some ring) (h : ring.invalidated = true) :
      TurnsAway store participant algorithm payload (.keyInvalidated frame.trailer.keyIndex)

/-- A payload that does not get as far as the cipher changes nothing: it is
left as it is, or it is turned away. -/
theorem KeyStore.decrypt_cases (store : KeyStore) (participant : Participant)
    (algorithm : Algorithm) (payload : Bytes) :
    (∃ clear, (payload = [] ∧ clear = [] ∨
        Marker.strip? store.options.marker payload = some clear) ∧
        store.decrypt participant algorithm payload = (.ok ⟨clear, 0⟩, store)) ∨
      (∃ error, store.TurnsAway participant algorithm payload error ∧
        store.decrypt participant algorithm payload = (.error error, store)) ∨
      ∃ frame ring base, store.ReachesCipher participant algorithm payload frame ring base := by
  unfold KeyStore.decrypt
  by_cases hempty : payload = []
  · subst hempty
    exact .inl ⟨[], .inl ⟨rfl, rfl⟩, rfl⟩
  have hisEmpty := List.isEmpty_eq_false_iff.mpr hempty
  cases hmarker : Marker.strip? store.options.marker payload with
  | some clear =>
      exact .inl ⟨clear, .inr rfl, by simp only [hisEmpty, Bool.false_eq_true, if_false]⟩
  | none =>
      right
      simp only [hisEmpty, Bool.false_eq_true, if_false]
      cases hparse : SealedFrame.parse payload with
      | error cause => exact .inl ⟨_, .malformed hparse, rfl⟩
      | ok frame =>
          by_cases halgorithm : frame.trailer.algorithm = algorithm
          · simp only [halgorithm, ne_eq, not_true_eq_false, if_false]
            cases hslot : store.keySlot frame.trailer.keyIndex.toNat with
            | error error =>
                obtain ⟨rfl, hout⟩ := KeyStore.keySlot_eq_error_iff.mp hslot
                have hbyte := frame.trailer.keyIndex.toNat_lt
                exact .inl ⟨_, .invalidKeyIndex hparse (by omega), rfl⟩
            | ok slot =>
                obtain ⟨hindex, hlt⟩ := KeyStore.keySlot_eq_ok_iff.mp hslot
                cases hring : store.ring? participant with
                | none =>
                    refine .inl ⟨_, .missingKey hparse fun ring hfound => ?_, rfl⟩
                    rw [hring] at hfound
                    cases hfound
                | some ring =>
                    cases hkey : ring.key? frame.trailer.keyIndex.toNat with
                    | none =>
                        refine .inl ⟨.missingKey frame.trailer.keyIndex.toNat,
                          .missingKey hparse fun other hfound => ?_, by simp only [hkey]⟩
                        rw [← Option.some.inj (hring.symm.trans hfound), hkey]
                    | some base =>
                        cases hvalid : ring.invalidated with
                        | true =>
                            exact .inl ⟨.keyInvalidated frame.trailer.keyIndex,
                              .keyInvalidated hparse hring hvalid,
                              by simp only [hkey, hvalid, if_true]⟩
                        | false =>
                            refine .inr ⟨frame, ring, base, hempty, hmarker, hparse,
                              halgorithm, ?_, hring, hkey, hvalid⟩
                            omega
          · exact .inl ⟨_, .algorithmMismatch hparse halgorithm, if_pos halgorithm⟩

/-- All that can come of a payload: a result, and the store after it. -/
inductive KeyStore.Decrypts (store : KeyStore) (participant : Participant)
    (algorithm : Algorithm) (payload : Bytes) : Except FrameError Opened × KeyStore → Prop
  | leftClear {clear : Bytes} (h : payload = [] ∧ clear = [] ∨
        Marker.strip? store.options.marker payload = some clear) :
      Decrypts store participant algorithm payload (.ok ⟨clear, 0⟩, store)
  | turnedAway {error : FrameError}
      (h : store.TurnsAway participant algorithm payload error) :
      Decrypts store participant algorithm payload (.error error, store)
  | opened {frame : SealedFrame} {ring : KeyRing} {base key : KeyMaterial} {steps : Nat}
      {body : Bytes}
      (reaches : store.ReachesCipher participant algorithm payload frame ring base)
      (within : steps ≤ store.options.window.toNat)
      (advanced : base.advance ring.salt steps = .ok key)
      (opens : frame.trailer.algorithm.decrypt key.frameKey frame.iv frame.aad
        frame.ciphertext = .ok body)
      (least : ∀ earlier < steps, ∀ body, ¬ frame.OpensAfter ring.salt base earlier body) :
      Decrypts store participant algorithm payload (.ok ⟨frame.header ++ body, steps⟩,
        store.withRing participant (ring.caughtUp frame.trailer.keyIndex.toNat key))
  | failed {frame : SealedFrame} {ring : KeyRing} {base : KeyMaterial}
      (reaches : store.ReachesCipher participant algorithm payload frame ring base)
      (closed : ∀ steps ≤ store.options.window.toNat, ∀ body,
        ¬ frame.OpensAfter ring.salt base steps body) :
      Decrypts store participant algorithm payload
        (.error (.decryptionFailed frame.trailer.keyIndex
            (KeyRing.countUp store.options.window)),
          store.withRing participant ring.recordFailure.2)

theorem KeyStore.decrypts (store : KeyStore) (participant : Participant)
    (algorithm : Algorithm) (payload : Bytes) :
    store.Decrypts participant algorithm payload
      (store.decrypt participant algorithm payload) := by
  rcases store.decrypt_cases participant algorithm payload with
    ⟨clear, hclear, h⟩ | ⟨error, haway, h⟩ | ⟨frame, ring, base, hreaches⟩
  · rw [h]
    exact .leftClear hclear
  · rw [h]
    exact .turnedAway haway
  · rcases frame.least_or_closed ring.salt base store.options.window.toNat with
      ⟨steps, hsteps, ⟨body, key, hkey, hbody⟩, hleast⟩ | hclosed
    · rw [hreaches.decrypt_of_opens hsteps hkey hbody hleast]
      exact .opened hreaches hsteps hkey hbody hleast
    · rw [hreaches.decrypt_of_closed hclosed]
      exact .failed hreaches hclosed

/-- Decryption succeeds exactly if some number of steps in reach opens the
frame. It then takes the least such number: that is the number of steps it
reports, the payload is the header followed by what the cipher gave there, and
the slot holds the material that the frame was opened with. Otherwise the slot
holds what it held. -/
theorem decrypt_ok_iff_opens_in_reach {store : KeyStore} {participant : Participant}
    {algorithm : Algorithm} {payload : Bytes} {frame : SealedFrame} {ring : KeyRing}
    {base : KeyMaterial}
    (h : store.ReachesCipher participant algorithm payload frame ring base) :
    let reach := min store.options.window.toNat
      (lastGeneration.toNat - base.generation.toNat)
    let index : Int := frame.trailer.keyIndex.toNat
    let outcome := store.decrypt participant algorithm payload
    ((∃ opened, outcome.1 = .ok opened) ↔
      ∃ steps body, steps ≤ reach ∧ frame.OpensAfter ring.salt base steps body) ∧
    (∀ opened, outcome.1 = .ok opened →
      opened.steps ≤ reach ∧
      (∀ earlier body, earlier < opened.steps →
        ¬ frame.OpensAfter ring.salt base earlier body) ∧
      ∃ key body after, base.advance ring.salt opened.steps = .ok key ∧
        algorithm.decrypt key.frameKey frame.iv frame.aad frame.ciphertext = .ok body ∧
        opened.payload = frame.header ++ body ∧
        outcome.2.ring? participant = some after ∧
        after.key? index = some key ∧
        key.generation.toNat = base.generation.toNat + opened.steps ∧
        after.failures = 0) ∧
    ((¬ ∃ opened, outcome.1 = .ok opened) →
      (∃ attempts, outcome.1 = .error (.decryptionFailed frame.trailer.keyIndex attempts)) ∧
      ∃ after, outcome.2.ring? participant = some after ∧ after.key? index = some base) := by
  intro reach index outcome
  rcases SealedFrame.least_or_closed frame ring.salt base store.options.window.toNat with
    ⟨steps, hsteps, ⟨body, hopens⟩, hleast⟩ | hclosed
  · have hgen := hopens.generation_le
    have hin : steps ≤ reach := by omega
    have ⟨key, hkey, hbody⟩ := hopens
    have hdecrypt := h.decrypt_of_opens hsteps hkey hbody hleast
    have hok := congrArg Prod.fst hdecrypt
    refine ⟨⟨fun _ => ⟨steps, body, hin, hopens⟩, fun _ => ⟨_, hok⟩⟩, ?_,
      fun hnot => absurd ⟨_, hok⟩ hnot⟩
    intro opened hopened
    obtain rfl : _ = opened := Except.ok.inj (hok.symm.trans hopened)
    refine ⟨hin, fun earlier other hearlier => hleast earlier hearlier other, key, body,
      ring.caughtUp frame.trailer.keyIndex.toNat key, hkey, h.algorithm_eq ▸ hbody, rfl, ?_, ?_,
      KeyMaterial.toNat_generation_of_advance hkey, rfl⟩
    · rw [show outcome.2 = _ from congrArg Prod.snd hdecrypt]
      exact store.ring?_withRing_self participant _
    · rw [KeyRing.key?_caughtUp h.slot_lt, if_pos rfl]
  · have hdecrypt := h.decrypt_of_closed hclosed
    have herror := congrArg Prod.fst hdecrypt
    refine ⟨⟨?_, ?_⟩, ?_, fun _ => ⟨⟨_, herror⟩, ring.recordFailure.2, ?_, ?_⟩⟩
    · intro hopened
      obtain ⟨opened, hok⟩ := hopened
      cases hok.symm.trans herror
    · intro hreach
      obtain ⟨steps, body, hin, hopens⟩ := hreach
      exact absurd hopens (hclosed steps (by omega) body)
    · intro opened hok
      cases hok.symm.trans herror
    · rw [show outcome.2 = _ from congrArg Prod.snd hdecrypt]
      exact store.ring?_withRing_self participant _
    · rw [KeyRing.key?_congr (KeyRing.slots_recordFailure ring)]
      exact h.key_eq

/-- A store whose second slot is one generation before the last. -/
def nearlyExhausted : KeyStore where
  options :=
    { shared := true
      salt := []
      window := 3
      marker := [7]
      ringSize := 2
      tolerance := none }
  sharedRing :=
    { salt := []
      tolerance := none
      slots := [none, some (.atGeneration [1] [] 0xfffffffe)]
      failures := 0
      invalidated := false }
  members := []

/-- Of a window of three steps, one is in reach. -/
theorem nearlyExhausted_opens_in_reach :
    let frame : SealedFrame :=
      ⟨[9], List.replicate 20 0, List.replicate 12 5, ⟨1, .aesGcm, 12, 1⟩⟩
    let base := KeyMaterial.atGeneration [1] [] 0xfffffffe
    nearlyExhausted.ReachesCipher ⟨"someone"⟩ .aesGcm frame.toBytes frame
        nearlyExhausted.sharedRing base ∧
      ((∃ opened, (nearlyExhausted.decrypt ⟨"someone"⟩ .aesGcm frame.toBytes).1 = .ok opened) ↔
        ∃ steps body, steps ≤ 1 ∧ frame.OpensAfter [] base steps body) := by
  intro frame base
  have h : nearlyExhausted.ReachesCipher ⟨"someone"⟩ .aesGcm frame.toBytes frame
      nearlyExhausted.sharedRing base :=
    { nonempty := by decide
      unmarked := by decide
      parsed := by decide
      algorithm_eq := rfl
      index_lt := by decide
      ring_eq := rfl
      key_eq := rfl
      valid := rfl }
  have hreach : min nearlyExhausted.options.window.toNat
      (lastGeneration.toNat - base.generation.toNat) = 1 := by decide
  have hiff := (decrypt_ok_iff_opens_in_reach h).1
  rw [hreach] at hiff
  exact ⟨h, hiff⟩

end MediaSeal
