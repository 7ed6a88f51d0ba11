import MediaSeal.Proofs.Exemption
import MediaSeal.Proofs.InPlaceCalls
import MediaSeal.Proofs.StoreStates

/-!
# One index, checked in three places

An index is an integer that anybody may choose. A store checks it against its
options, a ring against the slots that it has, and a sender against both the options
and what a byte can hold, since a byte is all that a frame has room for. Nothing in
the three checks refers to the others. What makes them agree is said elsewhere: no
store has more than 256 slots to a ring, and its rings have neither more nor fewer
slots than its options say.

So an index that passes anywhere passes everywhere, and comes back from the wire as
the same number. One that does not pass is named in the error as it was given. It is
not taken modulo anything, and no slot is read or written for it.
-/

namespace MediaSeal

/-! ## Indices outside a ring -/

/-- The index that a call is about. -/
def RingCall.index? : RingCall → Option Int
  | setKey index _ => some index
  | ratchetKey index => some index
  | copyKey index => some index
  | commit index _ _ => some index
  | recordSuccess => none
  | recordFailure => none

theorem RingCall.apply_of_out {ring : KeyRing} {call : RingCall} {index : Int}
    {error : KeyError} (hslot : ring.slot index = .error error)
    (hcall : call.index? = some index) : call.apply ring = ring := by
  cases call with
  | setKey place raw =>
      obtain rfl := Option.some.inj hcall
      simp only [apply, KeyRing.setKey, hslot]
  | ratchetKey place =>
      obtain rfl := Option.some.inj hcall
      simp only [apply, KeyRing.ratchetKey, hslot]
  | copyKey place => rfl
  | commit place base advanced =>
      obtain rfl := Option.some.inj hcall
      simp only [apply, KeyRing.commit, hslot]
  | recordSuccess => cases hcall
  | recordFailure => cases hcall

namespace KeyStore

/-! ## The two answers -/

/-- Every check lets the index pass, as the number that this byte is, so that a key can be
set there; and whatever is sealed under the index ends in the byte. -/
structure Admits (store : KeyStore) (index : Int) (byte : UInt8) : Prop where
  index_eq : index = byte.toNat
  checkIndex_eq : store.checkIndex index = .ok ()
  slot_eq : ∀ {owner ring}, store.ringOf? owner = some ring → ring.slot index = .ok byte.toNat
  keySlot_eq : store.keySlot index = .ok byte
  setKey : ∀ {call raw}, call.request = .setKey index raw →
    (store.perform call).1 = .set (.ok ())
  wire : ∀ {participant algorithm entropy wire} {frame : Frame},
    store.options.leavesClear frame.payload = false →
    (frame.encrypt store participant algorithm index entropy).1 = .ok wire →
    wire.getLast? = some byte ∧
      ∃ sealed, SealedFrame.parse wire = .ok sealed ∧ sealed.trailer.keyIndex.toNat = index

/-- No check lets the index pass. The errors name it as it is, and nothing is read or
written for it. -/
structure TurnsBack (store : KeyStore) (index : Int) : Prop where
  checkIndex_eq : store.checkIndex index = .error (.invalidIndex index store.options.ringSize)
  slot_eq : ∀ {owner ring}, store.ringOf? owner = some ring →
    ring.slot index = .error (.invalidIndex index store.options.ringSize)
  keySlot_eq : store.keySlot index = .error (.invalidKeyIndex index store.options.ringSize)
  setKey : ∀ {call raw}, call.request = .setKey index raw →
    store.perform call = (.set (.error (.invalidIndex index store.options.ringSize)), store)
  ratchetKey : ∀ {call}, call.request = .ratchetKey index →
    store.perform call =
      (.ratcheted (.error (.invalidIndex index store.options.ringSize)), store)
  getKey : ∀ {call}, call.request = .getKey index → store.perform call = (.key none, store)
  ringCall : ∀ {owner ring call}, store.ringOf? owner = some ring →
    RingCall.index? call = some index → call.apply ring = ring
  encrypt : ∀ {participant algorithm entropy} {frame : Frame},
    store.options.leavesClear frame.payload = false →
    (frame.encrypt store participant algorithm index entropy).1 =
      .error (.invalidKeyIndex index store.options.ringSize)

variable {options : KeyOptions} {store : KeyStore} {participant : Participant}
  {algorithm : Algorithm} {index : Int} {frame : Frame} {entropy : Entropy} {wire : Bytes}

/-- The byte that names the index is the one that the sender's check has let pass. -/
theorem keySlot_of_encrypt (hclear : store.options.leavesClear frame.payload = false)
    (hwire : (frame.encrypt store participant algorithm index entropy).1 = .ok wire) :
    ∃ byte sealed, store.keySlot index = .ok byte ∧ SealedFrame.parse wire = .ok sealed ∧
      sealed.trailer.keyIndex = byte ∧ wire.getLast? = some byte := by
  obtain ⟨iv, hiv⟩ :=
    frame.exists_encrypt_eq_encryptWith store participant algorithm index entropy
  rw [hiv] at hwire
  obtain ⟨byte, key, hsealing, sealed, hsealed, rfl⟩ := (Frame.encryptWith_eq_ok_iff hclear).mp hwire
  have hpayload := (KeyOptions.leavesClear_eq_false_iff.mp hclear).1
  have hcarries := SealedFrame.carries_of_ofFrame hpayload hsealed
  refine ⟨byte, sealed, (sealingKey_eq_ok_iff.mp hsealing).1,
    SealedFrame.parse_toBytes hcarries.wellFormed, hcarries.keyIndex_eq, ?_⟩
  rw [SealedFrame.getLast?_toBytes, hcarries.keyIndex_eq]

/-- Encrypting with an index that the sender's check lets pass may fail, but not for the
index. -/
theorem encrypt_ne_invalidKeyIndex {byte : UInt8} (hslot : store.keySlot index = .ok byte)
    (place : Int) (size : Nat) :
    (frame.encrypt store participant algorithm index entropy).1 ≠
      .error (.invalidKeyIndex place size) := by
  intro herror
  obtain ⟨iv, hiv⟩ :=
    frame.exists_encrypt_eq_encryptWith store participant algorithm index entropy
  rw [hiv] at herror
  rcases Frame.encryptWith_eq_error herror with h | h | ⟨cause, h⟩
  · rw [hslot] at h
    cases h
  · cases h
  · cases h

/-- A frame that names a slot within the receiver's options may be turned away, but not
for the slot. -/
theorem decrypt_ne_invalidKeyIndex {sealed : SealedFrame}
    (hparse : SealedFrame.parse wire = .ok sealed)
    (hlt : sealed.trailer.keyIndex.toNat < store.options.ringSize) (place : Int) (size : Nat) :
    (store.decrypt participant algorithm wire).1 ≠ .error (.invalidKeyIndex place size) := by
  intro herror
  have houtcome := store.decrypts participant algorithm wire
  generalize store.decrypt participant algorithm wire = result at herror houtcome
  cases houtcome with
  | leftClear hclear => cases herror
  | turnedAway haway =>
      rw [Except.error.inj herror] at haway
      cases haway with
      | invalidKeyIndex parsed h =>
          obtain rfl := Except.ok.inj (hparse.symm.trans parsed)
          omega
  | opened reaches within advanced opens least => cases herror
  | failed reaches closed => cases herror

/-! ## A store and its rings -/

theorem Reached.admits (h : Reached options store)
    (hindex : 0 ≤ index ∧ index < options.ringSize) : ∃ byte, store.Admits index byte := by
  have hmade := h.madeFor
  obtain rfl := hmade.options_eq
  obtain ⟨byte, hbyte⟩ := exists_keySlot_eq_ok h.fault?_eq_none hindex
  obtain ⟨hnamed, hlt⟩ := keySlot_eq_ok_iff.mp hbyte
  have hcheck : store.checkIndex index = .ok () := checkIndex_eq_ok_iff.mpr ⟨by omega, by omega⟩
  refine ⟨byte, ?_⟩
  exact
    { index_eq := hnamed
      checkIndex_eq := hcheck
      slot_eq := fun hring =>
        KeyRing.slot_eq_ok_iff.mpr ⟨hnamed, by rw [(hmade.rings hring).size_eq]; exact hlt⟩
      keySlot_eq := hbyte
      setKey := by
        intro call raw hcall
        have hring := hmade.getD_emptyRing (call.target store.options)
        obtain ⟨changed, hset⟩ : ∃ changed, ((store.ringOf? (call.target store.options)).getD
            store.options.emptyRing).setKey index raw = .ok changed :=
          ⟨_, KeyRing.setKey_eq_ok_iff.mpr ⟨_, hnamed, by rw [hring.size_eq]; exact hlt, rfl⟩⟩
        rw [perform_of_setKey hcall, setKeyOf, hcheck]
        simp only [hset, bind, Except.bind, pure, Except.pure, Except.map, InPlace.settle]
      wire := by
        intro participant algorithm entropy wire frame hclear hwire
        obtain ⟨other, sealed, hslot, hparse, hother, hlast⟩ := keySlot_of_encrypt hclear hwire
        obtain rfl := Except.ok.inj (hbyte.symm.trans hslot)
        exact ⟨hlast, sealed, hparse, by rw [hother, hnamed]⟩ }

theorem Reached.turnsBack (h : Reached options store)
    (hindex : ¬ (0 ≤ index ∧ index < options.ringSize)) : store.TurnsBack index := by
  have hmade := h.madeFor
  obtain rfl := hmade.options_eq
  have hcheck : store.checkIndex index =
      .error (.invalidIndex index store.options.ringSize) := checkIndex_eq_error (by omega)
  have hkeySlot : store.keySlot index =
      .error (.invalidKeyIndex index store.options.ringSize) :=
    keySlot_eq_error_iff.mpr ⟨rfl, by omega⟩
  have hslot {owner : Owner} {ring : KeyRing} (hring : store.ringOf? owner = some ring) :
      ring.slot index = .error (.invalidIndex index store.options.ringSize) := by
    have hsize := (hmade.rings hring).size_eq
    exact KeyRing.slot_eq_error_iff.mpr ⟨by rw [hsize], by omega⟩
  exact
    { checkIndex_eq := hcheck
      slot_eq := hslot
      keySlot_eq := hkeySlot
      setKey := by
        intro call raw hcall
        rw [perform_of_setKey hcall, setKeyOf, hcheck]
        rfl
      ratchetKey := by
        intro call hcall
        rw [perform_of_ratchetKey hcall, ratchetKeyOf, hcheck]
        rfl
      getKey := by
        intro call hcall
        rw [perform_of_getKey hcall]
        cases hring : store.ringOf? (call.target store.options) with
        | none => rfl
        | some ring =>
            rw [Option.bind_some, KeyRing.key?, hslot hring]
            rfl
      ringCall := fun hring hcall => RingCall.apply_of_out (hslot hring) hcall
      encrypt := by
        intro participant algorithm entropy frame hclear
        obtain ⟨iv, hiv⟩ :=
          frame.exists_encrypt_eq_encryptWith store participant algorithm index entropy
        rw [hiv, Frame.encryptWith, if_neg (Bool.eq_false_iff.mp hclear), sealingKey, hkeySlot]
        rfl }

/-- In whatever state a store and its rings are, the three checks agree about every
index. One that names a slot passes them all, and what is sealed under it names the same
slot when it is taken apart; any other is turned back everywhere and reaches no slot. So
no frame is refused for the index by a sender under an index where a key was set, or by a
receiver with the options of the sender that made it. -/
theorem index_checks_agree (h : Reached options store) (index : Int) :
    let inRing := 0 ≤ index ∧ index < options.ringSize
    (inRing → ∃ byte, store.Admits index byte) ∧
    (¬ inRing → store.TurnsBack index) ∧
    (∀ {call raw}, call.request = .setKey index raw → (store.perform call).1 = .set (.ok ()) →
      ∀ {sender}, Reached options sender →
        ∀ (frame : Frame) participant algorithm entropy place size,
          (frame.encrypt sender participant algorithm index entropy).1 ≠
            .error (.invalidKeyIndex place size)) ∧
    ∀ (frame : Frame) participant algorithm entropy {wire},
      (frame.encrypt store participant algorithm index entropy).1 = .ok wire →
      ∀ {receiver}, Reached options receiver →
        ∀ listener expected place size,
          (receiver.decrypt listener expected wire).1 ≠ .error (.invalidKeyIndex place size) := by
  intro inRing
  refine ⟨h.admits, h.turnsBack, ?_, ?_⟩
  · intro call raw hcall hset sender hsender frame participant algorithm entropy place size
    by_cases hindex : inRing
    · obtain ⟨byte, hadmits⟩ := hsender.admits hindex
      exact encrypt_ne_invalidKeyIndex hadmits.keySlot_eq place size
    · rw [(h.turnsBack hindex).setKey hcall] at hset
      cases hset
  · intro frame participant algorithm entropy wire hwire receiver hreceiver listener expected
      place size
    have hoptions : receiver.options = store.options :=
      hreceiver.madeFor.options_eq.trans h.madeFor.options_eq.symm
    cases hclear : store.options.leavesClear frame.payload with
    | true =>
        obtain ⟨iv, hiv⟩ :=
          frame.exists_encrypt_eq_encryptWith store participant algorithm index entropy
        rw [hiv, Frame.encryptWith_of_clear hclear] at hwire
        obtain rfl := Except.ok.inj hwire
        rw [← hoptions] at hclear
        rw [decrypt_of_clear hclear]
        exact nofun
    | false =>
        obtain ⟨byte, sealed, hslot, hparse, rfl, -⟩ := keySlot_of_encrypt hclear hwire
        have hlt := (keySlot_eq_ok_iff.mp hslot).2
        rw [← hoptions] at hlt
        exact decrypt_ne_invalidKeyIndex hparse hlt place size

/-- As many slots as a byte can name. -/
def widest : KeyOptions :=
  { shared := false, salt := [], window := 0, marker := [], ringSize := 256, tolerance := none }

/-- The last index is the last byte, and neither neighbour of the range is taken for one
in it. -/
theorem index_checks_agree_at_the_edges :
    ∃ store, Reached widest store ∧ store.Admits 255 255 ∧ store.TurnsBack 256 ∧
      store.TurnsBack (-1) ∧
      ∀ (frame : Frame) participant algorithm entropy place size,
        (frame.encrypt store participant algorithm 255 entropy).1 ≠
          .error (.invalidKeyIndex place size) := by
  have hnew : KeyStore.new widest = .ok ⟨widest, widest.emptyRing, []⟩ := rfl
  have h := Reached.new hnew
  obtain ⟨byte, hadmits⟩ := (index_checks_agree h 255).1 (by decide)
  obtain rfl : byte = 255 := UInt8.toNat_inj.mp (Int.natCast_inj.mp hadmits.index_eq.symm)
  have hcall : (StoreCall.member ⟨"a"⟩ (.setKey 255 [1])).request = .setKey 255 [1] := rfl
  exact ⟨_, h, hadmits, (index_checks_agree h 256).2.1 (by decide),
    (index_checks_agree h (-1)).2.1 (by decide),
    (index_checks_agree h 255).2.2.1 hcall (hadmits.setKey hcall) h⟩

end KeyStore

end MediaSeal
