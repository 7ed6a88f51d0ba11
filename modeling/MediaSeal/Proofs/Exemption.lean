import MediaSeal.Proofs.RoundTrip

/-!
# When a sealed frame looks like a clear one

The marker is whatever sender and receiver were given, and the receiver looks
for it at the end of what arrives. At the end of a sealed frame stand the last
bytes of the ciphertext, the vector, and the trailer. The very last byte of a
payload may be anything, and so it does not matter which key index the trailer
names. What matters is the rest: a marker that the bytes before it end in makes
the frame an exempt one. The nearest of these bytes is the length of the vector,
which is the same in all frames of one cipher.

So a marker of this one byte exempts every sealed frame, and one that ends in
another byte exempts none, unless it is a whole frame. A frame that is not
exempt is opened or refused, and what a receiver hands on was opened.
-/

namespace MediaSeal

/-! ## Exempt payloads -/

namespace Marker

variable {marker payload clear : Bytes}

theorem ends_in_marker_iff :
    marker.length + 1 ≤ payload.length ∧
        (payload.drop (payload.length - (marker.length + 1))).take marker.length = marker ∧
        payload.take (payload.length - (marker.length + 1)) = clear ↔
      ∃ last, payload = clear ++ marker ++ [last] := by
  constructor
  · rintro ⟨hroom, hmarker, hclear⟩
    generalize hstart : payload.length - (marker.length + 1) = start at hmarker hclear
    have hend : ((payload.drop start).drop marker.length).length = 1 := by
      simp only [List.length_drop]
      omega
    obtain ⟨last, hlast⟩ := List.length_eq_one_iff.mp hend
    refine ⟨last, ?_⟩
    calc payload
      _ = payload.take start ++ ((payload.drop start).take marker.length ++
            (payload.drop start).drop marker.length) := by
          rw [List.take_append_drop, List.take_append_drop]
      _ = clear ++ marker ++ [last] := by rw [hclear, hmarker, hlast, List.append_assoc]
  · rintro ⟨last, rfl⟩
    have hlength : (clear ++ marker ++ [last]).length = clear.length + (marker.length + 1) := by
      simp only [List.length_append, List.length_singleton]
      omega
    have hstart : (clear ++ marker ++ [last]).length - (marker.length + 1) = clear.length := by
      omega
    refine ⟨by omega, ?_, ?_⟩
    · rw [hstart, List.append_assoc, List.drop_left, List.take_left]
    · rw [hstart, List.append_assoc, List.take_left]

/-- The marker is looked for as the whole payload first, and then before the
last byte. -/
theorem strip?_eq_some_iff :
    strip? marker payload = some clear ↔
      marker ≠ [] ∧
        (payload = marker ∧ clear = payload ∨ ∃ last, payload = clear ++ marker ++ [last]) := by
  rw [← ends_in_marker_iff, strip?]
  by_cases hmarker : marker = []
  · rw [if_pos hmarker]
    simp only [reduceCtorEq, hmarker, ne_eq, not_true_eq_false, false_and]
  rw [if_neg hmarker]
  by_cases hsame : payload = marker
  · rw [if_pos hsame, Option.some.injEq, hsame]
    constructor
    · intro h
      exact ⟨hmarker, .inl ⟨rfl, h.symm⟩⟩
    · rintro ⟨-, ⟨-, h⟩ | ⟨hroom, -⟩⟩
      · exact h.symm
      · omega
  rw [if_neg hsame]
  by_cases hroom : payload.length < marker.length + 1
  · rw [if_pos hroom]
    simp only [reduceCtorEq, hsame, false_and, false_or, Nat.not_le.mpr hroom, and_false]
  · rw [if_neg hroom, Option.ite_none_right_eq_some, Option.some.injEq]
    simp only [hmarker, hsame, ne_eq, not_false_eq_true, true_and, false_and, false_or,
      Nat.not_lt.mp hroom]

/-- A payload is exempt if it is the marker, or ends in it but for one byte. -/
theorem exempts_iff :
    exempts marker payload = true ↔
      marker ≠ [] ∧ (marker = payload ∨ payload ≠ [] ∧ marker <:+ payload.dropLast) := by
  rw [exempts, Option.isSome_iff_exists]
  simp only [strip?_eq_some_iff]
  constructor
  · rintro ⟨clear, hmarker, ⟨h, -⟩ | ⟨last, rfl⟩⟩
    · exact ⟨hmarker, .inl h.symm⟩
    · refine ⟨hmarker, .inr ⟨List.append_ne_nil_of_right_ne_nil _ (List.cons_ne_nil _ _), ?_⟩⟩
      rw [List.dropLast_concat]
      exact List.suffix_append clear marker
  · rintro ⟨hmarker, rfl | ⟨hpayload, clear, hclear⟩⟩
    · exact ⟨_, hmarker, .inl ⟨rfl, rfl⟩⟩
    · refine ⟨clear, hmarker, .inr ⟨payload.getLast hpayload, ?_⟩⟩
      rw [hclear, List.dropLast_concat_getLast]

end Marker

namespace SealedFrame

variable {frame : SealedFrame}

theorem dropLast_toBytes (frame : SealedFrame) :
    frame.toBytes.dropLast = frame.header ++ frame.ciphertext ++ frame.iv ++
      [frame.trailer.headerLength, frame.trailer.algorithm.tag, frame.trailer.ivLength] := by
  have hlast : frame.toBytes = frame.header ++ frame.ciphertext ++ frame.iv ++
      [frame.trailer.headerLength, frame.trailer.algorithm.tag, frame.trailer.ivLength] ++
        [frame.trailer.keyIndex] := by
    rw [toBytes, List.append_assoc _ _ [frame.trailer.keyIndex]]
    rfl
  rw [hlast, List.dropLast_concat]

theorem exempts_toBytes_iff {marker : Bytes} :
    Marker.exempts marker frame.toBytes = true ↔
      marker ≠ [] ∧ (marker = frame.toBytes ∨
        marker <:+ frame.header ++ frame.ciphertext ++ frame.iv ++
          [frame.trailer.headerLength, frame.trailer.algorithm.tag, frame.trailer.ivLength]) := by
  rw [Marker.exempts_iff, dropLast_toBytes]
  simp only [ne_eq, frame.toBytes_ne_nil, not_false_eq_true, true_and]

/-- Whatever a marker looks for further on, it starts with the length of the
vector. -/
theorem exempts_toBytes_eq_false {marker : Bytes} (hwhole : marker ≠ frame.toBytes)
    (hlast : marker.getLast? ≠ some frame.trailer.ivLength) :
    Marker.exempts marker frame.toBytes = false := by
  rw [← Bool.not_eq_true, exempts_toBytes_iff]
  rintro ⟨hmarker, h | ⟨front, hfront⟩⟩
  · exact hwhole h
  · apply hlast
    have hends := congrArg List.getLast? hfront
    rw [List.getLast?_append, List.getLast?_append] at hends
    obtain ⟨last, hsome⟩ := Option.ne_none_iff_exists'.mp
      (mt List.getLast?_eq_none_iff.mp hmarker)
    rw [hsome] at hends ⊢
    exact hends

end SealedFrame

/-! ## What is opened and what is not -/

theorem KeyStore.decrypt_of_exempt {store : KeyStore} {participant : Participant}
    {algorithm : Algorithm} {payload clear : Bytes}
    (h : Marker.strip? store.options.marker payload = some clear) :
    store.decrypt participant algorithm payload = (.ok ⟨clear, 0⟩, store) := by
  have hpayload : payload ≠ [] := by
    rintro rfl
    obtain ⟨hmarker, ⟨hempty, -⟩ | ⟨last, hends⟩⟩ := Marker.strip?_eq_some_iff.mp h
    · exact hmarker hempty.symm
    · exact List.append_ne_nil_of_right_ne_nil _ (List.cons_ne_nil _ _) hends.symm
  unfold KeyStore.decrypt
  simp only [List.isEmpty_eq_false_iff.mpr hpayload, h, Bool.false_eq_true, if_false]

theorem KeyStore.decrypt_of_clear {store : KeyStore} {participant : Participant}
    {algorithm : Algorithm} {payload : Bytes}
    (h : store.options.leavesClear payload = true) :
    store.decrypt participant algorithm payload =
      (.ok ⟨(Marker.strip? store.options.marker payload).getD payload, 0⟩, store) := by
  cases hstrip : Marker.strip? store.options.marker payload with
  | some clear => exact decrypt_of_exempt hstrip
  | none =>
      rw [KeyOptions.leavesClear, Marker.exempts_eq_false_iff.mpr hstrip, Bool.or_false,
        List.isEmpty_iff] at h
      subst h
      rfl

/-- A payload that is neither empty nor exempt is only ever handed on once some
key in reach has opened it. -/
theorem KeyStore.opens_of_decrypt_ok {store : KeyStore} {participant : Participant}
    {algorithm : Algorithm} {payload : Bytes} {opened : Opened} (hpayload : payload ≠ [])
    (hmarker : Marker.exempts store.options.marker payload = false)
    (h : (store.decrypt participant algorithm payload).1 = .ok opened) :
    ∃ frame ring base key, store.ReachesCipher participant algorithm payload frame ring base ∧
      base.advance ring.salt opened.steps = .ok key ∧
      frame.openWith? key = some opened.payload := by
  have houtcome := store.decrypts participant algorithm payload
  generalize store.decrypt participant algorithm payload = result at h houtcome
  cases houtcome with
  | leftClear hclear =>
      have hleft := KeyOptions.leavesClear_of_strip? hclear
      rw [KeyOptions.leavesClear_eq_false_iff.mpr ⟨hpayload, hmarker⟩] at hleft
      cases hleft
  | turnedAway haway => cases h
  | opened reaches within advanced opens least =>
      obtain rfl := Except.ok.inj h
      exact ⟨_, _, _, _, reaches, advanced, SealedFrame.openWith?_eq_some opens⟩
  | failed reaches closed => cases h

/-- What a sender seals is exempt exactly if the marker is all of it or stands
right before its last byte, and the byte there is the length of the vector.
Where it is not exempt, a receiver that is set up alike brings it to the cipher
if it has a valid ring with a key, and hands on nothing but what the cipher
opened. This is so for every vector, and so for all that encrypting draws. -/
theorem sealed_exempt_iff_ends_in_marker {store : KeyStore} {participant : Participant}
    {algorithm : Algorithm} {index : Int} {frame : Frame} {iv wire : Bytes}
    (hpayload : frame.payload ≠ [])
    (hmarker : Marker.exempts store.options.marker frame.payload = false)
    (hwire : frame.encryptWith store participant algorithm index iv = .ok wire) :
    let marker := store.options.marker
    (∃ sealed : SealedFrame, SealedFrame.parse wire = .ok sealed ∧ sealed.toBytes = wire ∧
      (Marker.exempts marker wire = true ↔
        marker ≠ [] ∧ (marker = wire ∨
          marker <:+ sealed.header ++ sealed.ciphertext ++ iv ++
            [sealed.trailer.headerLength, algorithm.tag, UInt8.ofNat algorithm.ivLength])) ∧
      (marker ≠ wire → marker.getLast? ≠ some (UInt8.ofNat algorithm.ivLength) →
        Marker.exempts marker wire = false) ∧
      (Marker.exempts marker wire = false →
        ∀ receiver : KeyStore, receiver.options = store.options → ∀ listener,
          (∀ ring base, receiver.ring? listener = some ring → ring.key? index = some base →
            ring.invalidated = false →
            receiver.ReachesCipher listener algorithm wire sealed ring base) ∧
          ∀ expected opened, (receiver.decrypt listener expected wire).1 = .ok opened →
            ∃ ring base key,
              receiver.ReachesCipher listener expected wire sealed ring base ∧
              base.advance ring.salt opened.steps = .ok key ∧
              sealed.openWith? key = some opened.payload)) ∧
    ∀ entropy : Entropy, ∃ drawn, drawn.length = algorithm.ivLength ∧
      (frame.encrypt store participant algorithm index entropy).1 =
        frame.encryptWith store participant algorithm index drawn := by
  intro marker
  have hclear := KeyOptions.leavesClear_eq_false_iff.mpr ⟨hpayload, hmarker⟩
  obtain ⟨slot, key, hkey, sealed, hsealed, rfl⟩ :=
    (Frame.encryptWith_eq_ok_iff hclear).mp hwire
  have hreaches : frame.reachesCipher store participant index = true := by
    rw [Frame.reachesCipher, hclear, hkey]
    rfl
  obtain ⟨rfl, hlt⟩ := KeyStore.keySlot_eq_ok_iff.mp (KeyStore.sealingKey_eq_ok_iff.mp hkey).1
  have hcarries := SealedFrame.carries_of_ofFrame hpayload hsealed
  obtain ⟨hiv, hlength⟩ : sealed.iv = iv ∧
      sealed.trailer.ivLength = UInt8.ofNat algorithm.ivLength := by
    obtain ⟨ciphertext, rfl, hciphertext⟩ := SealedFrame.ofFrame_eq_ok_iff.mp hsealed
    exact ⟨rfl, by rw [Algorithm.iv_length_of_encrypt hciphertext]⟩
  have hparse := SealedFrame.parse_toBytes hcarries.wellFormed
  refine ⟨⟨sealed, hparse, rfl, ?_, ?_, ?_⟩, fun entropy => ?_⟩
  · rw [SealedFrame.exempts_toBytes_iff, hiv, hcarries.algorithm_eq, hlength]
  · intro hwhole hlast
    exact SealedFrame.exempts_toBytes_eq_false hwhole (hlength ▸ hlast)
  · intro hexempt receiver hoptions listener
    rw [← hoptions] at hlt
    have hopen : Marker.exempts receiver.options.marker sealed.toBytes = false := by
      rw [hoptions]
      exact hexempt
    constructor
    · intro ring base hring hbase hvalid
      exact hcarries.reachesCipher (Marker.exempts_eq_false_iff.mp hopen) hlt hring hbase hvalid
    · intro expected opened hopened
      obtain ⟨found, ring, base, opening, hfound, hadvance, hopens⟩ :=
        KeyStore.opens_of_decrypt_ok sealed.toBytes_ne_nil hopen hopened
      obtain rfl : sealed = found := Except.ok.inj (hparse.symm.trans hfound.parsed)
      exact ⟨ring, base, opening, hfound, hadvance, hopens⟩
  · exact ⟨_, entropy.length_draw _, Frame.encrypt_eq_encryptWith hreaches entropy⟩

theorem sealed_not_exempt_in_lastSlotStore :
    ∃ wire sealed, (Frame.mk .video true [1, 2, 3]).encryptWith lastSlotStore ⟨"a"⟩ .aesCbc 1
        (Bytes.zeros 16) = .ok wire ∧
      SealedFrame.parse wire = .ok sealed ∧ Marker.exempts [7] wire = false := by
  have hclear : lastSlotStore.options.leavesClear [1, 2, 3] = false := by decide
  have hkey : lastSlotStore.sealingKey ⟨"a"⟩ 1 = .ok (1, .supplied [1] []) := rfl
  obtain ⟨sealed, hsealed, hwire⟩ : ∃ sealed, _ ∧
      (Frame.mk .video true [1, 2, 3]).encryptWith lastSlotStore ⟨"a"⟩ .aesCbc 1
        (Bytes.zeros 16) = _ :=
    Frame.exists_encryptWith_eq_ok hclear hkey (by decide) rfl
  have hwhole : [7] ≠ sealed.toBytes := by
    intro h
    have hlength := sealed.length_toBytes
    rw [← h, Trailer.size, List.length_singleton] at hlength
    omega
  obtain ⟨⟨found, hparse, -, -, hother, -⟩, -⟩ :=
    sealed_exempt_iff_ends_in_marker (List.cons_ne_nil _ _) (by decide) hwire
  exact ⟨_, found, hwire, hparse, hother hwhole (by decide)⟩

/-- A store whose marker is the length of a vector of the counter mode. -/
def vectorLengthMarked : KeyStore where
  options :=
    { shared := true
      salt := []
      window := 0
      marker := [12]
      ringSize := 1
      tolerance := none }
  sharedRing := ⟨[], none, [some (.supplied [1] [])], 0, false⟩
  members := []

/-- There a receiver hands on what a sender sealed, with two bytes taken off and
nothing opened. -/
theorem sealed_exempt_in_vectorLengthMarked :
    ∃ sealed : SealedFrame, vectorLengthMarked.options.fault? = none ∧
      Marker.exempts [12] [1, 2, 3] = false ∧
      (Frame.mk .audio false [1, 2, 3]).encryptWith vectorLengthMarked ⟨"a"⟩ .aesGcm 0
        (Bytes.zeros 12) = .ok sealed.toBytes ∧
      Marker.exempts [12] sealed.toBytes = true ∧
      ∃ clear, (vectorLengthMarked.decrypt ⟨"a"⟩ .aesGcm sealed.toBytes).1 = .ok ⟨clear, 0⟩ ∧
        clear = sealed.header ++ sealed.ciphertext ++ sealed.iv ++ [1, 1] ∧
        clear ≠ [1, 2, 3] := by
  have hclear : vectorLengthMarked.options.leavesClear [1, 2, 3] = false := by decide
  have hkey : vectorLengthMarked.sealingKey ⟨"a"⟩ 0 = .ok (0, .supplied [1] []) := rfl
  obtain ⟨sealed, hsealed, hwire⟩ : ∃ sealed, _ ∧
      (Frame.mk .audio false [1, 2, 3]).encryptWith vectorLengthMarked ⟨"a"⟩ .aesGcm 0
        (Bytes.zeros 12) = _ :=
    Frame.exists_encryptWith_eq_ok hclear hkey (by decide) rfl
  obtain ⟨ciphertext, rfl, hciphertext⟩ := SealedFrame.ofFrame_eq_ok_iff.mp hsealed
  have hstrip : Marker.strip? [12] (SealedFrame.toBytes
      ⟨[1], ciphertext, Bytes.zeros 12, ⟨1, .aesGcm, 12, 0⟩⟩) =
        some ([1] ++ ciphertext ++ Bytes.zeros 12 ++ [1, 1]) := by
    refine Marker.strip?_eq_some_iff.mpr ⟨List.cons_ne_nil _ _, .inr ⟨0, ?_⟩⟩
    rw [SealedFrame.toBytes, List.append_assoc _ [1, 1], List.append_assoc _ _ [0]]
    rfl
  have hexempt : Marker.exempts [12] _ = true := Option.isSome_iff_exists.mpr ⟨_, hstrip⟩
  have hdecrypt : vectorLengthMarked.decrypt ⟨"a"⟩ .aesGcm _ = _ :=
    KeyStore.decrypt_of_exempt hstrip
  refine ⟨_, rfl, by decide, hwire, hexempt, _, congrArg Prod.fst hdecrypt, rfl, fun hsame => ?_⟩
  have hlength := congrArg List.length hsame
  simp only [List.length_append, List.length_cons, List.length_nil, Bytes.zeros,
    List.length_replicate] at hlength
  omega

end MediaSeal
