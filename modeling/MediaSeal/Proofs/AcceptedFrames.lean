import MediaSeal.Proofs.CipherConverse
import MediaSeal.Proofs.Synchrony

/-!
# What a receiver accepts is what could have been sealed for it

A receiver takes a frame apart and puts nothing together. All the same it
accepts no more than what somebody with its key, or a later one in reach, could
have laid out: the trailer it reads is the trailer of these parts, the bytes it
authenticates are rebuilt from them, and a ciphertext that opens is the one that
its plaintext is sealed to. So a payload that was accepted can be made again
from what it was opened to, byte for byte, and nothing in it can be changed
without changing the header, the vector, the key or the body.

Which key it is remains to be found by trying, and the first that fits is taken.
-/

namespace MediaSeal

/-! ## Frames sealed for a receiver -/

/-- A frame sealed from a body for a receiver with this store: it names the
receiver's cipher and a slot that holds a key, and it was sealed with the key so
many steps after that one. The steps are within the window, and the line goes on
that far. -/
structure KeyStore.SealedFor (store : KeyStore) (participant : Participant)
    (algorithm : Algorithm) (frame : SealedFrame) (steps : Nat) (body : Bytes) : Prop where
  wellFormed : frame.WellFormed
  algorithm_eq : frame.trailer.algorithm = algorithm
  index_lt : frame.trailer.keyIndex.toNat < store.options.ringSize
  within : steps ≤ store.options.window.toNat
  sealed : ∃ ring base key, store.ring? participant = some ring ∧ ring.invalidated = false ∧
    ring.key? frame.trailer.keyIndex.toNat = some base ∧
    base.advance ring.salt steps = .ok key ∧
    algorithm.encrypt key.frameKey frame.iv frame.aad body = .ok frame.ciphertext

namespace SealedFrame

theorem length_ciphertext_le {frame : SealedFrame} {length : Nat}
    (h : frame.toBytes.length ≤ length) : frame.ciphertext.length ≤ length := by
  rw [length_toBytes] at h
  omega

theorem eq_of_toBytes_eq {frame other : SealedFrame} (hframe : frame.WellFormed)
    (hother : other.WellFormed) (h : other.toBytes = frame.toBytes) : other = frame := by
  have hread := parse_toBytes hother
  rw [h, parse_toBytes hframe] at hread
  exact (Except.ok.inj hread).symm

end SealedFrame

namespace KeyStore

variable {store : KeyStore} {participant : Participant} {algorithm : Algorithm}
  {frame other : SealedFrame} {steps : Nat} {body payload wire : Bytes} {ring : KeyRing}
  {base : KeyMaterial}

theorem SealedFor.reachesCipher (h : store.SealedFor participant algorithm frame steps body)
    (hmarker : Marker.exempts store.options.marker frame.toBytes = false) :
    ∃ ring base, store.ReachesCipher participant algorithm frame.toBytes frame ring base := by
  obtain ⟨ring, base, key, hring, hvalid, hbase, -, -⟩ := h.sealed
  exact ⟨ring, base,
    { nonempty := frame.toBytes_ne_nil
      unmarked := Marker.exempts_eq_false_iff.mp hmarker
      parsed := SealedFrame.parse_toBytes h.wellFormed
      algorithm_eq := h.algorithm_eq
      index_lt := h.index_lt
      ring_eq := hring
      key_eq := hbase
      valid := hvalid }⟩

/-- To be sealed for a receiver is to open after so many steps, as opening is
the inverse of sealing either way. -/
theorem ReachesCipher.sealedFor_iff
    (h : store.ReachesCipher participant algorithm payload frame ring base)
    (hlength : payload.length ≤ Gcm.maxLength) :
    store.SealedFor participant algorithm frame steps body ↔
      steps ≤ store.options.window.toNat ∧ frame.OpensAfter ring.salt base steps body := by
  obtain ⟨hwell, rfl⟩ := SealedFrame.parse_eq_ok_iff.mp h.parsed
  have hshort := SealedFrame.length_ciphertext_le hlength
  constructor
  · rintro ⟨-, -, -, hwithin, found, start, key, hring, -, hstart, hkey, hsealed⟩
    obtain rfl : found = ring := Option.some.inj (hring.symm.trans h.ring_eq)
    obtain rfl : start = base := Option.some.inj (hstart.symm.trans h.key_eq)
    refine ⟨hwithin, key, hkey, ?_⟩
    rw [h.algorithm_eq]
    exact (Algorithm.decrypt_eq_ok_iff hshort).mpr hsealed
  · rintro ⟨hwithin, key, hkey, hbody⟩
    rw [h.algorithm_eq] at hbody
    exact
      { wellFormed := hwell
        algorithm_eq := h.algorithm_eq
        index_lt := h.index_lt
        within := hwithin
        sealed := ⟨ring, base, key, h.ring_eq, h.valid, h.key_eq, hkey,
          (Algorithm.decrypt_eq_ok_iff hshort).mp hbody⟩ }

/-- A payload that is accepted was sealed for the receiver, and not under an
earlier key. -/
theorem exists_sealedFor_of_decrypt_ok {opened : Opened} (hpayload : wire ≠ [])
    (hmarker : Marker.exempts store.options.marker wire = false)
    (hlength : wire.length ≤ Gcm.maxLength)
    (h : (store.decrypt participant algorithm wire).1 = .ok opened) :
    ∃ (frame : SealedFrame) (body : Bytes), frame.toBytes = wire ∧
      store.SealedFor participant algorithm frame opened.steps body ∧
      opened.payload = frame.header ++ body ∧
      ∀ earlier < opened.steps, ∀ other,
        ¬ store.SealedFor participant algorithm frame earlier other := by
  obtain ⟨frame, ring, base, -, hreaches, -⟩ := opens_of_decrypt_ok hpayload hmarker h
  obtain ⟨hwithin, ⟨body, hopens, hwhole⟩, hleast⟩ := hreaches.decrypt_ok_iff.mp h
  have hwire := (SealedFrame.parse_eq_ok_iff.mp hreaches.parsed).2
  refine ⟨frame, body, hwire, (hreaches.sealedFor_iff hlength).mpr ⟨hwithin, hopens⟩, hwhole, ?_⟩
  intro earlier hearlier other hsealed
  exact hleast earlier hearlier other ((hreaches.sealedFor_iff hlength).mp hsealed).2

theorem SealedFor.exists_decrypt_ok
    (h : store.SealedFor participant algorithm frame steps body)
    (hmarker : Marker.exempts store.options.marker frame.toBytes = false)
    (hlength : frame.toBytes.length ≤ Gcm.maxLength) :
    ∃ opened, (store.decrypt participant algorithm frame.toBytes).1 = .ok opened := by
  obtain ⟨ring, base, hreaches⟩ := h.reachesCipher hmarker
  obtain ⟨hwithin, hopens⟩ := (hreaches.sealedFor_iff hlength).mp h
  rcases frame.least_or_closed ring.salt base store.options.window.toNat with
    ⟨least, hbound, ⟨found, hfound⟩, hleast⟩ | hclosed
  · exact ⟨⟨frame.header ++ found, least⟩,
      hreaches.decrypt_ok_iff.mpr ⟨hbound, ⟨found, hfound, rfl⟩, hleast⟩⟩
  · exact absurd hopens (hclosed steps hwithin body)

/-- The parts that a sender chooses leave one ciphertext and one trailer. -/
theorem SealedFor.toBytes_eq (h : store.SealedFor participant algorithm frame steps body)
    (hother : store.SealedFor participant algorithm other steps body)
    (hheader : other.header = frame.header) (hiv : other.iv = frame.iv)
    (hindex : other.trailer.keyIndex = frame.trailer.keyIndex) :
    other.toBytes = frame.toBytes := by
  have hlengths : other.trailer.headerLength = frame.trailer.headerLength ∧
      other.trailer.ivLength = frame.trailer.ivLength := by
    constructor
    · refine UInt8.toNat_inj.mp ?_
      rw [← hother.wellFormed.header_length, ← h.wellFormed.header_length, hheader]
    · refine UInt8.toNat_inj.mp ?_
      rw [← hother.wellFormed.iv_length, ← h.wellFormed.iv_length, hiv]
  have htrailer : other.trailer.toBytes = frame.trailer.toBytes := by
    rw [Trailer.toBytes, Trailer.toBytes, hlengths.1, hlengths.2, hindex, h.algorithm_eq,
      hother.algorithm_eq]
  have haad : other.aad = frame.aad := by
    rw [SealedFrame.aad, SealedFrame.aad, hheader, htrailer]
  obtain ⟨ring, base, key, hring, -, hbase, hkey, hciphertext⟩ := h.sealed
  obtain ⟨ring', base', key', hring', -, hbase', hkey', hciphertext'⟩ := hother.sealed
  obtain rfl : ring = ring' := Option.some.inj (hring.symm.trans hring')
  rw [hindex] at hbase'
  obtain rfl : base = base' := Option.some.inj (hbase.symm.trans hbase')
  obtain rfl : key = key' := Except.ok.inj (hkey.symm.trans hkey')
  rw [haad, hiv, hciphertext] at hciphertext'
  rw [SealedFrame.toBytes, SealedFrame.toBytes, hheader, hiv, htrailer,
    Except.ok.inj hciphertext']

end KeyStore

/-- Of the payloads that are not left alone, a receiver accepts exactly those
that were sealed for it from some body, under its key or a later one in reach.
It returns the header and the body that the payload was sealed from, under the
first key for which there is one; sealing these again gives the payload. So two
accepted payloads with the same header, vector, key and body are the same. -/
theorem decrypt_accepts_iff_sealed {store : KeyStore} {participant : Participant}
    {algorithm : Algorithm} {wire : Bytes} (hpayload : wire ≠ [])
    (hmarker : Marker.exempts store.options.marker wire = false)
    (hlength : wire.length ≤ Gcm.maxLength) :
    let accepts (payload : Bytes) (opened : Opened) : Prop :=
      (store.decrypt participant algorithm payload).1 = .ok opened
    ((∃ opened, accepts wire opened) ↔
      ∃ (frame : SealedFrame) (steps : Nat) (body : Bytes), frame.toBytes = wire ∧
        store.SealedFor participant algorithm frame steps body) ∧
    (∀ opened, accepts wire opened →
      ∃ (frame : SealedFrame) (body : Bytes), frame.toBytes = wire ∧
        store.SealedFor participant algorithm frame opened.steps body ∧
        opened.payload = frame.header ++ body ∧
        (∀ earlier < opened.steps, ∀ other,
          ¬ store.SealedFor participant algorithm frame earlier other) ∧
        ∀ other found, other ≠ [] → Marker.exempts store.options.marker other = false →
          other.length ≤ Gcm.maxLength → accepts other opened →
          SealedFrame.parse other = .ok found → found.header = frame.header →
          found.iv = frame.iv → found.trailer.keyIndex = frame.trailer.keyIndex →
          other = wire) := by
  intro accepts
  refine ⟨⟨?_, ?_⟩, ?_⟩
  · rintro ⟨opened, hopened⟩
    obtain ⟨frame, body, hwire, hsealed, -⟩ :=
      KeyStore.exists_sealedFor_of_decrypt_ok hpayload hmarker hlength hopened
    exact ⟨frame, opened.steps, body, hwire, hsealed⟩
  · rintro ⟨frame, steps, body, rfl, hsealed⟩
    exact hsealed.exists_decrypt_ok hmarker hlength
  · intro opened hopened
    obtain ⟨frame, body, hwire, hsealed, hwhole, hleast⟩ :=
      KeyStore.exists_sealedFor_of_decrypt_ok hpayload hmarker hlength hopened
    refine ⟨frame, body, hwire, hsealed, hwhole, hleast, ?_⟩
    intro other found hnonempty hunmarked hshort hagain hparse hheader hiv hindex
    obtain ⟨again, content, hother, hresealed, hcontent, -⟩ :=
      KeyStore.exists_sealedFor_of_decrypt_ok hnonempty hunmarked hshort hagain
    obtain ⟨hfound, hlaid⟩ := SealedFrame.parse_eq_ok_iff.mp hparse
    obtain rfl : found = again :=
      SealedFrame.eq_of_toBytes_eq hresealed.wellFormed hfound (hlaid.trans hother.symm)
    -- Both were opened to one payload, and the headers in front are the same.
    obtain rfl : content = body := by
      rw [hwhole, hheader] at hcontent
      exact (List.append_cancel_left hcontent).symm
    rw [← hwire, ← hlaid]
    exact hsealed.toBytes_eq hresealed hheader hiv hindex

/-- A receiver that is one generation behind. -/
def oneBehind : KeyStore where
  options := { narrowOptions with shared := true }
  sharedRing := ⟨[], none, [none, some suppliedKey], 0, false⟩
  members := []

/-- It takes one step for the frame of a sender that has advanced once. -/
theorem exists_oneBehind_decrypt_eq :
    ∃ sealed opened after,
      SealedFrame.ofFrame skippingFrame .aesGcm 1 skippedToKey (Bytes.zeros 12) = .ok sealed ∧
      oneBehind.decrypt ⟨"a"⟩ .aesGcm sealed.toBytes = (.ok opened, after) ∧ opened.steps = 1 := by
  obtain ⟨sealed, hsealed⟩ : ∃ sealed,
      SealedFrame.ofFrame skippingFrame .aesGcm 1 skippedToKey (Bytes.zeros 12) = .ok sealed :=
    SealedFrame.exists_ofFrame_eq_ok (by decide) rfl
  have hcarries := SealedFrame.carries_of_ofFrame (List.cons_ne_nil 7 []) hsealed
  have hreaches : oneBehind.ReachesCipher ⟨"a"⟩ .aesGcm sealed.toBytes sealed
      oneBehind.sharedRing suppliedKey :=
    hcarries.reachesCipher rfl (by decide) rfl rfl rfl
  have hleast : ∀ earlier < 1, ∀ body,
      ¬ sealed.OpensAfter oneBehind.sharedRing.salt suppliedKey earlier body := by
    intro earlier hearlier body hopens
    obtain rfl : earlier = 0 := by omega
    have hopen := SealedFrame.openWith?_eq_some (SealedFrame.opensAfter_zero_iff.mp hopens)
    have hclosed := skippingFrame_closed
    rw [hsealed] at hclosed
    exact absurd (hopen.symm.trans hclosed) (Option.some_ne_none _)
  obtain ⟨body, hbody, -⟩ := hcarries.opens
  rw [← hcarries.algorithm_eq] at hbody
  have hkey : suppliedKey.advance oneBehind.sharedRing.salt 1 = .ok skippedToKey := rfl
  have hdecrypt := hreaches.decrypt_of_opens (by decide) hkey hbody hleast
  exact ⟨sealed, _, _, hsealed, hdecrypt, rfl⟩

theorem oneBehind_accepts_sealed :
    ∃ sealed opened,
      SealedFrame.ofFrame skippingFrame .aesGcm 1 skippedToKey (Bytes.zeros 12) = .ok sealed ∧
      (oneBehind.decrypt ⟨"a"⟩ .aesGcm sealed.toBytes).1 = .ok opened := by
  obtain ⟨sealed, hsealed⟩ : ∃ sealed,
      SealedFrame.ofFrame skippingFrame .aesGcm 1 skippedToKey (Bytes.zeros 12) = .ok sealed :=
    SealedFrame.exists_ofFrame_eq_ok (by decide) rfl
  have hcarries := SealedFrame.carries_of_ofFrame (List.cons_ne_nil 7 []) hsealed
  obtain ⟨ciphertext, hparts, hciphertext⟩ := SealedFrame.ofFrame_eq_ok_iff.mp hsealed
  have hsize : ciphertext.length = 17 := Algorithm.length_of_encrypt hciphertext
  have hlength : sealed.toBytes.length ≤ Gcm.maxLength := by
    rw [SealedFrame.length_toBytes, hparts, hsize]
    show 0 + 17 + 12 + Trailer.size ≤ Gcm.maxLength
    decide
  have hindex : sealed.trailer.keyIndex = 1 := by rw [hparts]
  have hmarker : Marker.exempts oneBehind.options.marker sealed.toBytes = false := rfl
  have hsealedFor : oneBehind.SealedFor ⟨"a"⟩ .aesGcm sealed 1 skippingFrame.payload :=
    { wellFormed := hcarries.wellFormed
      algorithm_eq := by rw [hparts]
      index_lt := by rw [hindex]; decide
      within := by decide
      sealed := by
        rw [hindex, hparts]
        rw [hparts] at hciphertext
        exact ⟨_, suppliedKey, skippedToKey, rfl, rfl, rfl, rfl, hciphertext⟩ }
  have hopened : ∃ opened, (oneBehind.decrypt ⟨"a"⟩ .aesGcm sealed.toBytes).1 = .ok opened :=
    (decrypt_accepts_iff_sealed sealed.toBytes_ne_nil hmarker hlength).1.mpr
      ⟨sealed, 1, skippingFrame.payload, rfl, hsealedFor⟩
  obtain ⟨opened, hopened⟩ := hopened
  exact ⟨sealed, opened, hsealed, hopened⟩

end MediaSeal
