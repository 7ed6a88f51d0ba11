import MediaSeal.Proofs.CipherInverse
import MediaSeal.Protection.Encrypt

/-!
# Finding the parts of a frame again

A receiver is told nothing about a frame but its bytes. It reads the last four
and works out from them where the vector starts and where the header ends. So
a frame is found again in its bytes exactly as it was if its trailer tells the
truth about the lengths of its header and of its vector; and whatever is found
in some bytes lays out as these bytes again.

The trailers that a sender writes do tell the truth. Their fields are single
bytes, and what has to be shown is that nothing is cut off when a length is put
into one: a header is at most ten bytes long, and a vector has the length that
its cipher demands.
-/

namespace MediaSeal

/-- Two cuts from the front, the second one further on. -/
theorem Bytes.take_append_drop_take {first second : Nat} (h : first ≤ second) (bytes : Bytes) :
    bytes.take first ++ (bytes.take second).drop first = bytes.take second := by
  have hfirst : bytes.take first = (bytes.take second).take first := by
    rw [List.take_take, Nat.min_eq_left h]
  rw [hfirst, List.take_append_drop]

namespace SealedFrame

/-- The trailer tells the truth about the parts before it. -/
structure WellFormed (frame : SealedFrame) : Prop where
  header_length : frame.header.length = frame.trailer.headerLength.toNat
  iv_length : frame.iv.length = frame.trailer.ivLength.toNat
  iv_fits : frame.trailer.ivLength.toNat = frame.trailer.algorithm.ivLength

theorem length_toBytes (frame : SealedFrame) :
    frame.toBytes.length =
      frame.header.length + frame.ciphertext.length + frame.iv.length + Trailer.size := by
  simp only [toBytes, List.length_append, Trailer.length_toBytes]

theorem toBytes_ne_nil (frame : SealedFrame) : frame.toBytes ≠ [] := by
  intro hnil
  have hlength := frame.length_toBytes
  rw [hnil, Trailer.size, List.length_nil] at hlength
  omega

/-- The key index is the last byte on the wire. -/
theorem getLast?_toBytes (frame : SealedFrame) :
    frame.toBytes.getLast? = some frame.trailer.keyIndex := by
  rw [toBytes, List.getLast?_append]
  rfl

/-- A frame laid out is read back as it was. -/
theorem parse_toBytes {frame : SealedFrame} (h : frame.WellFormed) :
    parse frame.toBytes = .ok frame := by
  have hheader : frame.toBytes.take frame.trailer.headerLength.toNat = frame.header := by
    rw [← h.header_length, toBytes, List.append_assoc, List.append_assoc]
    exact List.take_left
  have hroom : frame.toBytes.length - Trailer.size =
      (frame.header ++ frame.ciphertext ++ frame.iv).length := by
    simp only [length_toBytes, List.length_append]
    omega
  have htrailer : frame.toBytes.drop (frame.toBytes.length - Trailer.size) =
      frame.trailer.toBytes := by
    rw [hroom]
    exact List.drop_left
  have hbefore : frame.toBytes.take (frame.toBytes.length - Trailer.size) =
      frame.header ++ frame.ciphertext ++ frame.iv := by
    rw [hroom]
    exact List.take_left
  have hstart : frame.toBytes.length - Trailer.size - frame.trailer.ivLength.toNat =
      (frame.header ++ frame.ciphertext).length := by
    rw [hroom, ← h.iv_length]
    simp only [List.length_append]
    omega
  have hiv : (frame.header ++ frame.ciphertext ++ frame.iv).drop
      (frame.toBytes.length - Trailer.size - frame.trailer.ivLength.toNat) = frame.iv := by
    rw [hstart]
    exact List.drop_left
  have hciphertext : (frame.toBytes.take (frame.toBytes.length - Trailer.size -
      frame.trailer.ivLength.toNat)).drop frame.trailer.headerLength.toNat =
      frame.ciphertext := by
    rw [hstart, ← h.header_length, toBytes, List.append_assoc _ frame.iv, List.take_left,
      List.drop_left]
  have hfits : ¬ frame.toBytes.length - Trailer.size <
      frame.trailer.headerLength.toNat + frame.trailer.ivLength.toNat := by
    rw [hroom, ← h.header_length, ← h.iv_length]
    simp only [List.length_append]
    omega
  unfold parse
  simp only [htrailer, Trailer.toBytes, Algorithm.ofTag?_tag, h.iv_fits.symm, ne_eq,
    not_true_eq_false, if_false, hfits, hheader, hbefore, hiv, hciphertext]

theorem wellFormed_of_parse {payload : Bytes} {frame : SealedFrame}
    (h : parse payload = .ok frame) : frame.WellFormed ∧ frame.toBytes = payload := by
  simp only [parse] at h
  split at h
  · next headerLength tag ivLength keyIndex hlast =>
      split at h
      · cases h
      · next algorithm halgorithm =>
          split at h
          · cases h
          · next hfits =>
              split at h
              · cases h
              · next hroom =>
                  injection h with h
                  subst h
                  have hfour := congrArg List.length hlast
                  rw [List.length_drop] at hfour
                  simp only [List.length_cons, List.length_nil] at hfour
                  refine ⟨⟨?_, ?_, Decidable.not_not.mp hfits⟩, ?_⟩
                  · simp only [List.length_take]
                    omega
                  · simp only [List.length_drop, List.length_take]
                    omega
                  · have htrailer : Trailer.toBytes ⟨headerLength, algorithm, ivLength, keyIndex⟩ =
                        payload.drop (payload.length - Trailer.size) := by
                      rw [hlast, Trailer.toBytes, Algorithm.tag_of_ofTag? halgorithm]
                    rw [toBytes, htrailer, Bytes.take_append_drop_take (by omega),
                      Bytes.take_append_drop_take (Nat.sub_le _ _), List.take_append_drop]
  · cases h

/-- A payload is read as a frame exactly if it is what that frame lays out. -/
theorem parse_eq_ok_iff {payload : Bytes} {frame : SealedFrame} :
    parse payload = .ok frame ↔ frame.WellFormed ∧ frame.toBytes = payload := by
  constructor
  · exact wellFormed_of_parse
  · intro h
    obtain ⟨hwell, rfl⟩ := h
    exact parse_toBytes hwell

end SealedFrame

/-! ## What a sender lays out -/

/-- A sealed frame that gives a payload back to whoever has the key that it
names. -/
structure SealedFrame.Carries (sealed : SealedFrame) (payload : Bytes) (algorithm : Algorithm)
    (slot : UInt8) (key : FrameKey) : Prop where
  wellFormed : sealed.WellFormed
  algorithm_eq : sealed.trailer.algorithm = algorithm
  keyIndex_eq : sealed.trailer.keyIndex = slot
  opens : ∃ body, algorithm.decrypt key sealed.iv sealed.aad sealed.ciphertext = .ok body ∧
    sealed.header ++ body = payload

namespace SealedFrame

variable {frame : Frame} {algorithm : Algorithm} {slot : UInt8} {key : KeyMaterial}
  {iv : Bytes} {sealed : SealedFrame}

theorem ofFrame_eq_ok_iff :
    ofFrame frame algorithm slot key iv = .ok sealed ↔
      ∃ ciphertext,
        sealed = ⟨frame.payload.take frame.headerLength, ciphertext, iv,
          ⟨UInt8.ofNat frame.headerLength, algorithm, UInt8.ofNat iv.length, slot⟩⟩ ∧
        algorithm.encrypt key.frameKey iv sealed.aad (frame.payload.drop frame.headerLength) =
          .ok ciphertext := by
  simp only [ofFrame]
  constructor
  · intro h
    split at h
    · next ciphertext hciphertext =>
        injection h with h
        subst h
        exact ⟨ciphertext, rfl, hciphertext⟩
    · cases h
  · intro h
    obtain ⟨ciphertext, rfl, hciphertext⟩ := h
    simp only [aad] at hciphertext
    simp only [hciphertext]

/-- Both lengths in a sender's trailer fit into their bytes. -/
theorem carries_of_ofFrame (hpayload : frame.payload ≠ [])
    (h : ofFrame frame algorithm slot key iv = .ok sealed) :
    sealed.Carries frame.payload algorithm slot key.frameKey := by
  obtain ⟨ciphertext, rfl, hciphertext⟩ := ofFrame_eq_ok_iff.mp h
  have hiv := Algorithm.iv_length_of_encrypt hciphertext
  have hfits : (UInt8.ofNat iv.length).toNat = iv.length := by
    rw [UInt8.toNat_ofNat', hiv]
    cases algorithm <;> rfl
  have hheader : (UInt8.ofNat frame.headerLength).toNat = frame.headerLength := by
    have hten := frame.headerLength_le_ten
    rw [UInt8.toNat_ofNat']
    omega
  have hlength : (frame.payload.take frame.headerLength).length = frame.headerLength := by
    have hlt := Frame.headerLength_lt hpayload
    rw [List.length_take]
    omega
  exact
    { wellFormed :=
        { header_length := hlength.trans hheader.symm
          iv_length := hfits.symm
          iv_fits := hfits.trans hiv }
      algorithm_eq := rfl
      keyIndex_eq := rfl
      opens := ⟨_, Algorithm.decrypt_encrypt hciphertext, List.take_append_drop _ _⟩ }

/-- A sender with a vector of the right length is never let down by its
cipher. -/
theorem exists_ofFrame_eq_ok (hpayload : frame.payload.length ≤ Gcm.maxLength)
    (hiv : iv.length = algorithm.ivLength) :
    ∃ sealed, ofFrame frame algorithm slot key iv = .ok sealed := by
  have hbody : (frame.payload.drop frame.headerLength).length ≤ Gcm.maxLength := by
    rw [List.length_drop]
    omega
  have haad : (frame.payload.take frame.headerLength ++ Trailer.toBytes
      ⟨UInt8.ofNat frame.headerLength, algorithm, UInt8.ofNat iv.length, slot⟩).length ≤
        Gcm.maxLength := by
    have hten := frame.headerLength_le_ten
    rw [List.length_append, List.length_take, Trailer.length_toBytes, Trailer.size, Gcm.maxLength]
    omega
  obtain ⟨ciphertext, hciphertext⟩ := Algorithm.exists_encrypt_eq_ok hiv hbody haad
  exact ⟨_, ofFrame_eq_ok_iff.mpr ⟨ciphertext, rfl, hciphertext⟩⟩

end SealedFrame

/-- With a key for it, a payload that is not left alone is sealed. -/
theorem Frame.exists_encryptWith_eq_ok {frame : Frame} {store : KeyStore}
    {participant : Participant} {algorithm : Algorithm} {index : Int} {slot : UInt8}
    {key : KeyMaterial} {iv : Bytes} (hclear : store.options.leavesClear frame.payload = false)
    (hkey : store.sealingKey participant index = .ok (slot, key))
    (hlength : frame.payload.length ≤ Gcm.maxLength) (hiv : iv.length = algorithm.ivLength) :
    ∃ sealed, SealedFrame.ofFrame frame algorithm slot key iv = .ok sealed ∧
      frame.encryptWith store participant algorithm index iv = .ok sealed.toBytes := by
  obtain ⟨sealed, hsealed⟩ := SealedFrame.exists_ofFrame_eq_ok hlength hiv
  exact ⟨sealed, hsealed,
    (encryptWith_eq_ok_iff hclear).mpr ⟨slot, key, hkey, sealed, hsealed, rfl⟩⟩

end MediaSeal
