import MediaSeal.Proofs.ForwardSearch
import MediaSeal.Proofs.FrameLayout

/-!
# What a tag of the chaining mode vouches for

The tag is worked out over header, trailer, vector and blocks, one behind the
other, with nothing between them. All of a frame is there. What is not there is
where one part ends and the next begins: the trailer gives the length of the
header, but it stands behind the header, so only somebody who knows the length
can find it.

Two frames that agree in these bytes and in the tag are the same frame if their
headers are of the same length. And the lengths cannot differ by just anything:
behind the header come four bytes and then whole blocks, so they differ by
whole blocks. Headers of less than sixteen bytes leave no room for that, and
senders write no others.

A receiver takes longer ones. Where the vector or the ciphertext of a frame
happen to spell a trailer, at the place that the trailer itself names and whole
blocks away from the real one, the same bytes can be cut there as well. The
frame that comes of it has the same tag, and since every chained block is
opened with nothing but the block before it, it opens: what the longer header
covers is replaced by other bytes, and the rest of the payload is the old one.
-/

namespace MediaSeal

/-! ## Opening from a later block on -/

theorem Aes.Block.listOfBytes_append {front rest : Bytes} (hfront : front.length % 16 = 0)
    (hrest : rest.length % 16 = 0) :
    listOfBytes (front ++ rest) = listOfBytes front ++ listOfBytes rest := by
  have hbytes : front ++ rest = listToBytes (listOfBytes front ++ listOfBytes rest) := by
    rw [listToBytes, List.flatMap_append, ← listToBytes, ← listToBytes,
      listToBytes_listOfBytes hfront, listToBytes_listOfBytes hrest]
  rw [hbytes, listOfBytes_listToBytes]

theorem Aes.Block.listOfBytes_single {bytes : Bytes} (h : bytes.length = 16) :
    listOfBytes bytes = [ofBytes bytes] := by
  rw [listOfBytes, h]
  rfl

theorem Padding.strip?_append {front rest message : Bytes} (hrest : 16 ≤ rest.length)
    (h : strip? (front ++ rest) = some message) :
    strip? rest = some (message.drop front.length) := by
  have hne : rest ≠ [] := by
    rintro rfl
    simp at hrest
  have hlast : (front ++ rest).getLast? = rest.getLast? := by
    rw [List.getLast?_append, List.getLast?_eq_some_getLast hne, Option.some_or]
  simp only [strip?, hlast] at h ⊢
  split at h
  · next hpadding =>
      obtain ⟨hone, hsixteen, hsame⟩ := hpadding
      injection h with h
      subst h
      have hstart : (front ++ rest).length - (rest.getLast?.getD 0).toNat =
          front.length + (rest.length - (rest.getLast?.getD 0).toNat) := by
        rw [List.length_append]
        omega
      rw [hstart, List.drop_length_add_append] at hsame
      rw [if_pos ⟨hone, hsixteen, hsame⟩, hstart, List.take_length_add_append, List.drop_left]
  · cases h

namespace Cbc

theorem length_unchain (schedule : Aes.Schedule) (previous : Aes.Block)
    (blocks : List Aes.Block) : (unchain schedule previous blocks).length = blocks.length := by
  induction blocks generalizing previous with
  | nil => rfl
  | cons block rest ih => rw [unchain, List.length_cons, ih, List.length_cons]

theorem unchain_append (schedule : Aes.Schedule) (previous block : Aes.Block)
    (front rest : List Aes.Block) :
    unchain schedule previous (front ++ block :: rest) =
      unchain schedule previous (front ++ [block]) ++ unchain schedule block rest := by
  induction front generalizing previous with
  | nil => rfl
  | cons first others ih =>
      rw [List.cons_append, List.cons_append, unchain, unchain, List.cons_append, ih]

variable {key : FrameKey} {iv aad otherAad front block rest received plaintext : Bytes}

/-- With one of its blocks taken for the vector, a ciphertext opens from there
on, if the tag is still over the same bytes. -/
theorem decrypt_from_block (hfront : front.length % 16 = 0) (hblock : block.length = 16)
    (hrest : rest.length ≠ 0 ∧ rest.length % 16 = 0) (hreceived : received.length = tagLength)
    (hsame : authenticated block otherAad rest = authenticated iv aad (front ++ block ++ rest))
    (h : decrypt key iv aad (front ++ block ++ rest ++ received) = .ok plaintext) :
    decrypt key block otherAad (rest ++ received) =
      .ok (plaintext.drop (front.length + 16)) := by
  obtain ⟨-, body, hbody, -, hplain⟩ := decrypt_eq_ok_iff.mp h
  have htagLength : received.length = (tag key iv aad body).length :=
    hreceived.trans (length_tag key iv aad body).symm
  obtain ⟨rfl, htag⟩ := List.append_inj' hbody htagLength
  -- The tag holds for the shorter ciphertext because it is over the same bytes;
  -- its blocks open as before because each needs only the one in front of it.
  have hretagged : received = tag key block otherAad rest := by
    rw [htag, tag, tag, hsame]
  have hblocks : Aes.Block.listOfBytes (front ++ block ++ rest) =
      Aes.Block.listOfBytes front ++ Aes.Block.ofBytes block :: Aes.Block.listOfBytes rest := by
    rw [Aes.Block.listOfBytes_append (by rw [List.length_append]; omega) hrest.2,
      Aes.Block.listOfBytes_append hfront (by omega), Aes.Block.listOfBytes_single hblock,
      List.append_assoc, List.singleton_append]
  rw [hblocks, unchain_append, Aes.Block.listToBytes, List.flatMap_append,
    ← Aes.Block.listToBytes, ← Aes.Block.listToBytes] at hplain
  have hlength := Aes.Block.length_listOfBytes rest
  have hstrip := Padding.strip?_append
    (by rw [Aes.Block.length_listToBytes, length_unchain]; omega) hplain
  rw [Aes.Block.length_listToBytes, length_unchain, List.length_append,
    Aes.Block.length_listOfBytes, List.length_singleton] at hstrip
  have hdropped : 16 * ((front.length + 15) / 16 + 1) = front.length + 16 := by omega
  rw [hdropped] at hstrip
  exact decrypt_eq_ok_iff.mpr ⟨hblock, rest, by rw [← hretagged], hrest, hstrip⟩

end Cbc

/-! ## The bytes under a tag -/

namespace SealedFrame

/-- The ciphertext without the tag. -/
def chained (frame : SealedFrame) : Bytes :=
  frame.ciphertext.take (frame.ciphertext.length - Cbc.tagLength)

/-- The tag at the end of the ciphertext. -/
def tag (frame : SealedFrame) : Bytes :=
  frame.ciphertext.drop (frame.ciphertext.length - Cbc.tagLength)

/-- The bytes that the tag is worked out over. -/
def vouched (frame : SealedFrame) : Bytes :=
  Cbc.authenticated frame.iv frame.aad frame.chained

/-- A frame of the chaining mode with one or more blocks and a tag. -/
structure InChainingMode (frame : SealedFrame) : Prop where
  algorithm_eq : frame.trailer.algorithm = .aesCbc
  blocks : ∃ count, 0 < count ∧ frame.ciphertext.length = 16 * count + Cbc.tagLength

/-- Another frame of the mode with the same tag over the same bytes. -/
structure SharesTag (frame other : SealedFrame) : Prop where
  mode : other.InChainingMode
  vouched_eq : other.vouched = frame.vouched
  tag_eq : other.tag = frame.tag

variable {frame other : SealedFrame}

theorem chained_append_tag (frame : SealedFrame) :
    frame.chained ++ frame.tag = frame.ciphertext :=
  List.take_append_drop _ _

theorem vouched_eq_append (frame : SealedFrame) :
    frame.vouched = frame.header ++ (frame.trailer.toBytes ++ (frame.iv ++ frame.chained)) := by
  simp only [vouched, Cbc.authenticated, aad, List.append_assoc]

theorem InChainingMode.length_tag (h : frame.InChainingMode) :
    frame.tag.length = Cbc.tagLength := by
  obtain ⟨count, -, hlength⟩ := h.blocks
  rw [tag, List.length_drop]
  omega

theorem InChainingMode.length_chained (h : frame.InChainingMode) :
    frame.chained.length ≠ 0 ∧ frame.chained.length % 16 = 0 := by
  obtain ⟨count, hcount, hlength⟩ := h.blocks
  rw [chained, List.length_take]
  omega

theorem InChainingMode.length_iv (h : frame.InChainingMode) (hwell : frame.WellFormed) :
    frame.iv.length = 16 := by
  rw [hwell.iv_length, hwell.iv_fits, h.algorithm_eq]
  rfl

theorem InChainingMode.length_vouched (h : frame.InChainingMode) (hwell : frame.WellFormed) :
    frame.vouched.length = frame.header.length + 20 + frame.chained.length := by
  have hiv := h.length_iv hwell
  rw [vouched_eq_append]
  simp only [List.length_append, Trailer.length_toBytes, Trailer.size]
  omega

theorem InChainingMode.trailer_eq (h : frame.InChainingMode) (hwell : frame.WellFormed) :
    frame.trailer =
      ⟨UInt8.ofNat frame.header.length, .aesCbc, 16, frame.trailer.keyIndex⟩ := by
  have hiv : frame.trailer.ivLength = 16 := by
    refine UInt8.toNat_inj.mp ?_
    rw [hwell.iv_fits, h.algorithm_eq]
    rfl
  have halgorithm := h.algorithm_eq
  rw [hwell.header_length, UInt8.ofNat_toNat, ← hiv, ← halgorithm]

/-! ## Where the same bytes can be cut -/

theorem header_mod_eq (hframe : frame.InChainingMode) (hwell : frame.WellFormed)
    (hother : frame.SharesTag other) (hotherWell : other.WellFormed) :
    other.header.length % 16 = frame.header.length % 16 := by
  have hlength := hframe.length_vouched hwell
  have hotherLength := hother.mode.length_vouched hotherWell
  rw [hother.vouched_eq] at hotherLength
  have := hframe.length_chained
  have := hother.mode.length_chained
  omega

theorem toBytes_eq_iff_length_header_eq (hframe : frame.InChainingMode)
    (hwell : frame.WellFormed) (hother : frame.SharesTag other) (hotherWell : other.WellFormed) :
    other.toBytes = frame.toBytes ↔ other.header.length = frame.header.length := by
  constructor
  · intro hwire
    have hread := parse_toBytes hotherWell
    rw [hwire, parse_toBytes hwell] at hread
    rw [Except.ok.inj hread]
  · intro hlength
    have hvouched := hother.vouched_eq
    rw [vouched_eq_append, vouched_eq_append] at hvouched
    obtain ⟨hheader, hrest⟩ := List.append_inj hvouched hlength
    obtain ⟨htrailer, hbody⟩ := List.append_inj hrest rfl
    have hiv : other.iv.length = frame.iv.length :=
      (hother.mode.length_iv hotherWell).trans (hframe.length_iv hwell).symm
    obtain ⟨hvector, hchained⟩ := List.append_inj hbody hiv
    rw [toBytes, toBytes, ← chained_append_tag, ← chained_append_tag, hheader, htrailer, hvector,
      hchained, hother.tag_eq]

/-- The bytes under the tag spell a trailer, away from the real one, that would
end a header of the length it gives and be followed by whole blocks. -/
structure SpellsTrailerAt (frame : SealedFrame) (place : Nat) (index : UInt8) : Prop where
  elsewhere : place ≠ frame.header.length
  whole_blocks : place % 16 = frame.header.length % 16
  fits : place < 256
  room : place + 36 ≤ frame.vouched.length
  spelled : (frame.vouched.drop place).take Trailer.size =
    Trailer.toBytes ⟨UInt8.ofNat place, .aesCbc, 16, index⟩

/-- The frame that comes of cutting the bytes at another trailer. -/
def readAt (frame : SealedFrame) (place : Nat) (index : UInt8) : SealedFrame where
  header := frame.vouched.take place
  ciphertext := frame.vouched.drop (place + 20) ++ frame.tag
  iv := (frame.vouched.drop (place + 4)).take 16
  trailer := ⟨UInt8.ofNat place, .aesCbc, 16, index⟩

theorem chained_readAt (hframe : frame.InChainingMode) (place : Nat) (index : UInt8) :
    (frame.readAt place index).chained = frame.vouched.drop (place + 20) ∧
      (frame.readAt place index).tag = frame.tag :=
  Bytes.split_tag (frame.vouched.drop (place + 20)) hframe.length_tag

theorem SharesTag.spellsTrailerAt (hother : frame.SharesTag other) (hotherWell : other.WellFormed)
    (hframe : frame.InChainingMode) (hwell : frame.WellFormed)
    (hne : other.header.length ≠ frame.header.length) :
    frame.SpellsTrailerAt other.header.length other.trailer.keyIndex where
  elsewhere := hne
  whole_blocks := header_mod_eq hframe hwell hother hotherWell
  fits := by
    rw [hotherWell.header_length]
    exact other.trailer.headerLength.toNat_lt
  room := by
    have := hother.mode.length_vouched hotherWell
    have := hother.mode.length_chained
    rw [← hother.vouched_eq]
    omega
  spelled := by
    rw [← hother.vouched_eq, vouched_eq_append, List.drop_left, ← hother.mode.trailer_eq hotherWell]
    exact List.take_left' (Trailer.length_toBytes _)

namespace SpellsTrailerAt

variable {place : Nat} {index : UInt8}

theorem wellFormed_readAt (h : frame.SpellsTrailerAt place index) :
    (frame.readAt place index).WellFormed where
  header_length := by
    have hroom := h.room
    have hfits := h.fits
    simp only [readAt, List.length_take, UInt8.toNat_ofNat']
    omega
  iv_length := by
    have hroom := h.room
    simp only [readAt, List.length_take, List.length_drop]
    show _ = 16
    omega
  iv_fits := rfl

theorem inChainingMode_readAt (h : frame.SpellsTrailerAt place index)
    (hframe : frame.InChainingMode) (hwell : frame.WellFormed) :
    (frame.readAt place index).InChainingMode where
  algorithm_eq := rfl
  blocks := by
    have hroom := h.room
    have hwhole := h.whole_blocks
    have hlength := hframe.length_vouched hwell
    have haligned := hframe.length_chained
    refine ⟨(frame.vouched.length - (place + 20)) / 16, by omega, ?_⟩
    simp only [readAt, List.length_append, List.length_drop, hframe.length_tag]
    omega

theorem vouched_readAt (h : frame.SpellsTrailerAt place index) (hframe : frame.InChainingMode) :
    (frame.readAt place index).vouched = frame.vouched := by
  rw [vouched_eq_append, (chained_readAt hframe place index).1]
  have hvector : (frame.vouched.drop (place + 4)).take 16 ++ frame.vouched.drop (place + 20) =
      frame.vouched.drop (place + 4) := by
    have hsplit := List.take_append_drop 16 (frame.vouched.drop (place + 4))
    rwa [List.drop_drop] at hsplit
  have htrailer : Trailer.toBytes ⟨UInt8.ofNat place, .aesCbc, 16, index⟩ ++
      frame.vouched.drop (place + 4) = frame.vouched.drop place := by
    have hsplit := List.take_append_drop Trailer.size (frame.vouched.drop place)
    rwa [h.spelled, List.drop_drop] at hsplit
  simp only [readAt]
  rw [hvector, htrailer, List.take_append_drop]

theorem sharesTag_readAt (h : frame.SpellsTrailerAt place index)
    (hframe : frame.InChainingMode) (hwell : frame.WellFormed) :
    frame.SharesTag (frame.readAt place index) where
  mode := h.inChainingMode_readAt hframe hwell
  vouched_eq := h.vouched_readAt hframe
  tag_eq := (chained_readAt hframe place index).2

theorem length_header_readAt (h : frame.SpellsTrailerAt place index) :
    (frame.readAt place index).header.length = place := by
  have hroom := h.room
  rw [readAt, List.length_take]
  omega

end SpellsTrailerAt

theorem SharesTag.chained_eq (hother : frame.SharesTag other) (hotherWell : other.WellFormed)
    (hframe : frame.InChainingMode) (hwell : frame.WellFormed)
    (hlonger : frame.header.length < other.header.length) :
    ∃ front : Bytes, front.length % 16 = 0 ∧
      other.header.length = frame.header.length + (front.length + 16) ∧
      frame.chained = front ++ other.iv ++ other.chained := by
  have hmod := header_mod_eq hframe hwell hother hotherWell
  obtain ⟨ahead, hahead⟩ : ∃ ahead,
      other.header.length = frame.header.length + (16 * ahead + 16) :=
    ⟨(other.header.length - frame.header.length) / 16 - 1, by omega⟩
  have hlength := hframe.length_vouched hwell
  have hotherLength := hother.mode.length_vouched hotherWell
  rw [hother.vouched_eq] at hotherLength
  have hskip : ∀ (front rest : Bytes) (more : Nat),
      (front ++ rest).drop (front.length + more) = rest.drop more :=
    fun _ _ more => List.drop_length_add_append more
  -- Both sides are what is left of the same bytes behind the later trailer.
  have hrest : other.iv ++ other.chained = frame.chained.drop (16 * ahead) := calc
    other.iv ++ other.chained
      = (other.trailer.toBytes ++ (other.iv ++ other.chained)).drop 4 := rfl
    _ = other.vouched.drop (other.header.length + 4) := by rw [vouched_eq_append, hskip]
    _ = frame.vouched.drop (frame.header.length + (4 + (16 + 16 * ahead))) := by
      rw [hother.vouched_eq, hahead]
      congr 1
      omega
    _ = (frame.iv ++ frame.chained).drop (16 + 16 * ahead) := by
      rw [vouched_eq_append, hskip]
      exact hskip frame.trailer.toBytes _ _
    _ = frame.chained.drop (16 * ahead) := by
      have hvector := hskip frame.iv frame.chained (16 * ahead)
      rwa [hframe.length_iv hwell] at hvector
  have hfront : (frame.chained.take (16 * ahead)).length = 16 * ahead := by
    rw [List.length_take]
    omega
  refine ⟨frame.chained.take (16 * ahead), by omega, by omega, ?_⟩
  rw [List.append_assoc, hrest, List.take_append_drop]

/-- Whoever opens a frame opens the same bytes with a longer header as well. -/
theorem openWith?_of_longer_header (hframe : frame.InChainingMode) (hwell : frame.WellFormed)
    (hother : frame.SharesTag other) (hotherWell : other.WellFormed)
    (hlonger : frame.header.length < other.header.length) {key : KeyMaterial} {payload : Bytes}
    (hopens : frame.openWith? key = some payload) :
    other.openWith? key = some (other.header ++ payload.drop other.header.length) := by
  obtain ⟨body, hbody, rfl⟩ := openWith?_eq_some_iff.mp hopens
  obtain ⟨front, hfront, hlength, hchained⟩ := hother.chained_eq hotherWell hframe hwell hlonger
  have hsame : Cbc.authenticated other.iv other.aad other.chained =
      Cbc.authenticated frame.iv frame.aad (front ++ other.iv ++ other.chained) := by
    rw [← hchained]
    exact hother.vouched_eq
  rw [hframe.algorithm_eq, ← chained_append_tag, hchained] at hbody
  have hfrom := Cbc.decrypt_from_block hfront (hother.mode.length_iv hotherWell)
    hother.mode.length_chained hframe.length_tag hsame hbody
  rw [← hother.tag_eq, chained_append_tag] at hfrom
  refine openWith?_eq_some_iff.mpr ⟨_, ?_, rfl⟩
  rw [hother.mode.algorithm_eq, hlength, List.drop_length_add_append]
  exact hfrom

theorem inChainingMode_of_ofFrame {clear : Frame} {slot : UInt8} {key : KeyMaterial}
    {iv : Bytes} (h : ofFrame clear .aesCbc slot key iv = .ok frame) : frame.InChainingMode := by
  obtain ⟨ciphertext, rfl, hciphertext⟩ := ofFrame_eq_ok_iff.mp h
  exact ⟨rfl, _, Nat.succ_pos _, Algorithm.length_of_encrypt hciphertext⟩

end SealedFrame

/-! ## One tag, one frame -/

/-- Of the frames that share this one's tag, those with a header of the same
length are this frame; so are all with headers shorter than a block, if its own
is. One with a longer header opens wherever this one opens, to what is left of
the payload. And there is another frame at all exactly if the bytes under the
tag spell a trailer at another place. -/
theorem tag_vouches_given_header_length {wire : Bytes} {frame : SealedFrame}
    (hparse : SealedFrame.parse wire = .ok frame) (hframe : frame.InChainingMode) :
    (∀ (otherWire : Bytes) (other : SealedFrame),
      SealedFrame.parse otherWire = .ok other → frame.SharesTag other →
      (otherWire = wire ↔ other.header.length = frame.header.length) ∧
      (frame.header.length < 16 → other.header.length < 16 → otherWire = wire) ∧
      ∀ (key : KeyMaterial) (payload : Bytes), frame.openWith? key = some payload →
        frame.header.length < other.header.length →
        other.openWith? key = some (other.header ++ payload.drop other.header.length)) ∧
    ((∃ (otherWire : Bytes) (other : SealedFrame),
        SealedFrame.parse otherWire = .ok other ∧ frame.SharesTag other ∧ otherWire ≠ wire) ↔
      ∃ place index, frame.SpellsTrailerAt place index) := by
  obtain ⟨hwell, rfl⟩ := SealedFrame.parse_eq_ok_iff.mp hparse
  refine ⟨?_, ?_, ?_⟩
  · intro otherWire other hotherParse hother
    obtain ⟨hotherWell, rfl⟩ := SealedFrame.parse_eq_ok_iff.mp hotherParse
    have hsame := SealedFrame.toBytes_eq_iff_length_header_eq hframe hwell hother hotherWell
    refine ⟨hsame, fun hshort hotherShort => ?_, fun key payload hopens hlonger => ?_⟩
    · have hmod := SealedFrame.header_mod_eq hframe hwell hother hotherWell
      exact hsame.mpr (by omega)
    · exact SealedFrame.openWith?_of_longer_header hframe hwell hother hotherWell hlonger hopens
  · intro h
    obtain ⟨otherWire, other, hotherParse, hother, hne⟩ := h
    obtain ⟨hotherWell, rfl⟩ := SealedFrame.parse_eq_ok_iff.mp hotherParse
    have hsame := SealedFrame.toBytes_eq_iff_length_header_eq hframe hwell hother hotherWell
    exact ⟨_, _, hother.spellsTrailerAt hotherWell hframe hwell fun hlength =>
      hne (hsame.mpr hlength)⟩
  · intro h
    obtain ⟨place, index, hspells⟩ := h
    have hotherWell := hspells.wellFormed_readAt
    have hother := hspells.sharesTag_readAt hframe hwell
    refine ⟨_, frame.readAt place index, SealedFrame.parse_toBytes hotherWell, hother,
      fun hwire => hspells.elsewhere ?_⟩
    rw [← hspells.length_header_readAt]
    exact (SealedFrame.toBytes_eq_iff_length_header_eq hframe hwell hother hotherWell).mp hwire

/-- A vector whose last four bytes are the trailer of a frame with a header of
seventeen bytes. -/
def trailerSpellingIv : Bytes := Bytes.zeros 12 ++ [17, 2, 16, 0]

/-- A frame with that vector, two blocks, and a header of one byte. -/
def doublyReadable : SealedFrame :=
  ⟨[9], List.replicate 48 5, trailerSpellingIv, ⟨1, .aesCbc, 16, 0⟩⟩

theorem tag_vouches_for_doublyReadable :
    SealedFrame.parse doublyReadable.toBytes = .ok doublyReadable ∧
      doublyReadable.InChainingMode ∧
      ∃ (otherWire : Bytes) (other : SealedFrame),
        SealedFrame.parse otherWire = .ok other ∧ doublyReadable.SharesTag other ∧
          otherWire ≠ doublyReadable.toBytes := by
  have hparse : SealedFrame.parse doublyReadable.toBytes = .ok doublyReadable := by decide
  have hmode : doublyReadable.InChainingMode := ⟨rfl, 2, by decide, rfl⟩
  refine ⟨hparse, hmode, (tag_vouches_given_header_length hparse hmode).2.mpr ⟨17, 0, ?_⟩⟩
  exact ⟨by decide, by decide, by decide, by decide, by decide⟩

/-- What a sender sealed with that vector is found twice in the bytes under its
tag, and the frame that the sender did not seal opens under its key. -/
theorem tag_vouches_for_unsealed_frame :
    ∃ sealed other, SealedFrame.ofFrame ⟨.audio, false, List.replicate 18 7⟩ .aesCbc 0
        (.supplied [1] []) trailerSpellingIv = .ok sealed ∧
      SealedFrame.parse sealed.toBytes = .ok sealed ∧ sealed.InChainingMode ∧
      SealedFrame.parse other.toBytes = .ok other ∧ sealed.SharesTag other ∧
      other.toBytes ≠ sealed.toBytes ∧
      ∃ payload, other.openWith? (.supplied [1] []) = some payload := by
  obtain ⟨sealed, hsealed⟩ : ∃ sealed, SealedFrame.ofFrame
      ⟨.audio, false, List.replicate 18 7⟩ .aesCbc 0 (.supplied [1] []) trailerSpellingIv = _ :=
    SealedFrame.exists_ofFrame_eq_ok (by decide) rfl
  have hcarries := SealedFrame.carries_of_ofFrame (by decide) hsealed
  have hwell := hcarries.wellFormed
  have hmode := SealedFrame.inChainingMode_of_ofFrame hsealed
  obtain ⟨body, hbody, -⟩ := hcarries.opens
  have hopens : sealed.openWith? (.supplied [1] []) = some (sealed.header ++ body) :=
    SealedFrame.openWith?_eq_some_iff.mpr ⟨body, hcarries.algorithm_eq ▸ hbody, rfl⟩
  obtain ⟨ciphertext, hshape, hciphertext⟩ := SealedFrame.ofFrame_eq_ok_iff.mp hsealed
  have hshort : sealed.header.length = 1 := by
    rw [hshape]
    rfl
  have hroom : sealed.vouched.length = 53 := by
    have hcipher : sealed.ciphertext.length = 48 := by
      rw [hshape]
      exact Algorithm.length_of_encrypt hciphertext
    rw [hmode.length_vouched hwell, SealedFrame.chained, List.length_take, hcipher, hshort]
    rfl
  have hspells : sealed.SpellsTrailerAt 17 0 :=
    { elsewhere := by omega
      whole_blocks := by omega
      fits := by decide
      room := by omega
      spelled := by
        rw [hshape]
        rfl }
  have hother := hspells.sharesTag_readAt hmode hwell
  have hotherWell := hspells.wellFormed_readAt
  have hlong := hspells.length_header_readAt
  have hne : (sealed.readAt 17 0).toBytes ≠ sealed.toBytes := by
    rw [ne_eq, SealedFrame.toBytes_eq_iff_length_header_eq hmode hwell hother hotherWell]
    omega
  exact ⟨sealed, sealed.readAt 17 0, hsealed, SealedFrame.parse_toBytes hwell, hmode,
    SealedFrame.parse_toBytes hotherWell, hother, hne, _,
    SealedFrame.openWith?_of_longer_header hmode hwell hother hotherWell (by omega) hopens⟩

end MediaSeal
