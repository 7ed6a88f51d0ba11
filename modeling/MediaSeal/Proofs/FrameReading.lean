import Mathlib.Data.List.Basic
import MediaSeal.Proofs.FrameLayout

/-!
# What can be read as a sealed frame

Reading and laying out are inverse to each other, and what is behind this is
that the last four bytes leave nothing open. They say which cipher a frame is
of and how long its header and its vector are, so the bytes before them fall
into three parts in one way only, and the ciphertext, whose length is not
given, is what remains.

Bytes that cannot be read fail one of four checks, and the first that fails is
the one that is reported. Each of them needs what the one before it has
established: there are four last bytes, then there is a cipher, then the vector
has its length, and only then it is asked whether header and vector fit. They
may fill the frame up to its last four bytes; the ciphertext is then empty.
-/

namespace MediaSeal

namespace Algorithm

theorem tag_eq_iff {algorithm : Algorithm} {tag : UInt8} :
    algorithm.tag = tag ↔ ofTag? tag = some algorithm := by
  constructor
  · rintro rfl
    exact ofTag?_tag algorithm
  · exact tag_of_ofTag?

theorem ofTag?_eq_none_iff {tag : UInt8} : ofTag? tag = none ↔ tag ≠ 1 ∧ tag ≠ 2 := by
  unfold ofTag?
  by_cases hone : tag = 1
  · rw [if_pos hone]
    simp only [reduceCtorEq, hone, ne_eq, not_true_eq_false, false_and]
  · rw [if_neg hone]
    by_cases htwo : tag = 2
    · rw [if_pos htwo]
      simp only [reduceCtorEq, htwo, ne_eq, not_true_eq_false, and_false]
    · rw [if_neg htwo]
      simp only [hone, htwo, ne_eq, not_false_eq_true, and_self]

end Algorithm

namespace SealedFrame

/-! ## The last four bytes -/

theorem parse_of_short {bytes : Bytes} (h : bytes.length < Trailer.size) :
    parse bytes = .error (.tooShort bytes.length Trailer.size) := by
  simp only [parse]
  split
  · next hlast =>
      have hfour := congrArg List.length hlast
      simp only [List.length_drop, List.length_cons, List.length_nil, Trailer.size] at hfour h
      omega
  · rfl

theorem exists_append_trailer {bytes : Bytes} (h : Trailer.size ≤ bytes.length) :
    ∃ (front : Bytes) (headerLength tag ivLength keyIndex : UInt8),
      bytes = front ++ [headerLength, tag, ivLength, keyIndex] := by
  have hsplit := List.take_append_drop (bytes.length - Trailer.size) bytes
  have hfour : (bytes.drop (bytes.length - Trailer.size)).length = 4 := by
    rw [List.length_drop]
    simp only [Trailer.size] at h ⊢
    omega
  generalize bytes.drop (bytes.length - Trailer.size) = last at hsplit hfour
  obtain ⟨headerLength, rest, rfl⟩ := List.exists_cons_of_length_eq_add_one hfour
  obtain ⟨tag, rest, rfl⟩ := List.exists_cons_of_length_eq_add_one (Nat.succ.inj hfour)
  obtain ⟨ivLength, keyIndex, rfl⟩ := List.length_eq_two.mp (Nat.succ.inj (Nat.succ.inj hfour))
  exact ⟨_, _, _, _, _, hsplit.symm⟩

section LastFour

variable {front : Bytes} {headerLength tag ivLength keyIndex : UInt8} {algorithm : Algorithm}

theorem drop_append_trailer :
    (front ++ [headerLength, tag, ivLength, keyIndex]).drop
      ((front ++ [headerLength, tag, ivLength, keyIndex]).length - Trailer.size) =
        [headerLength, tag, ivLength, keyIndex] :=
  (Bytes.split_tag front rfl).2

theorem parse_of_unknown (h : Algorithm.ofTag? tag = none) :
    parse (front ++ [headerLength, tag, ivLength, keyIndex]) = .error (.unknownAlgorithm tag) := by
  simp only [parse, drop_append_trailer, h]

theorem parse_of_ivLength_ne (h : Algorithm.ofTag? tag = some algorithm)
    (hiv : ivLength.toNat ≠ algorithm.ivLength) :
    parse (front ++ [headerLength, tag, ivLength, keyIndex]) =
      .error (.ivLength algorithm.ivLength ivLength.toNat) := by
  simp only [parse, drop_append_trailer, h, if_pos hiv]

theorem parse_of_truncated (h : Algorithm.ofTag? tag = some algorithm)
    (hiv : ivLength.toNat = algorithm.ivLength)
    (hroom : front.length < headerLength.toNat + ivLength.toNat) :
    parse (front ++ [headerLength, tag, ivLength, keyIndex]) =
      .error (.truncated (front.length + 4) headerLength.toNat ivLength.toNat) := by
  have hlength : (front ++ [headerLength, tag, ivLength, keyIndex]).length = front.length + 4 :=
    List.length_append
  have hshort : (front ++ [headerLength, tag, ivLength, keyIndex]).length - Trailer.size <
      headerLength.toNat + ivLength.toNat := by
    rw [hlength, Trailer.size]
    omega
  simp only [parse, drop_append_trailer, h, if_neg (Decidable.not_not.mpr hiv), if_pos hshort]
  rw [hlength]

theorem parse_of_room (h : Algorithm.ofTag? tag = some algorithm)
    (hiv : ivLength.toNat = algorithm.ivLength)
    (hroom : headerLength.toNat + ivLength.toNat ≤ front.length) :
    ∃ frame, parse (front ++ [headerLength, tag, ivLength, keyIndex]) = .ok frame := by
  have hfits : ¬ (front ++ [headerLength, tag, ivLength, keyIndex]).length - Trailer.size <
      headerLength.toNat + ivLength.toNat := by
    rw [List.length_append, Trailer.size]
    simp only [List.length_cons, List.length_nil]
    omega
  cases hparse : parse (front ++ [headerLength, tag, ivLength, keyIndex]) with
  | ok frame => exact ⟨frame, rfl⟩
  | error error =>
      simp only [parse, drop_append_trailer, h, if_neg (Decidable.not_not.mpr hiv),
        if_neg hfits] at hparse
      cases hparse

end LastFour

/-! ## Bytes that are a frame -/

/-- Bytes that are a header, a ciphertext and a vector, and four bytes that say
how long header and vector are and which cipher they are for. -/
structure LaidOut (header ciphertext iv : Bytes) (headerLength tag ivLength keyIndex : UInt8)
    (bytes : Bytes) : Prop where
  bytes_eq : bytes = header ++ ciphertext ++ iv ++ [headerLength, tag, ivLength, keyIndex]
  cipher : tag = 1 ∧ ivLength = 12 ∨ tag = 2 ∧ ivLength = 16
  iv_length : iv.length = ivLength.toNat
  header_length : header.length = headerLength.toNat

theorem WellFormed.laidOut {frame : SealedFrame} (h : frame.WellFormed) :
    LaidOut frame.header frame.ciphertext frame.iv frame.trailer.headerLength
      frame.trailer.algorithm.tag frame.trailer.ivLength frame.trailer.keyIndex
        frame.toBytes where
  bytes_eq := rfl
  cipher := by
    have hfits := h.iv_fits
    cases halgorithm : frame.trailer.algorithm with
    | aesGcm =>
        rw [halgorithm] at hfits
        exact .inl ⟨rfl, UInt8.toNat_inj.mp hfits⟩
    | aesCbc =>
        rw [halgorithm] at hfits
        exact .inr ⟨rfl, UInt8.toNat_inj.mp hfits⟩
  iv_length := h.iv_length
  header_length := h.header_length

namespace LaidOut

variable {header ciphertext iv bytes : Bytes} {headerLength tag ivLength keyIndex : UInt8}

theorem exists_algorithm
    (h : LaidOut header ciphertext iv headerLength tag ivLength keyIndex bytes) :
    ∃ algorithm : Algorithm, algorithm.tag = tag ∧ ivLength.toNat = algorithm.ivLength := by
  rcases h.cipher with ⟨rfl, rfl⟩ | ⟨rfl, rfl⟩
  · exact ⟨.aesGcm, rfl, rfl⟩
  · exact ⟨.aesCbc, rfl, rfl⟩

/-- What was laid out is read back as it was. -/
theorem parse_eq (h : LaidOut header ciphertext iv headerLength tag ivLength keyIndex bytes) :
    ∃ algorithm : Algorithm, algorithm.tag = tag ∧
      parse bytes =
        .ok ⟨header, ciphertext, iv, ⟨headerLength, algorithm, ivLength, keyIndex⟩⟩ := by
  obtain ⟨algorithm, rfl, hiv⟩ := h.exists_algorithm
  refine ⟨algorithm, rfl, parse_eq_ok_iff.mpr ⟨⟨h.header_length, h.iv_length, hiv⟩, ?_⟩⟩
  exact h.bytes_eq.symm

end LaidOut

theorem parse_eq_ok_iff_laidOut {bytes : Bytes} {frame : SealedFrame} :
    parse bytes = .ok frame ↔
      LaidOut frame.header frame.ciphertext frame.iv frame.trailer.headerLength
        frame.trailer.algorithm.tag frame.trailer.ivLength frame.trailer.keyIndex bytes := by
  constructor
  · intro h
    obtain ⟨hwell, rfl⟩ := parse_eq_ok_iff.mp h
    exact hwell.laidOut
  · intro h
    obtain ⟨algorithm, htag, hparse⟩ := h.parse_eq
    have hsame := Algorithm.tag_eq_iff.mp htag
    rw [Algorithm.ofTag?_tag] at hsame
    obtain rfl : frame.trailer.algorithm = algorithm := Option.some.inj hsame
    exact hparse

/-- What is authenticated, the vector and the ciphertext leave no part of a
frame open. -/
theorem eq_of_aad_eq {frame other : SealedFrame} (haad : other.aad = frame.aad)
    (hiv : other.iv = frame.iv) (hciphertext : other.ciphertext = frame.ciphertext) :
    other.toBytes = frame.toBytes := by
  obtain ⟨hheader, htrailer⟩ := List.append_inj' haad rfl
  rw [toBytes, toBytes, hheader, htrailer, hiv, hciphertext]

/-! ## Bytes that are not -/

/-- The first check that these bytes fail. -/
inductive Fails (bytes : Bytes) : MalformedFrame → Prop
  | tooShort (short : bytes.length < 4) : Fails bytes (.tooShort bytes.length 4)
  | unknownAlgorithm {front : Bytes} {headerLength tag ivLength keyIndex : UInt8}
      (bytes_eq : bytes = front ++ [headerLength, tag, ivLength, keyIndex])
      (unknown : tag ≠ 1 ∧ tag ≠ 2) : Fails bytes (.unknownAlgorithm tag)
  | ivLength {front : Bytes} {headerLength ivLength keyIndex : UInt8} {algorithm : Algorithm}
      (bytes_eq : bytes = front ++ [headerLength, algorithm.tag, ivLength, keyIndex])
      (differs : ivLength.toNat ≠ algorithm.ivLength) :
      Fails bytes (.ivLength algorithm.ivLength ivLength.toNat)
  | truncated {front : Bytes} {headerLength ivLength keyIndex : UInt8} {algorithm : Algorithm}
      (bytes_eq : bytes = front ++ [headerLength, algorithm.tag, ivLength, keyIndex])
      (fits : ivLength.toNat = algorithm.ivLength)
      (room : bytes.length - 4 < headerLength.toNat + ivLength.toNat) :
      Fails bytes (.truncated bytes.length headerLength.toNat ivLength.toNat)

theorem Fails.parse_eq {bytes : Bytes} {error : MalformedFrame} (h : Fails bytes error) :
    parse bytes = .error error := by
  cases h with
  | tooShort short => exact parse_of_short short
  | unknownAlgorithm bytes_eq unknown =>
      rw [bytes_eq]
      exact parse_of_unknown (Algorithm.ofTag?_eq_none_iff.mpr unknown)
  | ivLength bytes_eq differs =>
      rw [bytes_eq]
      exact parse_of_ivLength_ne (Algorithm.ofTag?_tag _) differs
  | truncated bytes_eq fits room =>
      subst bytes_eq
      rw [List.length_append] at room ⊢
      exact parse_of_truncated (Algorithm.ofTag?_tag _) fits room

/-- Bytes can be read, or there is a first check that they fail. -/
theorem exists_ok_or_fails (bytes : Bytes) :
    (∃ frame, parse bytes = .ok frame) ∨ ∃ error, Fails bytes error := by
  by_cases hshort : bytes.length < 4
  · exact .inr ⟨_, .tooShort hshort⟩
  obtain ⟨front, headerLength, tag, ivLength, keyIndex, rfl⟩ :=
    exists_append_trailer (Nat.not_lt.mp hshort)
  cases halgorithm : Algorithm.ofTag? tag with
  | none => exact .inr ⟨_, .unknownAlgorithm rfl (Algorithm.ofTag?_eq_none_iff.mp halgorithm)⟩
  | some algorithm =>
      obtain rfl := Algorithm.tag_of_ofTag? halgorithm
      by_cases hiv : ivLength.toNat = algorithm.ivLength
      · by_cases hroom : front.length < headerLength.toNat + ivLength.toNat
        · refine .inr ⟨_, .truncated rfl hiv ?_⟩
          rw [List.length_append]
          exact hroom
        · exact .inl (parse_of_room halgorithm hiv (Nat.not_lt.mp hroom))
      · exact .inr ⟨_, .ivLength rfl hiv⟩

theorem parse_eq_error_iff {bytes : Bytes} {error : MalformedFrame} :
    parse bytes = .error error ↔ Fails bytes error := by
  constructor
  · intro h
    rcases exists_ok_or_fails bytes with ⟨frame, hframe⟩ | ⟨found, hfails⟩
    · rw [hframe] at h
      cases h
    · obtain rfl : error = found := Except.error.inj (h.symm.trans hfails.parse_eq)
      exact hfails
  · exact Fails.parse_eq

/-- A frame is read from some bytes exactly if they are its parts one behind the
other, with a trailer that says how long they are and of which cipher. Whatever
is laid out like this is read back as it was, so there is one way to take bytes
apart; and what is authenticated, the vector and the ciphertext determine them.
If nothing can be read, it is the first failing check that is reported. -/
theorem parse_inverts_layout (bytes : Bytes) :
    (∀ frame : SealedFrame, parse bytes = .ok frame ↔
      LaidOut frame.header frame.ciphertext frame.iv frame.trailer.headerLength
        frame.trailer.algorithm.tag frame.trailer.ivLength frame.trailer.keyIndex bytes) ∧
    (∀ header ciphertext iv headerLength tag ivLength keyIndex,
      LaidOut header ciphertext iv headerLength tag ivLength keyIndex bytes →
        ∃ algorithm : Algorithm, algorithm.tag = tag ∧ parse bytes =
          .ok ⟨header, ciphertext, iv, ⟨headerLength, algorithm, ivLength, keyIndex⟩⟩) ∧
    (∀ frame : SealedFrame, parse bytes = .ok frame →
      frame.header ++ frame.ciphertext ++ frame.iv ++ frame.trailer.toBytes = bytes ∧
      ∀ other found, parse other = .ok found → found.aad = frame.aad → found.iv = frame.iv →
        found.ciphertext = frame.ciphertext → other = bytes) ∧
    (∀ error, parse bytes = .error error ↔ Fails bytes error) := by
  refine ⟨fun frame => parse_eq_ok_iff_laidOut, fun _ _ _ _ _ _ _ h => h.parse_eq, ?_,
    fun error => parse_eq_error_iff⟩
  intro frame h
  obtain ⟨-, rfl⟩ := parse_eq_ok_iff.mp h
  refine ⟨rfl, fun other found hother haad hiv hciphertext => ?_⟩
  obtain ⟨-, rfl⟩ := parse_eq_ok_iff.mp hother
  exact eq_of_aad_eq haad hiv hciphertext

/-- Header and vector may take all the room there is, and one byte more of
header is too many. -/
example : parse (List.replicate 15 0 ++ [3, 1, 12, 0]) =
      .ok ⟨[0, 0, 0], [], List.replicate 12 0, ⟨3, .aesGcm, 12, 0⟩⟩ ∧
    parse (List.replicate 15 0 ++ [4, 1, 12, 0]) = .error (.truncated 19 4 12) :=
  ⟨rfl, rfl⟩

end SealedFrame

end MediaSeal
