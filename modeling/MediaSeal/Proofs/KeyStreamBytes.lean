import MediaSeal.Random.Entropy

/-!
# The key stream byte by byte

The key stream is made in blocks and drawn in words, and what is asked for is
bytes. None of this shows in the result: a stream has one byte at every place,
and a draw gives the bytes at the next places. It is enough to see this for
pieces of one size that are laid end to end, which is how blocks make up the
words of a stream and how words make up its bytes.

Where a draw stops in the middle of a word, the rest of the word is lost and
the next draw starts after it. A length that is a multiple of four loses
nothing.
-/

namespace MediaSeal

/-- Pieces of one size laid end to end: each place falls into one piece. -/
theorem flatMap_pieces {α : Type} {size : Nat} {piece : Nat → List α}
    (h : ∀ k, (piece k).length = size) (filler : α) (start count : Nat) :
    (List.range' start count).flatMap piece =
      (List.range' (size * start) (size * count)).map fun place =>
        (piece (place / size)).getD (place % size) filler := by
  have hpiece : ∀ k, piece k = (List.range' (size * k) size).map fun place =>
      (piece (place / size)).getD (place % size) filler := by
    intro k
    refine List.ext_getElem (by rw [h, List.length_map, List.length_range']) fun i hi hi' => ?_
    have hlt : i < size := h k ▸ hi
    rw [List.getElem_map, List.getElem_range', Nat.one_mul, Nat.mul_add_div (by omega),
      Nat.div_eq_of_lt hlt, Nat.add_zero, Nat.mul_add_mod, Nat.mod_eq_of_lt hlt,
      List.getD_eq_getElem?_getD, List.getElem?_eq_getElem hi, Option.getD_some]
  induction count generalizing start with
  | zero => rfl
  | succ count ih =>
      rw [List.range'_succ, List.flatMap_cons, ih, Nat.mul_succ size start, Nat.mul_succ size count,
        Nat.add_comm (size * count), ← List.range'_append_1, List.map_append, ← hpiece]

namespace ChaCha20

/-- The word at a place of the key stream. -/
def wordAt (key : Key) (place : Nat) : UInt32 :=
  (block key (UInt64.ofNat (place / 16))).getD (place % 16) 0

/-- The byte at a place of the key stream. -/
def byteAt (key : Key) (place : Nat) : UInt8 :=
  (Word32.littleEndian (wordAt key (place / 4))).getD (place % 4) 0

theorem words_eq (key : Key) (position count : Nat) :
    words key position count = (List.range' position count).map (wordAt key) := by
  have hstart : 16 * (position / 16) + position % 16 * 1 = position := by omega
  rw [words, flatMap_pieces (fun number => length_block key _) 0, ← List.map_drop,
    List.drop_range', hstart, ← List.map_take, List.take_range'_of_length_ge (by omega)]
  rfl

end ChaCha20

/-- A draw gives the next bytes, from where the words drawn before have ended. -/
theorem KeyStream.draw_eq (stream : KeyStream) (length : Nat) :
    stream.draw length =
      ((List.range' (4 * stream.position) length).map (ChaCha20.byteAt stream.key),
        { stream with position := stream.position + (length + 3) / 4 }) := by
  simp only [draw, ChaCha20.words_eq, List.flatMap_map]
  rw [flatMap_pieces (fun place => Word32.length_littleEndian _) 0, ← List.map_take,
    List.take_range'_of_length_ge (by omega)]
  rfl

end MediaSeal
