import MediaSeal.Random.ChaCha20

/-!
# Where random bytes come from

An endpoint draws the initialisation vector of each frame from a source. A
source is a value: drawing returns the bytes and the source that is left, and
what is left of a key stream is the same stream at a later position. So no
byte of a stream is handed out twice by sources that follow from one another.
-/

namespace MediaSeal

/-- A key stream with a position, counted in whole words. -/
structure KeyStream where
  key : ChaCha20.Key
  position : Nat
deriving DecidableEq

namespace KeyStream

/-- One step of the generator that spreads a seed over a key. -/
def seedStep (state : UInt64) : UInt64 := state * 6364136223846793005 + 11634580027462260723

/-- The word that the generator gives in a state: its high bits, turned by an
amount that its highest bits choose. -/
def seedWord (state : UInt64) : UInt32 :=
  let mixed := (((state >>> 18) ^^^ state) >>> 27).toUInt32
  let turns := (state >>> 59).toUInt32
  (mixed >>> turns) ||| (mixed <<< (32 - turns))

/-- The first `count` words that a seed gives. -/
def seedWords : Nat → UInt64 → List UInt32
  | 0, _ => []
  | count + 1, state =>
    let state := seedStep state
    -- The generator gives its bytes least significant first, as the key
    -- takes them, so its words are the words of the key.
    seedWord state :: seedWords count state

/-- The stream of a seed, from its start. -/
def ofSeed (seed : UInt64) : KeyStream :=
  let word (i : Nat) : UInt32 := (seedWords 8 seed).getD i 0
  ⟨⟨⟨word 0, word 1, word 2, word 3⟩, ⟨word 4, word 5, word 6, word 7⟩⟩, 0⟩

/-- The next `length` bytes, and the stream after them. Whole words are
drawn; what is left of the last one is thrown away. -/
def draw (length : Nat) (stream : KeyStream) : Bytes × KeyStream :=
  let count := (length + 3) / 4
  let drawn := ChaCha20.words stream.key stream.position count
  ((drawn.flatMap Word32.littleEndian).take length,
    { stream with position := stream.position + count })

end KeyStream

/-- A source of random bytes. -/
inductive Entropy
  /-- Every byte is the same one. -/
  | constant (byte : UInt8)
  /-- The bytes of a key stream, each once. -/
  | stream (stream : KeyStream)
deriving DecidableEq

namespace Entropy

/-- A source determined by a seed. -/
def ofSeed (seed : UInt64) : Entropy := stream (KeyStream.ofSeed seed)

/-- The next `length` bytes, and the source that is left. -/
def draw (length : Nat) : Entropy → Bytes × Entropy
  | constant byte => (List.replicate length byte, constant byte)
  | stream s =>
    let (bytes, rest) := s.draw length
    (bytes, stream rest)

/-- A source gives as many bytes as it is asked for. -/
theorem length_draw (length : Nat) (entropy : Entropy) :
    (entropy.draw length).1.length = length := by
  cases entropy with
  | constant byte => exact List.length_replicate
  | stream stream =>
      have hwords := ChaCha20.length_words stream.key stream.position ((length + 3) / 4)
      have hbytes : ∀ words : List UInt32,
          (words.flatMap Word32.littleEndian).length = 4 * words.length := by
        intro words
        simp [List.length_flatMap, List.map_const']
        omega
      simp only [draw, KeyStream.draw, List.length_take, hbytes, hwords]
      omega

end Entropy

end MediaSeal
