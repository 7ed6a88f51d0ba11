/-!
# What can go wrong with keys
-/

namespace MediaSeal

/-- Why a key store cannot be set up as asked. -/
inductive OptionsFault
  /-- A ring without slots. -/
  | noSlots
  /-- More slots than one byte can number. -/
  | tooManySlots
deriving DecidableEq, Repr

/-- The reason in words. -/
def OptionsFault.text : OptionsFault → String
  | noSlots => "key ring must hold at least one slot"
  | tooManySlots => "key ring larger than 256 slots"

/-- Every reason there is. -/
def OptionsFault.all : List OptionsFault := [noSlots, tooManySlots]

/-- A failure to set up, provide or advance a key. -/
inductive KeyError
  /-- No slot of the ring has this index. -/
  | invalidIndex (index : Int) (ringSize : Nat)
  /-- No key was provided at this index. -/
  | missingKey (index : Int)
  /-- The key at this index is of the last generation. -/
  | ratchetExhausted (index : Int) (generation : UInt32)
  | invalidOptions (fault : OptionsFault)
deriving DecidableEq, Repr

/-- The failure in words. -/
def KeyError.message : KeyError → String
  | invalidIndex index ringSize => s!"key index {index} outside key ring of size {ringSize}"
  | missingKey index => s!"no key material at index {index}"
  | ratchetExhausted index generation =>
    s!"ratchet exhausted at index {index} (generation {generation})"
  | invalidOptions fault => s!"invalid key provider options: {fault.text}"

end MediaSeal
