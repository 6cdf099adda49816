/-!
# Random words

An endless sequence of 32-bit words together with how many of them were drawn.
-/
namespace ChipEight

structure RandomWords where
  word : Nat → UInt32
  drawn : Nat

namespace RandomWords

/-- The sequence from its start. -/
def ofSequence (word : Nat → UInt32) : RandomWords := ⟨word, 0⟩

/-- Draws a word and keeps its low eight bits. -/
def nextByte (random : RandomWords) : UInt8 × RandomWords :=
  ((random.word random.drawn).toUInt8, { random with drawn := random.drawn + 1 })

end RandomWords

end ChipEight
