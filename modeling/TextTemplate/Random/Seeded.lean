import TextTemplate.Random.ChaCha
import TextTemplate.Random.Provider
import TextTemplate.Random.WideProduct

/-!
# Seeded randomness

A seed of 64 bits is stretched to the key of a stream.  Numbers below a bound are made from
the stream by multiplication; draws that would favour some numbers are thrown away.
-/

namespace TextTemplate

namespace Seeded

/-- One step of the generator that stretches a seed: a word of the key and the next state. -/
def stretchStep (state : UInt64) : UInt32 × UInt64 :=
  let state := state * 6364136223846793005 + 11634580027462260723
  let mixed := (((state >>> 18) ^^^ state) >>> 27).toUInt32
  let amount := (state >>> 59).toUInt32
  ((mixed >>> amount) ||| (mixed <<< ((32 - amount) % 32)), state)

/-- Four words that a seed is stretched to. -/
def stretchRow (state : UInt64) : ChaCha.Row × UInt64 :=
  let (first, state) := stretchStep state
  let (second, state) := stretchStep state
  let (third, state) := stretchStep state
  let (fourth, state) := stretchStep state
  (⟨first, second, third, fourth⟩, state)

/-- The key for a seed. -/
def key (seed : UInt64) : ChaCha.Key :=
  let (upper, state) := stretchRow seed
  let (lower, _) := stretchRow state
  ⟨upper, lower⟩

/-- Start of the stream for a seed. -/
def stream (seed : UInt64) : ChaChaStream := .ofKey (key seed)

/-- How often a draw may be thrown away; at least every second draw is kept. -/
def maxRejections : Nat := 4096

/-- Draws until a draw is kept. -/
def untilKept (draw : ChaChaStream → Option Nat × ChaChaStream) :
    (attempts : Nat) → ChaChaStream → Nat × ChaChaStream
  | 0, stream => (0, stream)
  | attempts + 1, stream =>
      match draw stream with
      | (some number, later) => (number, later)
      | (none, later) => untilKept draw attempts later

/--
Draws two words for a number below `bound`: the upper half of their product with the bound.
The draw is kept when the lower half lies in the zone that all results share evenly.
-/
def drawBelow (bound : UInt64) (stream : ChaChaStream) : Option Nat × ChaChaStream :=
  let zone := (bound <<< (63 - bound.log2)) - 1
  let (drawn, later) := stream.nextDoubleWord
  let (number, rest) := wideProduct drawn bound
  (if rest ≤ zone then some number.toNat else none, later)

/-- Draws one word for a number below `bound`, in the same way. -/
def drawShortBelow (bound : UInt32) (stream : ChaChaStream) : Option Nat × ChaChaStream :=
  let zone := (bound <<< (31 - bound.log2)) - 1
  let (drawn, later) := stream.nextWord
  let product := drawn.toUInt64 * bound.toUInt64
  (if product.toUInt32 ≤ zone then some (product >>> 32).toNat else none, later)

/-- A number below `bound`, from two words at a time. -/
def below (bound : Nat) (stream : ChaChaStream) : Nat × ChaChaStream :=
  untilKept (drawBelow bound.toUInt64) maxRejections stream

/-- A number below `bound`, from one word at a time. -/
def shortBelow (bound : Nat) (stream : ChaChaStream) : Nat × ChaChaStream :=
  untilKept (drawShortBelow bound.toUInt32) maxRejections stream

/-- An integer from `low` to `high`; over the range of all words a draw is taken as it is. -/
def integer (low high : Nat) (stream : ChaChaStream) : Nat × ChaChaStream :=
  let size := high - low + 1
  if size < wordSize then
    let (offset, later) := below size stream
    (low + offset, later)
  else
    let (drawn, later) := stream.nextDoubleWord
    (drawn.toNat, later)

/-- The provider over a stream; a shuffle takes only one word for every index. -/
def providerNamed (name : String) : Provider ChaChaStream where
  name := name
  nextIndex := below
  integer := integer
  rearrange := shuffleWith shortBelow

/-- The reproducible provider, whose state is the stream of a seed. -/
def provider : Provider ChaChaStream := providerNamed "rand::rngs::std::StdRng"

/-- The provider for sessions without a seed; its stream belongs to a seed nobody knows. -/
def unseededProvider : Provider ChaChaStream := providerNamed "rand_core::os::OsRng"

/-- The key that a key and a number are mixed to. -/
def mixInto (key : ChaCha.Key) (number : UInt64) : ChaCha.Key :=
  let block := ChaCha.block key number
  ⟨block.top, block.upper⟩

/--
A seed for a text: the first number in the stream of a key that has taken in the text,
character by character.
-/
def ofText (text : String) : UInt64 :=
  let taken := text.toList.foldl (fun key character => mixInto key character.toNat.toUInt64)
    (key 0)
  (ChaChaStream.ofKey taken).nextDoubleWord.1

end Seeded

end TextTemplate
