/-!
# The ChaCha stream with twelve rounds

A key of eight words and a block counter give blocks of sixteen words; the blocks in order
make one endless stream of words.  A block is a square of four rows with four words each.
-/

namespace TextTemplate

namespace ChaCha

/-- Four words side by side. -/
structure Row where
  first : UInt32
  second : UInt32
  third : UInt32
  fourth : UInt32
deriving DecidableEq, Repr

namespace Row

/-- Combines two rows word by word. -/
@[inline]
def zipWith (combine : UInt32 → UInt32 → UInt32) (row other : Row) : Row :=
  ⟨combine row.first other.first, combine row.second other.second,
    combine row.third other.third, combine row.fourth other.fourth⟩

/-- Changes every word of a row. -/
@[inline]
def map (change : UInt32 → UInt32) (row : Row) : Row :=
  ⟨change row.first, change row.second, change row.third, change row.fourth⟩

/-- Moves the words one place to the front and the first to the end. -/
@[inline]
def shift (row : Row) : Row := ⟨row.second, row.third, row.fourth, row.first⟩

def toList (row : Row) : List UInt32 := [row.first, row.second, row.third, row.fourth]

end Row

/-- The sixteen words of a block, or of the state it is made from. -/
structure Block where
  top : Row
  upper : Row
  lower : Row
  bottom : Row
deriving DecidableEq, Repr

/-- The eight words of a key. -/
structure Key where
  upper : Row
  lower : Row
deriving DecidableEq, Repr

/-- Moves every bit towards the high end and the ones that fall off to the low end. -/
@[inline]
def rotateLeft (amount word : UInt32) : UInt32 :=
  (word <<< amount) ||| (word >>> (32 - amount))

/-- Adds one row to another and mixes the sum into a third, which is turned by some bits. -/
@[inline]
def stir (amount : UInt32) (row other mixed : Row) : Row × Row :=
  let sum := row.zipWith (· + ·) other
  (sum, (mixed.zipWith (· ^^^ ·) sum).map (rotateLeft amount))

/-- Mixes the words of every column. -/
@[inline]
def mixColumns (block : Block) : Block :=
  let (top, bottom) := stir 16 block.top block.upper block.bottom
  let (lower, upper) := stir 12 block.lower bottom block.upper
  let (top, bottom) := stir 8 top upper bottom
  let (lower, upper) := stir 7 lower bottom upper
  ⟨top, upper, lower, bottom⟩

/-- Shifts the rows so that diagonals become columns. -/
@[inline]
def straighten (block : Block) : Block :=
  ⟨block.top, block.upper.shift, block.lower.shift.shift, block.bottom.shift.shift.shift⟩

/-- Shifts the rows back so that columns become diagonals. -/
@[inline]
def slant (block : Block) : Block :=
  ⟨block.top, block.upper.shift.shift.shift, block.lower.shift.shift, block.bottom.shift⟩

/-- One round down the columns of a state and one along its diagonals. -/
def doubleRound (block : Block) : Block :=
  slant (mixColumns (straighten (mixColumns block)))

/-- The words that every state begins with. -/
def constants : Row := ⟨0x61707865, 0x3320646e, 0x79622d32, 0x6b206574⟩

/-- The state at the start of a block: constants, the key, the block counter and zeros. -/
def initialState (key : Key) (counter : UInt64) : Block :=
  ⟨constants, key.upper, key.lower, ⟨counter.toUInt32, (counter >>> 32).toUInt32, 0, 0⟩⟩

/-- Adds two blocks word by word. -/
def Block.add (block other : Block) : Block :=
  ⟨block.top.zipWith (· + ·) other.top, block.upper.zipWith (· + ·) other.upper,
    block.lower.zipWith (· + ·) other.lower, block.bottom.zipWith (· + ·) other.bottom⟩

def Block.toList (block : Block) : List UInt32 :=
  block.top.toList ++ block.upper.toList ++ block.lower.toList ++ block.bottom.toList

/-- The block with a number: twelve rounds, then the initial state is added. -/
def block (key : Key) (counter : UInt64) : Block :=
  let initial := initialState key counter
  (Nat.repeat doubleRound 6 initial).add initial

end ChaCha

/-- A place in the stream of a key: the words left of a block and the number of the next. -/
structure ChaChaStream where
  key : ChaCha.Key
  nextBlock : UInt64
  pending : List UInt32

namespace ChaChaStream

/-- The start of the stream. -/
def ofKey (key : ChaCha.Key) : ChaChaStream := ⟨key, 0, []⟩

/-- The next word of the stream. -/
def nextWord (stream : ChaChaStream) : UInt32 × ChaChaStream :=
  match stream.pending with
  | word :: rest => (word, { stream with pending := rest })
  | [] =>
      let words := ChaCha.block stream.key stream.nextBlock
      (words.top.first, ⟨stream.key, stream.nextBlock + 1, words.toList.tail⟩)

/-- The next two words as one number, the first of them low. -/
def nextDoubleWord (stream : ChaChaStream) : UInt64 × ChaChaStream :=
  let (low, between) := stream.nextWord
  let (high, later) := between.nextWord
  ((high.toUInt64 <<< 32) ||| low.toUInt64, later)

end ChaChaStream

end TextTemplate
