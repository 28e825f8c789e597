/-!
# Machine words

Repetition counts, indices and attempt numbers are kept in words of 64 bits, and outcome
counts in double words.
-/

namespace TextTemplate

/-- How many values half a word of 64 bits has. -/
def halfWordSize : Nat := 1 <<< 32

/-- How many values a word of 64 bits has. -/
def wordSize : Nat := 1 <<< 64

/-- How many values a double word of 128 bits has. -/
def doubleWordSize : Nat := 1 <<< 128

end TextTemplate
