/-!
# White space and plain numerals

The characters with the Unicode property `White_Space`, the trimming of texts
by them, and the reading of plain decimal numerals of 64 bits.
-/

namespace Elementwise.Text

/-- The inclusive ranges of code points with the property `White_Space`. -/
def blankRanges : List (Nat × Nat) :=
  [(0x09, 0x0D), (0x20, 0x20), (0x85, 0x85), (0xA0, 0xA0), (0x1680, 0x1680),
    (0x2000, 0x200A), (0x2028, 0x2029), (0x202F, 0x202F), (0x205F, 0x205F),
    (0x3000, 0x3000)]

/-- Whether a character is white space. -/
def isBlank (character : Char) : Bool :=
  blankRanges.any fun (first, last) =>
    first ≤ character.toNat && character.toNat ≤ last

/-- A text without the white space at its two ends. -/
def trim (characters : List Char) : List Char :=
  ((characters.dropWhile isBlank).reverse.dropWhile isBlank).reverse

/-- The number that a non-empty sequence of decimal digits stands for. -/
def digits? (characters : List Char) : Option Nat :=
  if characters.isEmpty then
    none
  else
    characters.foldlM
      (fun total character =>
        if character.isDigit then
          some (10 * total + (character.toNat - '0'.toNat))
        else
          none)
      0

/--
The number written in a text: digits, with at most one plus sign in front and
white space around, standing for a number below a bound.
-/
def numeral? (bound : Nat) (text : String) : Option Nat :=
  let digits :=
    match trim text.toList with
    | '+' :: digits => digits
    | digits => digits
  (digits? digits).filter (· < bound)

/-- There are twenty-five blank characters. -/
example : (blankRanges.map fun (first, last) => last + 1 - first).sum = 25 := by
  decide

end Elementwise.Text
