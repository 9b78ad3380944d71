/-
# Blanks

Which characters count as blank, and cutting a text at them.

The class is that of Unicode's white space together with the four information separators, which
split words like any blank but may not stand around a numeral (`isMargin`).  It is a table of
ranges, since the characters of the standard library's own test are only the first few of them.

`pieces` is the one way of cutting: words are its nonempty pieces between blanks, and lines its
pieces between line ends, the last of them empty when the text ends with one.  A text is cut as a
list of characters, which is also what the proofs about words induct on.
-/
namespace PathAtlas.Text

/-! ## 1. The class -/

def blanks : List (Nat × Nat) :=
  [(0x09, 0x0d), (0x1c, 0x20), (0x85, 0x85), (0xa0, 0xa0), (0x1680, 0x1680), (0x2000, 0x200a),
   (0x2028, 0x2029), (0x202f, 0x202f), (0x205f, 0x205f), (0x3000, 0x3000)]

def isBlank (c : Char) : Bool := blanks.any fun (a, b) => a ≤ c.toNat && c.toNat ≤ b

/-- The blanks that may stand around a numeral: all but the four separators of records. -/
def isMargin (c : Char) : Bool := isBlank c && !(0x1c ≤ c.toNat && c.toNat ≤ 0x1f)

/-! ## 2. Cutting -/

/-- Drops from both ends what satisfies the test. -/
def trimBy (p : Char → Bool) (cs : List Char) : List Char :=
  ((cs.dropWhile p).reverse.dropWhile p).reverse

/-- Drops from the right end what satisfies the test. -/
def trimRightBy (p : Char → Bool) (cs : List Char) : List Char :=
  (cs.reverse.dropWhile p).reverse

def strip (s : String) : String := String.ofList (trimBy isBlank s.toList)

/-- The pieces between separators, one more than there are separators. -/
def pieces (p : Char → Bool) : List Char → List (List Char)
  | [] => [[]]
  | c :: cs =>
    if p c then [] :: pieces p cs
    else
      match pieces p cs with
      | [] => [[c]]
      | w :: ws => (c :: w) :: ws

/-- The words of a text: its longest pieces without a blank. -/
def words (cs : List Char) : List (List Char) := (pieces isBlank cs).filter (!·.isEmpty)

def lines (cs : List Char) : List (List Char) := pieces (· == '\n') cs

end PathAtlas.Text
