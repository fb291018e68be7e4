import Polyquery.Text.Ranges

/-! White space: the characters that Unicode calls white space, together with the four information separators.
Texts are stripped of it at both ends and split into words by it. -/

namespace Polyquery.Text

/-- The code points of white space. -/
def blanks : Ranges :=
  [(9, 13), (28, 32), (133, 133), (160, 160), (5760, 5760), (8192, 8202), (8232, 8233), (8239, 8239),
   (8287, 8287), (12288, 12288)]

def isBlank (c : Char) : Bool := blanks.contains c.toNat

/-- White space without the information separators, as standard text readers take it. -/
def isSpace (c : Char) : Bool := isBlank c && !(28 ≤ c.toNat && c.toNat ≤ 31)

/-- A text without the characters of a class at its two ends. -/
def stripBy (p : Char → Bool) (cs : List Char) : List Char :=
  ((cs.dropWhile p).reverse.dropWhile p).reverse

/-- A text cut at every character of a class; the cuts enclose one piece more than there are cuts. -/
def splitBy (p : Char → Bool) : List Char → List (List Char)
  | [] => [[]]
  | c :: rest =>
    if p c then [] :: splitBy p rest
    else match splitBy p rest with
      | [] => [[c]]
      | piece :: pieces => (c :: piece) :: pieces

/-- The words of a text, the stretches between white space. -/
def words (cs : List Char) : List (List Char) := (splitBy isBlank cs).filter (!·.isEmpty)

/-- A text cut at its dots. -/
def splitDots (s : String) : List String := (splitBy (· = '.') s.toList).map String.ofList

end Polyquery.Text
