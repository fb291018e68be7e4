/-! Capital letters, as far as words of ASCII letters can tell: the small ASCII letters, and the other
characters whose capital form consists of ASCII letters. A text equals an ASCII word in capitals exactly when
`capital` turns it into that word. -/

namespace Polyquery.Text

/-- The capital form of a character, itself when that form is not of ASCII letters. -/
def capitalChar (c : Char) : List Char :=
  match c with
  | 'ß' => ['S', 'S']
  | 'ı' => ['I']
  | 'ſ' => ['S']
  | 'ﬀ' => ['F', 'F']
  | 'ﬁ' => ['F', 'I']
  | 'ﬂ' => ['F', 'L']
  | 'ﬃ' => ['F', 'F', 'I']
  | 'ﬄ' => ['F', 'F', 'L']
  | 'ﬅ' => ['S', 'T']
  | 'ﬆ' => ['S', 'T']
  | c => [c.toUpper]

/-- A text in capitals. -/
def capital (cs : List Char) : List Char := cs.flatMap capitalChar

/-- A text in capitals. -/
def capitals (s : String) : String := String.ofList (capital s.toList)

end Polyquery.Text
