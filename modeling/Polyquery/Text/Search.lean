/-! Search in texts. Phrases are searched for without notice of the case of letters, and written in small ASCII
letters. -/

namespace Polyquery.Text

/-- Whether a row of characters or bytes occurs in another. -/
def contains {α : Type} [BEq α] (whole part : List α) : Bool :=
  match whole with
  | [] => part.isEmpty
  | x :: rest => part.isPrefixOf (x :: rest) || contains rest part

/-- Whether a character is the pattern's letter in some form: a capital, or one of the foreign letters that
share a case form with an ASCII letter. -/
def matchesLetter (letter c : Char) : Bool :=
  c.toLower = letter || (letter = 's' && c = 'ſ') || (letter = 'k' && c = '\u212a') ||
    (letter = 'i' && (c = '\u0130' || c = 'ı'))

/-- Whether a text begins with a pattern. -/
def beginsWith : List Char → List Char → Bool
  | [], _ => true
  | _ :: _, [] => false
  | p :: pattern, c :: rest => matchesLetter p c && beginsWith pattern rest

/-- Whether a pattern occurs in a text. -/
def occursIn (pattern : List Char) : List Char → Bool
  | [] => pattern.isEmpty
  | c :: rest => beginsWith pattern (c :: rest) || occursIn pattern rest

/-- Whether a phrase occurs in a text. -/
def mentions (phrase text : String) : Bool := occursIn phrase.toList text.toList

end Polyquery.Text
