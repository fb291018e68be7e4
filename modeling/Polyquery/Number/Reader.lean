import Polyquery.Number.Double
import Polyquery.Text.Numeral

/-! Reading numbers: digits with a point and an exponent, or the words for infinity and for no number. -/

namespace Polyquery

namespace Double

open Text

/-- The exponent behind a mantissa: nothing, or `e` with a signed row of digits. -/
def exponent? : List Char → Option Int
  | [] => some 0
  | c :: rest =>
    if c = 'e' || c = 'E' then
      let (neg, digits) := sign rest
      (digits? asciiDigit? digits).map (signed neg)
    else none

/-- The number spelt by digits with at most one point, at least one digit, and an exponent. -/
def unsigned? (neg : Bool) (cs : List Char) : Option Double :=
  let whole := cs.takeWhile Char.isDigit
  let rest := cs.dropWhile Char.isDigit
  let (fraction, rest) := match rest with
    | '.' :: rest => (rest.takeWhile Char.isDigit, rest.dropWhile Char.isDigit)
    | _ => ([], rest)
  match digits? asciiDigit? (whole ++ fraction), exponent? rest with
  | some digits, some exponent => some (ofDecimal neg digits (exponent - fraction.length))
  | _, _ => none

/-- The number that a text spells, the words in any case of letters. -/
def ofChars? (cs : List Char) : Option Double :=
  let (neg, body) := sign cs
  let word := String.ofList (body.map Char.toLower)
  if word = "inf" || word = "infinity" then some (infinity neg)
  else if word = "nan" then some nan
  else unsigned? neg body

/-- The number that a settings text spells: with white space at the ends, or else with underscores between other
characters. -/
def ofSetting? (cs : List Char) : Option Double :=
  match ofChars? (stripBy isSpace cs) with
  | some x => some x
  | none => ofChars? (withoutUnderscores cs)

end Double

end Polyquery
