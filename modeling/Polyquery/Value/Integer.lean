import Polyquery.Failure
import Polyquery.Text.Numeral

/-! Values read as integers, where a count or a limit is wanted: fractions are cut off, texts are read as
numerals, and other values are refused. -/

namespace Polyquery

namespace Value

/-- The number of characters, and of bytes, of a faulty numeral that are shown. -/
def shownNumeral : Nat := 200

/-- The failure to read an integer, given the quoted numeral. -/
def numeralFailure (quoted : String) : Text.NumeralFault → Failure
  | .malformed => .badValue ("invalid literal for int() with base 10: " ++ String.ofList (quoted.toList.take shownNumeral))
  | .tooLong digits => .badValue ("Exceeds the limit (" ++ toString Text.digitLimit ++
      " digits) for integer string conversion: value has " ++ toString digits ++
      " digits; use sys.set_int_max_str_digits() to increase the limit")

/-- The integer that a value stands for. -/
def toInteger : Value → Except Failure Int
  | .bool b => .ok (if b then 1 else 0)
  | .int n => .ok n
  | .real x => match x.truncate? with
    | some n => .ok n
    | none => if x.isNan then .error (.badValue "cannot convert float NaN to integer") else .error (.of .overflow)
  | .text s => (Text.integer s.toList).mapError (numeralFailure (Text.quoted s))
  | .bytes bs => (Text.asciiInteger bs).mapError (numeralFailure (Text.quotedBytes (bs.take shownNumeral)))
  | _ => .error .wrongType

/-- The integer of a value, values that count as false being zero. -/
def toCount (v : Value) : Except Failure Int := if v.isTruthy then v.toInteger else .ok 0

end Value

end Polyquery
