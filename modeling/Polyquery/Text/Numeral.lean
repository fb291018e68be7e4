import Polyquery.Text.Blank

/-! Integers written in decimal digits. Digits of every script count, and single underscores may stand between
digits. -/

namespace Polyquery.Text

/-- The code points of the zeros of all scripts; the digits one to nine follow each of them. -/
def zeros : List Nat :=
  [48, 1632, 1776, 1984, 2406, 2534, 2662, 2790, 2918, 3046, 3174, 3302, 3430, 3558, 3664, 3792, 3872, 4160,
   4240, 6112, 6160, 6470, 6608, 6784, 6800, 6992, 7088, 7232, 7248, 42528, 43216, 43264, 43472, 43504,
   43600, 44016, 65296, 66720, 68912, 69734, 69872, 69942, 70096, 70384, 70736, 70864, 71248, 71360, 71472,
   71904, 72016, 72784, 73040, 73120, 92768, 92864, 93008, 120782, 120792, 120802, 120812, 120822, 123200,
   123632, 125264, 130032]

/-- The value of a decimal digit of any script. -/
def digit? (c : Char) : Option Nat :=
  (zeros.find? fun start => start ≤ c.toNat && c.toNat < start + 10).map (c.toNat - ·)

/-- The value of a decimal digit between `0` and `9`. -/
def asciiDigit? (c : Char) : Option Nat := if c.isDigit then some (c.toNat - '0'.toNat) else none

/-- The value of a nonempty row of digits. -/
def digits? (digit : Char → Option Nat) : List Char → Option Nat
  | [] => none
  | cs => (cs.mapM digit).map (·.foldl (10 * · + ·) 0)

/-- A sign and what follows it; no sign counts as plus. -/
def sign : List Char → Bool × List Char
  | '-' :: rest => (true, rest)
  | '+' :: rest => (false, rest)
  | cs => (false, cs)

def signed (neg : Bool) (n : Nat) : Int := if neg then -n else n

/-- Why a text is not read as an integer: it spells none, or it has more digits than are read. -/
inductive NumeralFault where
  | malformed
  | tooLong (digits : Nat)
deriving DecidableEq, Repr

/-- The number of digits that are read at most. -/
def digitLimit : Nat := 4300

/-- The integer that a text spells: white space at the ends, a sign, and digits with single underscores between
them. Digits are counted before what stands behind them is looked at. -/
def readInteger (space : Char → Bool) (digit : Char → Option Nat) (cs : List Char) : Except NumeralFault Int :=
  let (neg, rest) := sign (cs.dropWhile space)
  let inRun (c : Char) : Bool := c = '_' || (digit c).isSome
  let groups := splitBy (· = '_') (rest.takeWhile inRun)
  let run := groups.flatten
  if groups.any (·.isEmpty) then .error .malformed
  else if digitLimit < run.length then .error (.tooLong run.length)
  else match digits? digit run, (rest.dropWhile inRun).all space with
    | some n, true => .ok (signed neg n)
    | _, _ => .error .malformed

/-- The integer that a text spells, in the digits of any script. -/
def integer (cs : List Char) : Except NumeralFault Int := readInteger isSpace digit? cs

/-- The integer that a byte string spells, in ASCII throughout. -/
def asciiInteger (bytes : List UInt8) : Except NumeralFault Int :=
  readInteger (fun c => isSpace c && c.toNat < 128) asciiDigit? (bytes.map fun b => Char.ofNat b.toNat)

/-- A text without its underscores, where each of them stands alone between other characters. -/
def withoutUnderscores (cs : List Char) : List Char :=
  let groups := splitBy (· = '_') cs
  if groups.any (·.isEmpty) then cs else groups.flatten

/-- A settings numeral without the zeros in front of it. Where only zeros and underscores stand before the point
or the end, the last of them stays. -/
def withoutLeadingZeros? : List Char → Option (List Char)
  | [] => none
  | c :: rest =>
    let isFiller (d : Char) : Bool := d = '0' || d = '_'
    let last := (c :: rest.takeWhile isFiller).getLastD c
    let kept := rest.dropWhile isFiller
    if c ≠ '0' then (if c.isDigit then some (c :: rest) else none)
    else match kept with
      | [] => some [last]
      | d :: _ =>
        if d = '.' then some (last :: kept) else if d = '-' || d.isDigit then some kept else none

/-- A settings numeral without a point that has only zeros behind it, one at least. -/
def withoutZeroFraction (cs : List Char) : List Char :=
  let fraction := (cs.dropWhile (· ≠ '.')).drop 1
  if fraction.isEmpty || fraction.any (· ≠ '0') then cs else cs.takeWhile (· ≠ '.')

/-- The integer of a minus sign, if there is one, and digits with no zero in front. Digits are counted before what
stands behind them is looked at. -/
def bareInteger (cs : List Char) : Except NumeralFault Int :=
  let neg := cs.head? = some '-'
  let body := if neg then cs.drop 1 else cs
  let run := body.takeWhile Char.isDigit
  if run.head? = some '0' && 1 < body.length then .error .malformed
  else if digitLimit < run.length then .error (.tooLong run.length)
  else match digits? asciiDigit? body with
    | some n => .ok (signed neg n)
    | none => .error .malformed

/-- The bare form of a settings numeral with white space at the ends, a sign, zeros in front, single underscores
between digits, and possibly a point with nothing but zeros behind it. The minus sign may stand behind the zeros,
too. -/
def bareForm? (cs : List Char) : Option (List Char) :=
  let (neg, rest) := sign (stripBy isSpace cs)
  (withoutLeadingZeros? rest).map fun kept =>
    let bare := withoutUnderscores (withoutZeroFraction kept)
    if neg then '-' :: bare else bare

/-- The integer that a settings text spells, as it stands or in its bare form. Only in a text as it stands is a row
of digits found too long. -/
def settingInteger (cs : List Char) : Except NumeralFault Int :=
  match bareInteger cs with
  | .error .malformed => match (bareForm? cs).map bareInteger with
    | some (.ok n) => .ok n
    | _ => .error .malformed
  | read => read

end Polyquery.Text
