import Polyquery.Number.Double

/-! The decimal text of a number: the fewest digits that read back as the same number, and of those the digits
nearest to it. Numbers whose point falls close to their digits are written positionally, the others with an
exponent. -/

namespace Polyquery

namespace Double

/-- The decimal number `digits · 10 ^ exponent`. -/
structure Decimal where
  digits : Nat
  exponent : Int
deriving DecidableEq, Repr

/-- Whether `c · 10 ^ s` lies below `x · 2 ^ t`, or at it. -/
def decimalLe (c : Nat) (s : Int) (x : Nat) (t : Int) : Bool :=
  decide (c * tenTo s.toNat * twoTo (-t).toNat ≤ x * twoTo t.toNat * tenTo (-s).toNat)

/-- Whether `x · 2 ^ t` lies below `c · 10 ^ s`, or at it. -/
def dyadicLe (x : Nat) (t : Int) (c : Nat) (s : Int) : Bool :=
  decide (x * twoTo t.toNat * tenTo (-s).toNat ≤ c * tenTo s.toNat * twoTo (-t).toNat)

/-- The numbers that round to `m · 2 ^ e` reach from `low` to `high` quarters of its last place; the ends
belong to them when the mantissa is even. Below a power of two the neighbour is only half as far away. -/
structure Reach where
  low : Nat
  high : Nat
  exponent : Int
  closed : Bool

def reach (m : Nat) (e : Int) : Reach where
  low := if m = twoTo 52 ∧ -1074 < e then 4 * m - 1 else 4 * m - 2
  high := 4 * m + 2
  exponent := e - 2
  closed := m % 2 = 0

/-- Whether `c · 10 ^ s` reads back as the number that `r` belongs to. -/
def Reach.contains (r : Reach) (c : Nat) (s : Int) : Bool :=
  if r.closed then dyadicLe r.low r.exponent c s && decimalLe c s r.high r.exponent
  else !decimalLe c s r.low r.exponent && !dyadicLe r.high r.exponent c s

/-- The floor of `m · 2 ^ e` in units of `10 ^ s`. -/
def floorDecimal (m : Nat) (e s : Int) : Nat :=
  m * twoTo e.toNat * tenTo (-s).toNat / (twoTo (-e).toNat * tenTo s.toNat)

/-- The least `k` from a first guess on, within `fuel` steps, with `m · 2 ^ e < 10 ^ k`. -/
def leastPower (m : Nat) (e : Int) : Nat → Int → Int
  | 0, k => k
  | fuel + 1, k => if decimalLe 1 k m e then leastPower m e fuel (k + 1) else k

/-- The number of digits before the point: the least `k` with `m · 2 ^ e < 10 ^ k`. A logarithm of two, scaled
by `30103 / 100000`, comes within three of it from below. -/
def magnitude (m : Nat) (e : Int) : Int :=
  leastPower m e 4 ((m.log2 + e) * 30103 / 100000 - 1)

/-- The two neighbours of `m · 2 ^ e` on the grid of `10 ^ s`, as far as they read back; the nearer one first
choice, and of two equally near the even one. -/
def nearestOnGrid? (m : Nat) (e s : Int) : Option Nat :=
  let below := floorDecimal m e s
  let r := reach m e
  match r.contains below s, r.contains (below + 1) s with
  | false, false => none
  | true, false => some below
  | false, true => some (below + 1)
  | true, true =>
    -- twice the number, against the sum of the neighbours
    let num := 2 * m * twoTo e.toNat * tenTo (-s).toNat
    let mid := (2 * below + 1) * (twoTo (-e).toNat * tenTo s.toNat)
    if num < mid then some below
    else if mid < num then some (below + 1)
    else some (below + below % 2)

/-- The fewest digits that read back as `m · 2 ^ e`; seventeen always do. -/
def shortest (m : Nat) (e : Int) : Decimal :=
  let k := magnitude m e
  ((List.range 17).findSome? fun (i : Nat) =>
      let s : Int := k - ((i : Nat) + 1 : Nat)
      (nearestOnGrid? m e s).map fun c => ⟨c, s⟩).getD ⟨floorDecimal m e (k - 17), k - 17⟩

/-- How numbers are written: which places of the point are positional, and the words for the rest. -/
structure Style where
  positionalAbove : Int
  positionalUpTo : Int
  exponentDigits : Nat
  nan : String
  infinity : String
  negativeInfinity : String

/-- The digits of a natural number, without the zeros at its end. -/
def significant (n : Nat) : List Char :=
  ((Nat.toDigits 10 n).reverse.dropWhile (· = '0')).reverse

/-- Digits with the point after the first `point` of them, zeros filling up. -/
def positional (digits : List Char) (point : Int) : List Char :=
  if point ≤ 0 then '0' :: '.' :: List.replicate (-point).toNat '0' ++ digits
  else if digits.length ≤ point.toNat then
    digits ++ List.replicate (point.toNat - digits.length) '0' ++ ['.', '0']
  else digits.take point.toNat ++ '.' :: digits.drop point.toNat

/-- Digits with the point after the first one, and the power of ten behind them. -/
def scientific (width : Nat) (digits : List Char) (power : Int) : List Char :=
  let exponent := Nat.toDigits 10 power.natAbs
  let fraction := digits.drop 1
  digits.take 1 ++ (if fraction.isEmpty then [] else '.' :: fraction) ++
    'e' :: (if power < 0 then '-' else '+') :: List.replicate (width - exponent.length) '0' ++ exponent

/-- The text of a number in a given style. -/
def write (style : Style) (x : Double) : String :=
  match x.view with
  | .nan => style.nan
  | .infinite neg => if neg then style.negativeInfinity else style.infinity
  | .finite neg m e =>
    let d := shortest m e
    let digits := if m = 0 then ['0'] else significant d.digits
    let point : Int := if m = 0 then 1 else (Nat.toDigits 10 d.digits).length + d.exponent
    let body :=
      if style.positionalAbove < point ∧ point ≤ style.positionalUpTo then positional digits point
      else scientific style.exponentDigits digits (point - 1)
    String.ofList (if neg then '-' :: body else body)

/-- Positional from a ten-thousandth up to sixteen digits before the point. -/
def literalStyle : Style := ⟨-4, 16, 2, "nan", "inf", "-inf"⟩

/-- The same numbers in documents, where the missing ones have names of their own. -/
def documentStyle : Style := ⟨-4, 16, 2, "NaN", "Infinity", "-Infinity"⟩

/-- The text of a number in messages. -/
def text (x : Double) : String := x.write literalStyle

end Double

end Polyquery
