import Polyquery.Number.Double

/-! Logarithms. The natural one of a number is rounded once; the binary one is a quotient of two such. A number
`f · 2 ^ k` with `f` between one and two has the logarithm of `f` and `k` times that of two. Both are summed up from
the same series, in whole units of `2 ^ -256`: far below the last place of any result, so that the sum rounds as the
logarithm itself does. -/

namespace Polyquery

namespace Double

/-- The places after the point that a sum is reckoned to. -/
def seriesPlaces : Nat := 256

/-- The number of terms that are summed up. Each is less than a ninth of the one before it. -/
def seriesTerms : Nat := 84

/-- The sum of `power / odd`, `power · square / (odd + 2)` and so on, as many terms as given; `power` and `square` are
in units of `2 ^ -seriesPlaces`, and so is the sum. -/
def oddSeries (square : Nat) : Nat → Nat → Nat → Nat
  | 0, _, _ => 0
  | terms + 1, odd, power =>
    power / odd + oddSeries square terms (odd + 2) (power * square / twoTo seriesPlaces)

/-- The logarithm of `num / den`, a ratio from one to two, in units of `2 ^ -seriesPlaces`. It is twice the sum of the
odd powers of `z = (num - den) / (num + den)`, each over its exponent. -/
def logRatio (num den : Nat) : Nat :=
  let z := (num - den) * twoTo seriesPlaces / (num + den)
  2 * oddSeries (z * z / twoTo seriesPlaces) seriesTerms 1 z

/-- The natural logarithm of a number. That of zero is without end below, and numbers below zero have none. -/
def log (x : Double) : Double :=
  match x.view with
  | .nan | .infinite true => nan
  | .infinite false => infinity false
  | .finite neg m e =>
    if m = 0 then infinity true
    else if neg then nan
    else
      let sum : Int := (m.log2 + e) * logRatio 2 1 + logRatio m (twoTo m.log2)
      ofDyadic (decide (sum < 0)) sum.natAbs (-seriesPlaces)

/-- The logarithm of a number to base two, as the quotient of two natural ones. -/
def binaryLog (x : Double) : Double := x.log / (ofInt 2).log

end Double

end Polyquery
