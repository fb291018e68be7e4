/-! Binary64 numbers as exact dyadic values. A number is known by its bits: `view` reads them as a sign, a
natural mantissa and a power of two, and `ofRatio` rounds an exact ratio to the nearest number, a tie going to
the even mantissa. Sums, products and quotients are computed exactly and rounded once. -/

namespace Polyquery

/-- A binary64 number, known by its bits. -/
structure Double where
  bits : UInt64
deriving DecidableEq, Inhabited, Repr

namespace Double

/-- A power of two. -/
def twoTo (n : Nat) : Nat := Nat.pow 2 n

/-- A power of ten. -/
def tenTo (n : Nat) : Nat := Nat.pow 10 n

/-- What the bits of a number stand for; `finite neg m e` is `m · 2 ^ e`, negated when `neg` holds. -/
inductive View where
  | nan
  | infinite (neg : Bool)
  | finite (neg : Bool) (mantissa : Nat) (exponent : Int)
deriving DecidableEq, Repr

/-- The fields of the bits: one sign bit, eleven bits of exponent and fifty-two of fraction. -/
def view (x : Double) : View :=
  let n := x.bits.toNat
  let neg := decide (twoTo 63 ≤ n)
  let biased : Nat := n / twoTo 52 % twoTo 11
  let fraction : Nat := n % twoTo 52
  if biased = 2047 then
    if fraction = 0 then .infinite neg else .nan
  else if biased = 0 then .finite neg fraction (-1074)
  else .finite neg (twoTo 52 + fraction) (biased - 1075)

/-- The number whose magnitude bits are `magnitude`. -/
def ofMagnitude (neg : Bool) (magnitude : Nat) : Double :=
  ⟨UInt64.ofNat (if neg then twoTo 63 + magnitude else magnitude)⟩

/-- The magnitude bits of infinity, above those of every finite number. -/
def infiniteMagnitude : Nat := 2047 * twoTo 52

def nan : Double := ⟨0x7ff8000000000000⟩

def infinity (neg : Bool) : Double := ofMagnitude neg infiniteMagnitude

/-- The quotient `num / den` as a natural number, the nearest one, and of two equally near the even one. -/
def roundQuotient (num den : Nat) : Nat :=
  let q := num / den
  let r := num % den
  if 2 * r < den then q else if den < 2 * r then q + 1 else q + q % 2

/-- `roundQuotient` of `num / (den · 2 ^ e)`. -/
def roundScaled (num den : Nat) (e : Int) : Nat :=
  if 0 ≤ e then roundQuotient num (den * twoTo e.toNat) else roundQuotient (num * twoTo (-e).toNat) den

/-- The floor of `num / (den · 2 ^ e)`. -/
def floorScaled (num den : Nat) (e : Int) : Nat :=
  if 0 ≤ e then num / (den * twoTo e.toNat) else num * twoTo (-e).toNat / den

/-- The number nearest to `num / den`, a tie going to the even mantissa. The exponent is the one that leaves
fifty-three bits before rounding, or the least one of all; a mantissa that rounds up to `2 ^ 53` carries into
the exponent field by itself. -/
def ofRatio (neg : Bool) (num den : Nat) : Double :=
  if num = 0 then ofMagnitude neg 0
  else
    let guess : Int := max ((num.log2 : Int) - den.log2 - 53) (-1074)
    let e := if floorScaled num den guess < twoTo 53 then guess else guess + 1
    let magnitude := (e + 1074).toNat * twoTo 52 + roundScaled num den e
    ofMagnitude neg (min magnitude infiniteMagnitude)

/-- The number nearest to `m · 2 ^ e`. -/
def ofDyadic (neg : Bool) (m : Nat) (e : Int) : Double :=
  if 0 ≤ e then ofRatio neg (m * twoTo e.toNat) 1 else ofRatio neg m (twoTo (-e).toNat)

/-- The number nearest to an integer; infinite when the integer lies beyond the finite numbers. -/
def ofInt (n : Int) : Double := ofRatio (decide (n < 0)) n.natAbs 1

/-- The digits `digits · 10 ^ exponent` as the nearest number. Exponents far outside the range are answered
before any power is taken. -/
def ofDecimal (neg : Bool) (digits : Nat) (exponent : Int) : Double :=
  let size : Int := (Nat.toDigits 10 digits).length + exponent
  if digits = 0 then ofMagnitude neg 0
  else if 400 < size then infinity neg
  else if size < -400 then ofMagnitude neg 0
  else if 0 ≤ exponent then ofRatio neg (digits * tenTo exponent.toNat) 1
  else ofRatio neg digits (tenTo (-exponent).toNat)

def isNan (x : Double) : Bool := x.view = .nan

def isInfinite (x : Double) : Bool :=
  match x.view with
  | .infinite _ => true
  | _ => false

def isFinite (x : Double) : Bool := !x.isNan && !x.isInfinite

/-- Either zero. -/
def isZero (x : Double) : Bool :=
  match x.view with
  | .finite _ 0 _ => true
  | _ => false

/-- A dyadic value `m · 2 ^ e` over a common exponent `least ≤ e`. -/
def aligned (neg : Bool) (m : Nat) (e least : Int) : Int :=
  let magnitude : Int := (m * twoTo (e - least).toNat : Nat)
  if neg then -magnitude else magnitude

/-- The order of two numbers, and `none` when either is not a number. The two zeros are equal. -/
def compare? (x y : Double) : Option Ordering :=
  match x.view, y.view with
  | .nan, _ | _, .nan => none
  | .infinite a, .infinite b => some (compare (if a then 0 else 1) (if b then 0 else 1))
  | .infinite a, _ => some (if a then .lt else .gt)
  | _, .infinite b => some (if b then .gt else .lt)
  | .finite a m e, .finite b n f =>
    let least := min e f
    some (compare (aligned a m e least) (aligned b n f least))

def less (x y : Double) : Bool := x.compare? y = some .lt

def same (x y : Double) : Bool := x.compare? y = some .eq

/-- The integer a number stands for, if it has no fraction. -/
def toInt? (x : Double) : Option Int :=
  match x.view with
  | .finite neg m e =>
    if 0 ≤ e then some (aligned neg m e 0)
    else if m % twoTo (-e).toNat = 0 then
      let n : Int := (m / twoTo (-e).toNat : Nat)
      some (if neg then -n else n)
    else none
  | _ => none

/-- A finite number without its fraction, toward zero. -/
def truncate? (x : Double) : Option Int :=
  match x.view with
  | .finite neg m e =>
    let n : Int := (if 0 ≤ e then m * twoTo e.toNat else m / twoTo (-e).toNat : Nat)
    some (if neg then -n else n)
  | _ => none

/-- The greatest integer not above a finite number. -/
def floor? (x : Double) : Option Int :=
  match x.view with
  | .finite neg m e =>
    if 0 ≤ e then some (aligned neg m e 0)
    else
      let n : Int := if neg then -m else m
      some (n / (twoTo (-e).toNat : Nat))
  | _ => none

/-- The product, rounded once. -/
def mul (x y : Double) : Double :=
  match x.view, y.view with
  | .nan, _ | _, .nan => nan
  | .infinite a, .infinite b => infinity (a != b)
  | .infinite a, .finite b m _ | .finite b m _, .infinite a => if m = 0 then nan else infinity (a != b)
  | .finite a m e, .finite b n f => ofDyadic (a != b) (m * n) (e + f)

/-- The sum, rounded once. A sum that cancels is the positive zero. -/
def add (x y : Double) : Double :=
  match x.view, y.view with
  | .nan, _ | _, .nan => nan
  | .infinite a, .infinite b => if a = b then infinity a else nan
  | .infinite a, _ | _, .infinite a => infinity a
  | .finite a m e, .finite b n f =>
    let least := min e f
    let sum := aligned a m e least + aligned b n f least
    if sum = 0 then ofMagnitude (a && b && m = 0) 0 else ofDyadic (decide (sum < 0)) sum.natAbs least

/-- The number of the other sign. -/
def neg (x : Double) : Double :=
  match x.view with
  | .nan => nan
  | .infinite a => infinity (!a)
  | .finite a m e => ofDyadic (!a) m e

/-- The quotient, rounded once. By zero it is infinite, or no number when zero is divided. -/
def div (x y : Double) : Double :=
  match x.view, y.view with
  | .nan, _ | _, .nan | .infinite _, .infinite _ => nan
  | .infinite a, .finite b _ _ => infinity (a != b)
  | .finite a _ _, .infinite b => ofMagnitude (a != b) 0
  | .finite a m e, .finite b n f =>
    if n = 0 then (if m = 0 then nan else infinity (a != b))
    else ofRatio (a != b) (m * twoTo (e - f).toNat) (n * twoTo (f - e).toNat)

instance : Mul Double := ⟨mul⟩

instance : Div Double := ⟨div⟩

instance : Add Double := ⟨add⟩

instance : Sub Double := ⟨fun x y => add x y.neg⟩

end Double

end Polyquery
