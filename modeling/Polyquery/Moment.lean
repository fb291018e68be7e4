/-! Moments in universal time, as they mark deleted rows. -/

namespace Polyquery

/-- A moment to the second. -/
structure Moment where
  year : Nat
  month : Nat
  day : Nat
  hour : Nat
  minute : Nat
  second : Nat
deriving DecidableEq, Repr

namespace Moment

/-- A number in at least as many digits as the width, with zeros in front. -/
def padded (width n : Nat) : String :=
  let digits := Nat.toDigits 10 n
  String.ofList (List.replicate (width - digits.length) '0' ++ digits)

/-- The date of a moment. -/
def date (m : Moment) : String := padded 4 m.year ++ "-" ++ padded 2 m.month ++ "-" ++ padded 2 m.day

/-- The time of a moment. -/
def time (m : Moment) : String := padded 2 m.hour ++ ":" ++ padded 2 m.minute ++ ":" ++ padded 2 m.second

/-- The text of a moment: date and time, and the offset of universal time. -/
def text (m : Moment) : String := m.date ++ "T" ++ m.time ++ "+00:00"

end Moment

end Polyquery
