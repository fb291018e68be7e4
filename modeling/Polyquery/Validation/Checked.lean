import Polyquery.Association
import Polyquery.Failure
import Polyquery.Number.Reader
import Polyquery.Text.Numeral

/-! Checking data from callers. A check reads a value and answers what it stands for, or all that is wrong with
it: checks of several fields are all made, and their issues collected. -/

namespace Polyquery

/-- The outcome of a check. -/
inductive Checked (α : Type) where
  | ok (value : α)
  | bad (issues : List Issue)

namespace Checked

variable {α β : Type}

def map (f : α → β) : Checked α → Checked β
  | ok a => ok (f a)
  | bad issues => bad issues

/-- Applies a checked function to a checked argument, keeping the issues of both. -/
def apply (f : Checked (α → β)) (x : Checked α) : Checked β :=
  match f, x with
  | ok f, ok a => ok (f a)
  | ok _, bad issues => bad issues
  | bad issues, ok _ => bad issues
  | bad issues, bad more => bad (issues ++ more)

instance : Applicative Checked where
  pure := ok
  seq f x := apply f (x ())

/-- The issues as seen from one step further out. -/
def under (step : PathStep) : Checked α → Checked α
  | ok a => ok a
  | bad issues => bad (issues.map (Issue.under step))

/-- A broken rule, and the value that breaks it. -/
def issue (kind : IssueKind) (given : Value) : Checked α := bad [⟨[], kind, given⟩]

/-- A check followed by a further condition on its value. -/
def filter (p : α → Bool) (kind : IssueKind) (given : Value) : Checked α → Checked α
  | ok a => if p a then ok a else issue kind given
  | bad issues => bad issues

/-- A checked value with further issues. -/
def withIssues (issues : List Issue) : Checked α → Checked α
  | ok a => if issues.isEmpty then ok a else bad issues
  | bad more => bad (more ++ issues)

/-- All checked values in order, or all issues. -/
def all : List (Checked α) → Checked (List α)
  | [] => ok []
  | x :: rest => List.cons <$> x <*> all rest

/-- The outcome of a check as one of a call. -/
def toExcept : Checked α → Except Failure α
  | ok a => .ok a
  | bad issues => .error (.of (.badData issues))

end Checked

namespace Check

open Checked

variable {α : Type}

def any (v : Value) : Checked Value := .ok v

/-- A text, or a byte string that encodes one. -/
def text : Value → Checked String
  | .text s => .ok s
  | .bytes bs => match Value.decode? bs with
    | some s => .ok s
    | none => issue .notEncoded (.bytes bs)
  | v => issue .notText v

/-- A text or null. -/
def optionalText : Value → Checked (Option String)
  | .null => .ok none
  | v => (text v).map some

/-- The words for the truth values. -/
def boolWords : List (String × Bool) :=
  [("0", false), ("off", false), ("f", false), ("false", false), ("n", false), ("no", false),
   ("1", true), ("on", true), ("t", true), ("true", true), ("y", true), ("yes", true)]

/-- The truth value of a word in any case of ASCII letters. -/
def boolOfText? (s : String) : Option Bool :=
  let word := String.ofList (s.toList.map Char.toLower)
  (boolWords.find? fun entry => entry.1 = word).map (·.2)

/-- Two to the power of sixty-three. -/
def shortLimit : Int := 9223372036854775808

/-- Whether an integer fits into sixty-four bits. -/
def isShort (n : Int) : Bool := -shortLimit ≤ n && n < shortLimit

/-- A truth value as a number: zero or one, among the integers of sixty-four bits. -/
def boolOfInt (given : Value) (n : Int) : Checked Bool :=
  if n = 0 then .ok false else if n = 1 then .ok true
  else issue (if isShort n then .unreadableBool else .notBool) given

/-- A truth value, the numbers zero and one, or a word for either. -/
def bool (v : Value) : Checked Bool :=
  match v with
  | .bool b => .ok b
  | .int n => boolOfInt v n
  | .real x => match x.toInt? with
    | some n => if n = -shortLimit then issue .notBool v else boolOfInt v n
    | none => issue .notBool v
  | .text s => optional (boolOfText? s)
  | .bytes bs => optional ((Value.decode? bs).bind boolOfText?)
  | v => issue .notBool v
where
  optional : Option Bool → Checked Bool
    | some b => .ok b
    | none => issue .unreadableBool v

/-- An integer, a number without a fraction, or the text of one. Numbers with a point are integers of sixty-four
bits. -/
def integer (v : Value) : Checked Int :=
  match v with
  | .int n => .ok n
  | .bool b => .ok (if b then 1 else 0)
  | .real x => match x.toInt? with
    | some n => if isShort n && n ≠ -shortLimit then .ok n else issue .tooManyDigits v
    | none => issue (if x.truncate?.isSome then .fractionalInteger else .notFinite) v
  | .text s => read (Text.settingInteger s.toList)
  | .bytes bs => match Value.decode? bs with
    | some s => read (Text.settingInteger s.toList)
    | none => issue .unreadableInteger v
  | v => issue .notInteger v
where
  read : Except Text.NumeralFault Int → Checked Int
    | .ok n => .ok n
    | .error .malformed => issue .unreadableInteger v
    | .error (.tooLong _) => issue .tooManyDigits v

def optionalInteger : Value → Checked (Option Int)
  | .null => .ok none
  | v => (integer v).map some

/-- An integer that is not below a bound. -/
def integerFrom (least : Int) (v : Value) : Checked Int :=
  (integer v).filter (fun n => decide (least ≤ n)) .tooSmall v

/-- A number, or the text of one. An integer beyond all numbers is none. -/
def number (v : Value) : Checked Double :=
  match v with
  | .real x => .ok x
  | .int n => if (Double.ofInt n).isInfinite then issue .notNumber v else .ok (.ofInt n)
  | .bool b => .ok (.ofInt (if b then 1 else 0))
  | .text s => optional (Double.ofSetting? s.toList)
  | .bytes bs => optional ((Value.decode? bs).bind fun s => Double.ofSetting? s.toList)
  | v => issue .notNumber v
where
  optional : Option Double → Checked Double
    | some x => .ok x
    | none => issue .unreadableNumber v

/-- A number that is not below zero. -/
def nonNegative (v : Value) : Checked Double :=
  (number v).filter (fun x => !x.isNan && !x.less (.ofInt 0)) .tooSmall v

/-- One of some words, spelt exactly by a text. -/
def word (words : List (String × α)) (otherwise : IssueKind) (v : Value) : Checked α :=
  match v with
  | .text s => match Association.find? s words with
    | some meaning => .ok meaning
    | none => issue otherwise v
  | v => issue otherwise v

/-- One of some words, spelt exactly by a text or by a byte string that encodes one. -/
def encodedWord (words : List (String × α)) (otherwise : IssueKind) (v : Value) : Checked α :=
  match v with
  | .bytes bs => match (Value.decode? bs).bind fun s => Association.find? s words with
    | some meaning => .ok meaning
    | none => issue otherwise v
  | v => word words otherwise v

/-- The members of a collection, each checked in its place. -/
def members (otherwise : IssueKind) (check : Value → Checked α) : Value → Checked (List α)
  | .list xs | .tuple xs | .set xs => Checked.all (xs.zipIdx.map fun (x, i) => (check x).under (.index (Int.ofNat i)))
  | v => issue otherwise v

def list (check : Value → Checked α) : Value → Checked (List α) := members .notList check

/-- The fields of a mapping. -/
abbrev Fields := List (Value × Value)

/-- A field that may be absent. -/
def fieldOr (name : String) (absent : α) (check : Value → Checked α) (fields : Fields) : Checked α :=
  match Value.field? name fields with
  | some v => (check v).under (.field name)
  | none => .ok absent

/-- A field that must be there. -/
def field (name : String) (check : Value → Checked α) (fields : Fields) : Checked α :=
  match Value.field? name fields with
  | some v => (check v).under (.field name)
  | none => (issue .missing (.map fields) : Checked α).under (.field name)

/-- The step to the value of a key. -/
def stepOf (key : Value) : PathStep :=
  match key.integral? with
  | some n => if isShort n then .index n else .field (toString n)
  | none => .field key.plain

/-- An issue for each key that is no name. -/
def unnamedFields (fields : Fields) : List Issue :=
  fields.filterMap fun (k, _) => match k with
    | .text _ => none
    | _ => some ⟨[stepOf k], .notAName, k⟩

/-- An issue for each field that is not known, or has no name. -/
def unknownFields (kind : IssueKind) (known : List String) (fields : Fields) : List Issue :=
  unnamedFields fields ++ fields.filterMap fun (k, v) => match k with
    | .text name => if known.contains name then none else some ⟨[.field name], kind, v⟩
    | _ => none

/-- A mapping whose known fields are checked, and which has no others. -/
def record (otherwise unknown : IssueKind) (known : List String) (check : Fields → Checked α) :
    Value → Checked α
  | .map fields => (check fields).withIssues (unknownFields unknown known fields)
  | v => issue otherwise v

end Check

end Polyquery
