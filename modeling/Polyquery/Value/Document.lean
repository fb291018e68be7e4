import Polyquery.Failure

/-! Values as JSON documents, in ASCII. Byte strings and sets have no document form, and neither have mappings
with keys other than scalars. -/

namespace Polyquery

namespace Value

/-- A character of a document text. Characters beyond the first plane are written as two surrogates. -/
def documentChar (c : Char) : List Char :=
  let n := c.toNat
  if c = '"' || c = '\\' then ['\\', c]
  else if c = '\n' then ['\\', 'n']
  else if c = '\r' then ['\\', 'r']
  else if c = '\t' then ['\\', 't']
  else if n = 8 then ['\\', 'b']
  else if n = 12 then ['\\', 'f']
  else if 32 ≤ n && n < 127 then [c]
  else if n < 0x10000 then '\\' :: 'u' :: Text.hex 4 n
  else
    '\\' :: 'u' :: Text.hex 4 (0xd800 + (n - 0x10000) / 0x400) ++
      '\\' :: 'u' :: Text.hex 4 (0xdc00 + (n - 0x10000) % 0x400)

/-- A text of a document, between double quotes. -/
def documentText (s : String) : String := String.ofList ('"' :: s.toList.flatMap documentChar ++ ['"'])

/-- The document form of a scalar, and of a text without its quotes. -/
def documentScalar? : Value → Option String
  | .null => some "null"
  | .bool b => some (if b then "true" else "false")
  | .int n => some (toString n)
  | .real x => some (x.write Double.documentStyle)
  | .text s => some s
  | _ => none

mutual

/-- The document of a value, if it has one. -/
def document? : Value → Option String
  | .text s => some (documentText s)
  | .list xs | .tuple xs => (documents? xs).map fun texts => "[" ++ Text.joined ", " texts ++ "]"
  | .map entries => (entryDocuments? entries).map fun texts => "\x7b" ++ Text.joined ", " texts ++ "\x7d"
  | v => documentScalar? v

/-- The documents of the members of a list. -/
def documents? : List Value → Option (List String)
  | [] => some []
  | x :: xs => match x.document?, documents? xs with
    | some t, some ts => some (t :: ts)
    | _, _ => none

/-- The documents of the entries of a mapping. -/
def entryDocuments? : List (Value × Value) → Option (List String)
  | [] => some []
  | (k, v) :: rest => match documentScalar? k, v.document?, entryDocuments? rest with
    | some key, some t, some ts => some ((documentText key ++ ": " ++ t) :: ts)
    | _, _, _ => none

end

/-- The length of the longest beginning of a byte string that encodes a text. -/
def encodedLength (bs : List UInt8) : Nat :=
  ((List.range (bs.length + 1)).reverse.find? fun n => (decode? (bs.take n)).isSome).getD 0

/-- Whether a byte string breaks off within a character: with more bytes of the kind that continue one, all of
them the least or all of them the greatest, it encodes a text. -/
def breaksOff (bs : List UInt8) : Bool :=
  [1, 2, 3].any fun n => [0x80, 0xbf].any fun b => (decode? (bs ++ List.replicate n b)).isSome

/-- The bytes at fault in front of a byte string: its longest beginning that breaks off within a character, or its
first byte. -/
def faulty (bs : List UInt8) : List UInt8 :=
  bs.take (([3, 2].find? fun n => n ≤ bs.length && breaksOff (bs.take n)).getD 1)

/-- The text that a byte string encodes; the failure tells of the first bytes that belong to none. -/
def decoded (bs : List UInt8) : Except Failure String :=
  match decode? bs with
  | some s => .ok s
  | none =>
    let position := encodedLength bs
    .error (.of (.undecodable (faulty (bs.drop position)) position))

mutual

/-- The name of a key in document data: a tuple is the names of its members, with commas. -/
def dataKey : Value → Except Failure String
  | .bool b => .ok (if b then "true" else "false")
  | .real x => .ok (if x.isFinite then x.text else "None")
  | .text s => .ok s
  | .bytes bs => decoded bs
  | .tuple xs => (dataKeys xs).map (Text.joined ",")
  | v => .ok v.literal

/-- The names of the members of a tuple. -/
def dataKeys : List Value → Except Failure (List String)
  | [] => .ok []
  | x :: xs => do return (← dataKey x) :: (← dataKeys xs)

end

/-- How many collections may stand inside one another in document data. -/
def documentDepth : Nat := 254

/-- The room that a collection leaves to its members; one that stands too deep is refused. -/
def documentRoom : Nat → Except Failure Nat
  | 0 => .error (.badValue "Maximum serialization depth exceeded")
  | room + 1 => .ok room

mutual

/-- A value as document data, with room for so many collections inside one another: every collection of members is
a list, byte strings are texts, and numbers that are not finite are null. -/
def documentDataWithin (room : Nat) : Value → Except Failure Value
  | .real x => .ok (if x.isFinite then .real x else .null)
  | .bytes bs => (decoded bs).map .text
  | .list xs => do return .list (← documentMembers (← documentRoom room) xs)
  | .tuple xs => do return .list (← documentMembers (← documentRoom room) xs)
  | .set xs => do return .list (← documentMembers (← documentRoom room) xs)
  | .map entries => do return .map (ofEntries (← documentEntries (← documentRoom room) entries))
  | v => .ok v

/-- The members of a collection as document data. -/
def documentMembers (room : Nat) : List Value → Except Failure (List Value)
  | [] => .ok []
  | x :: xs => do return (← x.documentDataWithin room) :: (← documentMembers room xs)

/-- The entries of a mapping as document data. -/
def documentEntries (room : Nat) : List (Value × Value) → Except Failure (List (Value × Value))
  | [] => .ok []
  | (k, v) :: rest => do
    let key ← dataKey k
    return (.text key, ← v.documentDataWithin room) :: (← documentEntries room rest)

end

/-- A value as document data. The names of keys take no room. -/
def documentData (v : Value) : Except Failure Value := v.documentDataWithin documentDepth

end Value

end Polyquery
