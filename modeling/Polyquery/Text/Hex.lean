import Polyquery.Text.Quoted

/-! Byte strings in hexadecimal digits, two for each byte. -/

namespace Polyquery.Text

/-- The value of a hexadecimal digit. -/
def hexDigit (c : Char) : Nat :=
  if c.isDigit then c.toNat - '0'.toNat else c.toLower.toNat - 'a'.toNat + 10

/-- The digits of bytes. -/
def hexOfBytes (bs : List UInt8) : List Char := bs.flatMap fun b => hex 2 b.toNat

/-- The bytes of digits. A last digit without a partner is left out. -/
def bytesOfHex : List Char → List UInt8
  | high :: low :: rest => UInt8.ofNat (hexDigit high * 16 + hexDigit low) :: bytesOfHex rest
  | _ => []

end Polyquery.Text
