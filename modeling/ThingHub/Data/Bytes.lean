/-! Octets, the form in which messages and files arrive. -/

namespace ThingHub

/-- A sequence of octets. -/
abbrev Bytes := List UInt8

/-- The UTF-8 form of a text, character by character. -/
def Bytes.ofChars (chars : List Char) : Bytes :=
  chars.flatMap String.utf8EncodeChar

def Bytes.ofText (text : String) : Bytes :=
  ofChars text.toList

/-- The text whose UTF-8 form the octets are, if there is one. -/
def Bytes.text? (bytes : Bytes) : Option String :=
  String.fromUTF8? bytes.toByteArray

/-- The number that octets give, the most significant first. -/
def Bytes.toNat (bytes : Bytes) : Nat :=
  bytes.foldl (fun n b => n * 256 + b.toNat) 0

/-- The lowest octets of a number, so many of them, the most significant first. -/
def Bytes.ofNat : (width : Nat) → Nat → Bytes
  | 0, _ => []
  | width + 1, n => UInt8.ofNat (n / Nat.pow 256 width) :: ofNat width n

end ThingHub
