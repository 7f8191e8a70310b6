import ThingHub.Data.Bytes
import ThingHub.Json.Value
import ThingHub.Number.Shortest

/-! JSON values as text, without any blanks. -/

namespace ThingHub.Json

/-- Doubles are positional from `0.00001` to below `10 ^ 16`. -/
def numberLayout : NumberLayout := ⟨-5, 15⟩

def writeInt (n : Int) : List Char :=
  if n < 0 then '-' :: Nat.toDigits 10 n.natAbs else Nat.toDigits 10 n.natAbs

def writeNumber : JsonNumber → List Char
  | .int n => writeInt n
  | .real x => x.text numberLayout

/-- The digit of a number below sixteen, in lower case. -/
def hexDigit (n : Nat) : Char :=
  if n < 10 then Char.ofNat ('0'.toNat + n) else Char.ofNat ('a'.toNat + (n - 10))

/-- Only quotes, backslashes and control characters need an escape. -/
def writeChar (c : Char) : List Char :=
  match c with
  | '"' => ['\\', '"']
  | '\\' => ['\\', '\\']
  | '\x08' => ['\\', 'b']
  | '\x0c' => ['\\', 'f']
  | '\n' => ['\\', 'n']
  | '\r' => ['\\', 'r']
  | '\t' => ['\\', 't']
  | c =>
    if c.toNat < 0x20 then
      ['\\', 'u', '0', '0', hexDigit (c.toNat / 16), hexDigit (c.toNat % 16)]
    else [c]

def writeText (text : String) : List Char :=
  '"' :: text.toList.flatMap writeChar ++ ['"']

mutual

def write : Json → List Char
  | .null => ['n', 'u', 'l', 'l']
  | .bool true => ['t', 'r', 'u', 'e']
  | .bool false => ['f', 'a', 'l', 's', 'e']
  | .number n => writeNumber n
  | .string text => writeText text
  | .array [] => ['[', ']']
  | .array (item :: items) => '[' :: write item ++ writeItems items
  | .object [] => ['\x7b', '\x7d']
  | .object ((name, item) :: members) =>
    '\x7b' :: writeText name ++ ':' :: write item ++ writeMembers members

/-- The items behind the first one, and the end of the array. -/
def writeItems : List Json → List Char
  | [] => [']']
  | item :: items => ',' :: write item ++ writeItems items

/-- The members behind the first one, and the end of the object. -/
def writeMembers : List (String × Json) → List Char
  | [] => ['\x7d']
  | (name, item) :: members =>
    ',' :: writeText name ++ ':' :: write item ++ writeMembers members

end

/-- The text of a value. -/
def render (value : Json) : String :=
  String.ofList (write value)

/-- The octets of a value. -/
def encode (value : Json) : Bytes :=
  Bytes.ofChars (write value)

end ThingHub.Json
