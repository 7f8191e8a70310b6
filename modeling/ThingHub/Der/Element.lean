import ThingHub.Data.Bytes

/-! Octets in the distinguished encoding: elements with a tag, a length and a content. -/

namespace ThingHub.Der

def integer : UInt8 := 0x02
def bitString : UInt8 := 0x03
def octetString : UInt8 := 0x04
def objectId : UInt8 := 0x06
def boolean : UInt8 := 0x01
def sequence : UInt8 := 0x30

/-- The constructed tag with a number of its own. -/
def contextual (n : Nat) : UInt8 := UInt8.ofNat (0xa0 + n)

/-- The length of an element, in the fewest octets that can give it, which are at most
two behind the first. -/
def length? : Bytes → Option (Nat × Bytes)
  | [] => none
  | b :: rest =>
    if b < 0x80 then some (b.toNat, rest)
    else
      let count := b.toNat - 0x80
      let n := Bytes.toNat (rest.take count)
      if 1 ≤ count ∧ count ≤ 2 ∧ count ≤ rest.length ∧
          (if count = 1 then 0x80 else Nat.pow 256 (count - 1)) ≤ n then
        some (n, rest.drop count)
      else none

/-- The content of an element with this tag, and what stands behind it. -/
def take? (tag : UInt8) : Bytes → Option (Bytes × Bytes)
  | [] => none
  | b :: rest =>
    if b = tag then
      match length? rest with
      | none => none
      | some (n, rest) => if n ≤ rest.length then some (rest.take n, rest.drop n) else none
    else none

/-- The content of an element that is all there is. -/
def only? (tag : UInt8) (bytes : Bytes) : Option Bytes :=
  match take? tag bytes with
  | some (content, []) => some content
  | _ => none

/-- The contents of elements with these tags, one after the other. -/
def takeAll? : List UInt8 → Bytes → Option (List Bytes × Bytes)
  | [], bytes => some ([], bytes)
  | tag :: tags, bytes =>
    (take? tag bytes).bind fun (content, rest) =>
      (takeAll? tags rest).map fun (contents, rest) => (content :: contents, rest)

/-- The contents of elements with one tag that are all there is. Every element takes at
least two octets, so there are fewer of them than octets. -/
def every? (tag : UInt8) : (turns : Nat) → Bytes → Option (List Bytes)
  | _, [] => some []
  | 0, _ :: _ => none
  | turns + 1, bytes =>
    (take? tag bytes).bind fun (content, rest) => (every? tag turns rest).map (content :: ·)

/-- The number that the content of an integer gives, unless it is negative or begins with
an octet too many. -/
def natural? : Bytes → Option Nat
  | [] => none
  | [b] => if b < 0x80 then some b.toNat else none
  | b :: c :: rest =>
    if b < 0x80 ∧ (b ≠ 0 ∨ 0x80 ≤ c) then some (Bytes.toNat (b :: c :: rest)) else none

/-- The octets that the content of a bit string gives, when it uses all their bits. -/
def wholeBits? : Bytes → Option Bytes
  | [] => none
  | unused :: bits => if unused = 0 then some bits else none

end ThingHub.Der
