import ThingHub.Data.Bytes

/-! Octets written with sixty-four letters, six bits each. -/

namespace ThingHub.Base64

/-- The number of a letter. -/
def value? (b : UInt8) : Option Nat :=
  if 0x41 ≤ b ∧ b ≤ 0x5a then some (b.toNat - 0x41)
  else if 0x61 ≤ b ∧ b ≤ 0x7a then some (b.toNat - 0x61 + 26)
  else if 0x30 ≤ b ∧ b ≤ 0x39 then some (b.toNat - 0x30 + 52)
  else if b = 0x2b then some 62
  else if b = 0x2f then some 63
  else none

/-- The letter of a number below sixty-four. -/
def letter (n : Nat) : UInt8 :=
  if n < 26 then UInt8.ofNat (n + 0x41)
  else if n < 52 then UInt8.ofNat (n - 26 + 0x61)
  else if n < 62 then UInt8.ofNat (n - 52 + 0x30)
  else if n = 62 then 0x2b
  else 0x2f

def isBlank (b : UInt8) : Bool :=
  b == 0x20 || (0x09 ≤ b && b ≤ 0x0d)

/-- Three octets for every four numbers. The bits that fill no octet are dropped. -/
def octets : List Nat → Bytes
  | a :: b :: c :: d :: rest =>
    UInt8.ofNat (a * 4 + b / 16) :: UInt8.ofNat (b % 16 * 16 + c / 4) ::
      UInt8.ofNat (c % 4 * 64 + d) :: octets rest
  | [a, b, c] => [UInt8.ofNat (a * 4 + b / 16), UInt8.ofNat (b % 16 * 16 + c / 4)]
  | [a, b] => [UInt8.ofNat (a * 4 + b / 16)]
  | _ => []

/-- Whether so many letters may stand before so many padding signs. One letter alone
says nothing about an octet; the padding is either missing or fills the last group of
four exactly. -/
def fits (letters padding : Nat) : Bool :=
  letters % 4 ≠ 1 && (padding = 0 || (padding ≤ 2 && (letters + padding) % 4 = 0))

/-- The octets of a text. Blanks count for nothing, and padding stands at the end. -/
def decode? (text : Bytes) : Option Bytes :=
  let marks := text.filter (!isBlank ·)
  let letters := marks.takeWhile (· ≠ 0x3d)
  let padding := marks.dropWhile (· ≠ 0x3d)
  if padding.all (· = 0x3d) && fits letters.length padding.length then
    (letters.mapM value?).map octets
  else none

/-- The text of octets, padded to whole groups of four letters. -/
def encode : Bytes → Bytes
  | a :: b :: c :: rest =>
    letter (a.toNat / 4) :: letter (a.toNat % 4 * 16 + b.toNat / 16) ::
      letter (b.toNat % 16 * 4 + c.toNat / 64) :: letter (c.toNat % 64) :: encode rest
  | [a, b] =>
    [letter (a.toNat / 4), letter (a.toNat % 4 * 16 + b.toNat / 16),
      letter (b.toNat % 16 * 4), 0x3d]
  | [a] => [letter (a.toNat / 4), letter (a.toNat % 4 * 16), 0x3d, 0x3d]
  | [] => []

end ThingHub.Base64
