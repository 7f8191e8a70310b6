import ThingHub.Der.Element
import ThingHub.Key.Edwards
import ThingHub.Key.Rsa
import ThingHub.Key.ShortCurve

/-! Private keys as they are kept in files. A key can be used if it has the form that it
should have and its public part belongs to its secret. -/

namespace ThingHub

/-- The format of a private key. -/
inductive KeyFormat
  /-- For RSA alone. -/
  | pkcs1
  /-- For elliptic curves alone. -/
  | sec1
  /-- For any algorithm, which it names. -/
  | pkcs8
  deriving DecidableEq, Repr

structure PrivateKey where
  format : KeyFormat
  der : Bytes
  deriving DecidableEq, Repr

open Der

/-- A key on a curve as its file gives it: its secret, the curve if that is named, and
the point of the public key. -/
structure CurveKey where
  secret : Bytes
  curve : Option Bytes
  point : Bytes
  deriving DecidableEq, Repr

/-- The point is optional in this format in general, but not here. -/
def CurveKey.read? (der : Bytes) : Option CurveKey := do
  let content ← only? sequence der
  match ← takeAll? [integer, octetString] content with
  | ([version, secret], rest) =>
    if natural? version ≠ some 1 then none
    else
      let (curve, rest) ←
        if rest.head? = some (contextual 0) then
          (take? (contextual 0) rest).map fun (name, rest) => (some name, rest)
        else some (none, rest)
      let bits ← (only? (contextual 1) rest).bind (only? bitString)
      return ⟨secret, curve, ← wholeBits? bits⟩
  | _ => none

/-- The name of a curve as an element. -/
def ShortCurve.names : List (ShortCurve × Bytes) := [
  (.p256, [0x06, 0x08, 0x2a, 0x86, 0x48, 0xce, 0x3d, 0x03, 0x01, 0x07]),
  (.p384, [0x06, 0x05, 0x2b, 0x81, 0x04, 0x00, 0x22])]

/-- The public key of a secret: a mark for both coordinates, and the coordinates. -/
def ShortCurve.publicKey (curve : ShortCurve) (secret : Nat) : Bytes :=
  match curve.publicPoint secret with
  | none => [0]
  | some (x, y) => 0x04 :: (Bytes.ofNat curve.width x ++ Bytes.ofNat curve.width y)

/-- A key belongs to a curve if it names no other curve, and its point is the public key
of its secret. -/
def CurveKey.belongsTo (key : CurveKey) (curve : ShortCurve) (name : Bytes) : Bool :=
  let secret := Bytes.toNat key.secret
  (key.curve = none || key.curve = some name) && key.secret.length = curve.width &&
    curve.isSecret secret && key.point = curve.publicKey secret

def RsaKey.read? (der : Bytes) : Option RsaKey := do
  let content ← only? sequence der
  match ← takeAll? (List.replicate 9 integer) content with
  | (numbers, []) =>
    match ← numbers.mapM natural? with
    | [0, n, e, d, p, q, dp, dq, inverse] => some ⟨n, e, d, p, q, dp, dq, inverse⟩
    | _ => none
  | _ => none

def isRsaKey (der : Bytes) : Bool := (RsaKey.read? der).any (·.isConsistent)

/-- A key that names its algorithm. -/
structure NamedKey where
  /-- The second version can carry the public key too. -/
  second : Bool
  algorithm : Bytes
  content : Bytes
  /-- What stands behind the key and its attributes. -/
  rest : Bytes
  deriving DecidableEq, Repr

def NamedKey.read? (der : Bytes) : Option NamedKey := do
  match ← (only? sequence der).bind (takeAll? [integer, sequence, octetString]) with
  | ([version, algorithm, content], rest) =>
    let second ← match natural? version with
      | some 0 => some false
      | some 1 => some true
      | _ => none
    let rest ←
      if rest.head? = some (contextual 0) then (take? (contextual 0) rest).map (·.2)
      else some rest
    return ⟨second, algorithm, content, rest⟩
  | _ => none

/-- The name of RSA, with the empty parameters that belong to it. -/
def rsaName : Bytes :=
  [0x06, 0x09, 0x2a, 0x86, 0x48, 0x86, 0xf7, 0x0d, 0x01, 0x01, 0x01, 0x05, 0x00]

/-- The name of keys on a curve, whose parameter is the curve. -/
def curveKeyName : Bytes := [0x06, 0x07, 0x2a, 0x86, 0x48, 0xce, 0x3d, 0x02, 0x01]

/-- The name of keys on the Edwards curve, without parameters. -/
def edwardsName : Bytes := [0x06, 0x03, 0x2b, 0x65, 0x70]

/-- The public key in the second version: a bit string under the tag with the number one,
or, as some write it, inside that tag. -/
def NamedKey.publicKey? (key : NamedKey) : Option Bytes :=
  if key.rest.head? = some (contextual 1) then
    ((only? (contextual 1) key.rest).bind (only? bitString)).bind wholeBits?
  else (only? 0x81 key.rest).bind wholeBits?

/-- A seed of 32 octets; if there is a public key, it is the one of the seed. -/
def NamedKey.isEdwardsKey (key : NamedKey) : Bool :=
  match only? octetString key.content with
  | none => false
  | some seed =>
    seed.length = 32 &&
      if key.second then key.publicKey? = some (Edwards.publicKey seed) else key.rest.isEmpty

/-- Only keys on the Edwards curve have a second version. -/
def NamedKey.isValid (key : NamedKey) : Bool :=
  if key.algorithm = edwardsName then key.isEdwardsKey
  else if key.second || !key.rest.isEmpty then false
  else if key.algorithm = rsaName then isRsaKey key.content
  else
    ShortCurve.names.any fun (curve, name) =>
      key.algorithm = curveKeyName ++ name &&
        (CurveKey.read? key.content).any (·.belongsTo curve name)

/-- Whether a key can be used. -/
def PrivateKey.isValid (key : PrivateKey) : Bool :=
  match key.format with
  | .pkcs1 => isRsaKey key.der
  | .sec1 =>
    (CurveKey.read? key.der).any fun found =>
      ShortCurve.names.any fun (curve, name) => found.belongsTo curve name
  | .pkcs8 => (NamedKey.read? key.der).any (·.isValid)

end ThingHub
