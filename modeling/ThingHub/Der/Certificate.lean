import ThingHub.Der.Element

/-! The structure of certificates, as far as it decides whether one can be trusted at
all. Names, dates and the signature are not looked into. -/

namespace ThingHub.Der

/-- An extension of a certificate. -/
structure Extension where
  name : Bytes
  /-- A reader that does not know the extension must refuse the certificate. -/
  critical : Bool
  value : Bytes
  deriving DecidableEq, Repr

/-- A truth value, whose default is not written. -/
def truth? (bytes : Bytes) : Option (Bool × Bytes) :=
  if bytes.head? = some boolean then
    match take? boolean bytes with
    | some ([0xff], rest) => some (true, rest)
    | some ([0x00], rest) => some (false, rest)
    | _ => none
  else some (false, bytes)

def Extension.read? (content : Bytes) : Option Extension := do
  let (name, rest) ← take? objectId content
  let (critical, rest) ← truth? rest
  let value ← only? octetString rest
  return ⟨name, critical, value⟩

def keyUsage : UInt8 := 15

/-- The standard extensions that are looked at: the usage of the key, other names, basic
constraints, name constraints, where to find revocations, and the extended usage. -/
def knownExtensions : List UInt8 := [keyUsage, 17, 19, 30, 31, 37]

/-- The number of an extension that is looked at. -/
def Extension.known? (extension : Extension) : Option UInt8 :=
  match extension.name with
  | [0x55, 0x1d, n] => if knownExtensions.contains n then some n else none
  | _ => none

/-- An extension that is known holds one sequence, the usage of the key apart; one that
is not known may not be critical. -/
def Extension.isAcceptable (extension : Extension) : Bool :=
  match extension.known? with
  | some n => n = keyUsage || (only? sequence extension.value).isSome
  | none => !extension.critical

/-- Extensions are optional and come last. There is at least one, and a known one comes
once. -/
def areExtensions (bytes : Bytes) : Bool :=
  bytes.isEmpty ||
    match (only? (contextual 3) bytes).bind (only? sequence) with
    | none => false
    | some list =>
      match (every? sequence list.length list).bind (·.mapM Extension.read?) with
      | none => false
      | some extensions =>
        !extensions.isEmpty && extensions.all (·.isAcceptable) &&
          (extensions.filterMap (·.known?)).Nodup

/-- What is signed in a certificate of version 3. It names the algorithm of the
signature once more. -/
def isVersion3 (algorithm signed : Bytes) : Bool :=
  match takeAll? [contextual 0, integer, sequence, sequence, sequence, sequence, sequence]
      signed with
  | some ([version, _, named, _, _, _, _], rest) =>
    only? integer version == some [2] && named == algorithm && areExtensions rest
  | _ => false

/-- What is signed in a certificate of version 1, which does not give its version. -/
def isVersion1 (signed : Bytes) : Bool :=
  match takeAll? [integer, sequence, sequence, sequence, sequence, sequence] signed with
  | some (_, rest) => rest.isEmpty
  | none => false

def isCertificate (der : Bytes) : Bool :=
  match (only? sequence der).bind (takeAll? [sequence, sequence, bitString]) with
  | some ([signed, algorithm, signature], []) =>
    (wholeBits? signature).isSome && (isVersion3 algorithm signed || isVersion1 signed)
  | _ => false

end ThingHub.Der
