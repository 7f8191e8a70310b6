import ThingHub.Pem.Base64

/-! Sections of a text file that carry octets. A section stands between a `BEGIN` and an
`END` line with the same label; the lines in between are read together. -/

namespace ThingHub.Pem

/-- Lines end at a line feed or at a carriage return. -/
def lines : Bytes → List Bytes
  | [] => [[]]
  | b :: rest =>
    if b = 0x0a ∨ b = 0x0d then [] :: lines rest
    else match lines rest with
      | [] => [[b]]
      | line :: others => (b :: line) :: others

/-- What a label says about a section. -/
inductive Label
  | certificate
  /-- A private key for RSA alone. -/
  | rsaKey
  /-- A private key that names its algorithm. -/
  | privateKey
  /-- A private key on an elliptic curve. -/
  | ecKey
  /-- Anything else that has a known form. -/
  | other
  deriving DecidableEq, Repr

def Label.names : List (String × Label) := [
  ("CERTIFICATE", .certificate),
  ("RSA PRIVATE KEY", .rsaKey),
  ("PRIVATE KEY", .privateKey),
  ("EC PRIVATE KEY", .ecKey),
  ("PUBLIC KEY", .other),
  ("X509 CRL", .other),
  ("CERTIFICATE REQUEST", .other),
  ("ECHCONFIG", .other)]

def Label.ofBytes? (name : Bytes) : Option Label :=
  (names.find? fun entry => Bytes.ofText entry.1 == name).map Prod.snd

structure Section where
  label : Label
  der : Bytes
  deriving DecidableEq, Repr

inductive Fault
  /-- A `BEGIN` line does not end in exactly five dashes. -/
  | illegalBegin
  /-- The file ends inside a section. -/
  | missingEnd
  /-- A section holds something else than letters of base 64. -/
  | badContent
  deriving DecidableEq, Repr

def beginMark : Bytes := Bytes.ofText "-----BEGIN "

def endMark (label : Bytes) : Bytes :=
  Bytes.ofText "-----END " ++ label ++ Bytes.ofText "-----"

/-- Drops dashes from a reversed line and counts them, past any spaces between. Gives
what stands before the first of them, which keeps the spaces before it. -/
def dropDashes (count : Nat) (before : Bytes) : Bytes → Nat × Bytes
  | [] => (count, before)
  | b :: rest =>
    if b = 0x2d then dropDashes (count + 1) rest rest
    else if b = 0x20 then dropDashes count before rest
    else (count, before)

/-- The label of a `BEGIN` line, whose mark is taken off already. -/
def label? (line : Bytes) : Option Bytes :=
  let reversed := (beginMark ++ line).reverse
  let (count, before) := dropDashes 0 reversed reversed
  if count = 5 then some (before.reverse.drop beginMark.length) else none

/-- The sections of a file from some line on, with the label that is open and the
content read so far. A fault is the last that is read. Sections with an unknown label
are passed over, and a `BEGIN` inside a section opens the next one at once. -/
def scan (current : Option Bytes) (content : Bytes) : List Bytes → List (Except Fault Section)
  | [] => if current.isSome then [.error .missingEnd] else []
  | line :: rest =>
    if beginMark.isPrefixOf line then
      match label? (line.drop beginMark.length) with
      | none => [.error .illegalBegin]
      | some label => scan (some label) content rest
    else
      match current with
      | none => scan none content rest
      | some name =>
        if (endMark name).isPrefixOf line then
          match Label.ofBytes? name with
          | none => scan none [] rest
          | some label =>
            match Base64.decode? content with
            | none => [.error .badContent]
            | some der => .ok ⟨label, der⟩ :: scan none [] rest
        else scan (some name) (content ++ line) rest

def sections (file : Bytes) : List (Except Fault Section) :=
  scan none [] (lines file)

/-- The certificates of a file, which must be well-formed to its end. -/
def certificates (file : Bytes) : Except Fault (List Bytes) :=
  ((sections file).mapM id).map fun found =>
    (found.filter (·.label = .certificate)).map (·.der)

/-- The first section that a condition holds of; what stands behind it is not read. -/
def first? (wanted : Section → Bool) : List (Except Fault Section) →
    Except Fault (Option Section)
  | [] => .ok none
  | .error fault :: _ => .error fault
  | .ok found :: rest => if wanted found then .ok (some found) else first? wanted rest

end ThingHub.Pem
