import ThingHub.Json.Skip
import ThingHub.Json.Writer

/-! Records: structures with named fields, each with a default. A record is written as
an object, and may also be given as an array of its fields in order. Fields that are
not known are passed over; a known one may not come twice. -/

namespace ThingHub.Json

/-- A field of a record: its name, and a reader of the change that it makes. -/
structure Field (ρ : Type) where
  name : String
  read : Reader (ρ → ρ)

/-- A scalar of the kind that `take` accepts. -/
def readKind {α : Type} (take : Json → Option α) : Reader α
  | bytes =>
    match skipBlank bytes with
    | [] => .error .truncated
    | b :: rest =>
      if b = 0x5b ∨ b = 0x7b then .error .mismatched
      else match readScalar b rest with
        | .error fault => .error fault
        | .ok (value, rest) =>
          match take value with
          | none => .error .mismatched
          | some a => .ok (a, rest)

namespace Field

variable {ρ : Type}

def of {α : Type} (name : String) (reader : Reader α) (put : α → ρ → ρ) : Field ρ where
  name := name
  read bytes := (reader bytes).map fun (a, rest) => (put a, rest)

/-- The number of a value, if it has no sign and is below `2 ^ bits`. -/
def natural? (bits : Nat) : Json → Option Nat
  | .number (.int n) => if 0 ≤ n ∧ n < Nat.pow 2 bits then some n.toNat else none
  | _ => none

def word16 (name : String) (put : UInt16 → ρ → ρ) : Field ρ :=
  of name (readKind fun value => (natural? 16 value).map UInt16.ofNat) put

def word64 (name : String) (put : UInt64 → ρ → ρ) : Field ρ :=
  of name (readKind fun value => (natural? 64 value).map UInt64.ofNat) put

def boolean (name : String) (put : Bool → ρ → ρ) : Field ρ :=
  of name (readKind fun
    | .bool b => some b
    | _ => none) put

def text (name : String) (put : String → ρ → ρ) : Field ρ :=
  of name (readKind Json.string?) put

/-- A string, or null for none. -/
def optionalText (name : String) (put : Option String → ρ → ρ) : Field ρ :=
  of name (readKind fun
    | .null => some none
    | .string s => some (some s)
    | _ => none) put

end Field

/-- The members of a record behind the brace. -/
def recordMembers {ρ : Type} (fields : List (Field ρ)) :
    (turns : Nat) → (first : Bool) → (seen : List String) → ρ → Reader ρ
  | 0, _, _, _, _ => .error .truncated
  | turns + 1, first, seen, value, bytes =>
    match readName first bytes with
    | .error fault => .error fault
    | .ok (none, rest) => .ok (value, rest)
    | .ok (some name, rest) =>
      match fields.find? (·.name == name) with
      | some field =>
        if name ∈ seen then .error .mismatched
        else match readColon rest with
          | .error fault => .error fault
          | .ok rest =>
            match field.read rest with
            | .error fault => .error fault
            | .ok (change, rest) =>
              recordMembers fields turns false (name :: seen) (change value) rest
      | none =>
        match readColon rest with
        | .error fault => .error fault
        | .ok rest =>
          match skipValue rest with
          | .error fault => .error fault
          | .ok rest => recordMembers fields turns false seen value rest

/-- The fields of a record in order behind the bracket. The array may end early, and
may not go on behind the last field. -/
def recordItems {ρ : Type} : List (Field ρ) → (first : Bool) → ρ → Reader ρ
  | [], _, value, bytes =>
    match skipBlank bytes with
    | [] => .error .truncated
    | b :: rest => if b = 0x5d then .ok (value, rest) else .error .malformed
  | field :: fields, first, value, bytes =>
    match skipBlank bytes with
    | [] => .error .truncated
    | b :: rest =>
      if b = 0x5d then .ok (value, rest)
      else
        let start : Except Fault Bytes :=
          if first then .ok (b :: rest)
          else if b = 0x2c then
            match skipBlank rest with
            | [] => .error .truncated
            | c :: rest => if c = 0x5d then .error .malformed else .ok (c :: rest)
          else .error .malformed
        match start with
        | .error fault => .error fault
        | .ok bytes =>
          match field.read bytes with
          | .error fault => .error fault
          | .ok (change, rest) => recordItems fields false (change value) rest

/-- A record, starting from the default value. -/
def record {ρ : Type} (fields : List (Field ρ)) (default : ρ) : Reader ρ
  | bytes =>
    match skipBlank bytes with
    | [] => .error .truncated
    | b :: rest =>
      if b = 0x7b then recordMembers fields (rest.length + 1) true [] default rest
      else if b = 0x5b then recordItems fields true default rest
      else .error (mismatch b rest)

/-- The text of a record with these members. -/
def writeRecord (members : List (String × List Char)) : List Char :=
  match members with
  | [] => ['\x7b', '\x7d']
  | (name, value) :: rest =>
    '\x7b' :: writeText name ++ ':' :: value ++
      rest.flatMap (fun (name, value) => ',' :: writeText name ++ ':' :: value) ++ ['\x7d']

end ThingHub.Json
