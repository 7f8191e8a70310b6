import ThingHub.Json.Reader

/-! Values that nobody asks for are checked for their form only, to any depth. Neither
the range of a number nor the pairing of surrogates belongs to the form, and a number
cut short is malformed here. -/

namespace ThingHub.Json

/-- A string behind its opening quote. -/
def skipString : Bytes → Except Fault Bytes
  | [] => .error .truncated
  | b :: rest =>
    if b = 0x22 then .ok rest
    else if b = 0x5c then
      match rest with
      | [] => .error .truncated
      | e :: rest =>
        if e = 0x75 then
          match rest with
          | h₁ :: h₂ :: h₃ :: h₄ :: rest =>
            if (hex4? h₁ h₂ h₃ h₄).isSome then skipString rest else .error .malformed
          | _ => .error .truncated
        else if (escaped? e).isSome then skipString rest
        else .error .malformed
    else if b < 0x20 then .error .malformed
    else skipString rest

/-- An exponent behind its `e`. -/
def skipExponent (bytes : Bytes) : Except Fault Bytes :=
  let digits := match bytes with
    | b :: rest => if b = 0x2b ∨ b = 0x2d then rest else bytes
    | [] => bytes
  match digits with
  | b :: rest => if isDigit b then .ok (rest.dropWhile isDigit) else .error .malformed
  | [] => .error .malformed

/-- What may follow the whole digits of a number. -/
def skipScale (bytes : Bytes) : Except Fault Bytes :=
  let exponent (bytes : Bytes) : Except Fault Bytes := match bytes with
    | b :: rest => if b = 0x65 ∨ b = 0x45 then skipExponent rest else .ok bytes
    | [] => .ok bytes
  match bytes with
  | 0x2e :: rest =>
    if (rest.takeWhile isDigit).isEmpty then .error .malformed
    else exponent (rest.dropWhile isDigit)
  | _ => exponent bytes

/-- A number behind its sign. -/
def skipUnsigned : Bytes → Except Fault Bytes
  | [] => .error .malformed
  | b :: rest =>
    if b = 0x30 then
      match rest with
      | d :: _ => if isDigit d then .error .malformed else skipScale rest
      | [] => .ok rest
    else if isDigit b then skipScale (rest.dropWhile isDigit)
    else .error .malformed

def skipScalar (first : UInt8) (rest : Bytes) : Except Fault Bytes :=
  if first = 0x6e then expect [0x75, 0x6c, 0x6c] rest
  else if first = 0x74 then expect [0x72, 0x75, 0x65] rest
  else if first = 0x66 then expect [0x61, 0x6c, 0x73, 0x65] rest
  else if first = 0x2d then skipUnsigned rest
  else if isDigit first then skipUnsigned (first :: rest)
  else if first = 0x22 then skipString rest
  else .error .malformed

/-- An array or an object that is still open. -/
inductive Frame
  | array
  | object
  deriving DecidableEq, Repr

/-- Goes on behind a value, or behind the opening of an array or object if `fresh`:
closes what ends here, then makes ready for the next value. Done when nothing is open
any more. -/
def skipBehind (fresh : Bool) : (turns : Nat) → List Frame → Bytes →
    Except Fault (List Frame × Bytes)
  | _, [], bytes => .ok ([], bytes)
  | 0, _ :: _, _ => .error .truncated
  | turns + 1, frame :: outer, bytes =>
    match skipBlank bytes with
    | [] => .error .truncated
    | b :: rest =>
      if (b = 0x5d ∧ frame = .array) ∨ (b = 0x7d ∧ frame = .object) then
        skipBehind false turns outer rest
      else
        let start : Except Fault Bytes :=
          if fresh then .ok (b :: rest)
          else if b = 0x2c then .ok rest
          else .error .malformed
        match start with
        | .error fault => .error fault
        | .ok bytes =>
          match frame with
          | .array => .ok (frame :: outer, bytes)
          | .object =>
            match skipBlank bytes with
            | [] => .error .truncated
            | q :: rest =>
              if q = 0x22 then
                match skipString rest with
                | .error fault => .error fault
                | .ok rest => (readColon rest).map fun rest => (frame :: outer, rest)
              else .error .malformed

/-- Skips one value, with what is open around it. -/
def skipOpen : (turns : Nat) → List Frame → Bytes → Except Fault Bytes
  | 0, _, _ => .error .truncated
  | turns + 1, frames, bytes =>
    match skipBlank bytes with
    | [] => .error .truncated
    | b :: rest =>
      let behind : Except Fault (List Frame × Bytes) :=
        if b = 0x5b then skipBehind true (rest.length + 1) (.array :: frames) rest
        else if b = 0x7b then skipBehind true (rest.length + 1) (.object :: frames) rest
        else match skipScalar b rest with
          | .error fault => .error fault
          | .ok rest => skipBehind false (rest.length + 1) frames rest
      match behind with
      | .error fault => .error fault
      | .ok ([], rest) => .ok rest
      | .ok (frames, rest) => skipOpen turns frames rest

def skipValue (bytes : Bytes) : Except Fault Bytes :=
  skipOpen (bytes.length + 1) [] bytes

end ThingHub.Json
