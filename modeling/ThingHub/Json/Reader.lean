import ThingHub.Data.Bytes
import ThingHub.Json.Value

/-! JSON text read from left to right, in one pass that stops at the first fault. What
a fault is called depends on where it is met, so readers take octets and give back the
octets they left. -/

namespace ThingHub.Json

/-- Why a text is not the JSON value that is asked for. -/
inductive Fault
  /-- The text ends inside the value. -/
  | truncated
  /-- The text is not JSON at this place. -/
  | malformed
  /-- The text is JSON so far and holds the wrong kind of value. -/
  | mismatched
  deriving DecidableEq, Repr

/-- What a reader finds, and the text behind it. -/
abbrev Reader (α : Type) := Bytes → Except Fault (α × Bytes)

def isBlank (b : UInt8) : Bool :=
  b == 0x20 || b == 0x0a || b == 0x09 || b == 0x0d

def skipBlank (bytes : Bytes) : Bytes :=
  bytes.dropWhile isBlank

/-- Takes exactly these octets. -/
def expect : Bytes → Bytes → Except Fault Bytes
  | [], bytes => .ok bytes
  | _ :: _, [] => .error .truncated
  | e :: es, b :: bytes => if b = e then expect es bytes else .error .malformed

def isDigit (b : UInt8) : Bool := 0x30 ≤ b && b ≤ 0x39

def digitValue (b : UInt8) : Nat := b.toNat - 0x30

/-- Adds decimal digits to a number while it stays below `2 ^ 64`, and gives back the
digits from the first one that does not fit. -/
def absorb : Nat → Bytes → Nat × Bytes
  | n, [] => (n, [])
  | n, d :: ds =>
    let next := n * 10 + digitValue d
    if next < Nat.pow 2 64 then absorb next ds else (n, d :: ds)

/-- The exponent behind its `e`: a sign or none, then at least one digit. -/
def readExponent (bytes : Bytes) : Except Fault (Int × Bytes) :=
  let signed : Bool × Bytes := match bytes with
    | b :: rest =>
      if b = 0x2d then (true, rest) else if b = 0x2b then (false, rest) else (false, bytes)
    | [] => (false, bytes)
  match signed.2 with
  | [] => .error .truncated
  | b :: rest =>
    if isDigit b then
      let digits := b :: rest.takeWhile isDigit
      let value := digits.foldl (fun n d => n * 10 + digitValue d) 0
      .ok (if signed.1 then -(value : Int) else value, rest.dropWhile isDigit)
    else .error .malformed

/-- A double by its significand and power of ten; too large a number is a fault. -/
def realOf (negative : Bool) (significand : Nat) (power : Int) : Except Fault JsonNumber :=
  match Magnitude.ofDecimal? significand power with
  | some magnitude => .ok (.real ⟨negative, magnitude⟩)
  | none => .error .malformed

/-- An integer that fits 64 bits stays one; minus zero is a double. -/
def integerOf (negative : Bool) (n : Nat) : Except Fault JsonNumber :=
  if negative then
    if n = 0 ∨ Nat.pow 2 63 < n then realOf true n 0 else .ok (.int (-n))
  else .ok (.int n)

/-- The rest of a number whose whole digits are read: a fraction, then an exponent,
both optional. Digits that the significand cannot take only count where they stand
before the point. -/
def readScale (negative : Bool) (whole bytes : Bytes) : Except Fault (JsonNumber × Bytes) :=
  let (significand, left) := absorb 0 whole
  let power : Int := left.length
  let fraction : Except Fault (Bool × Nat × Int × Bytes) := match bytes with
    | 0x2e :: rest =>
      match rest.takeWhile isDigit, rest.dropWhile isDigit with
      | [], [] => .error .truncated
      | [], _ :: _ => .error .malformed
      | digits, behind =>
        let (significand, left) := absorb significand digits
        .ok (true, significand, power - (digits.length - left.length : Nat), behind)
    | _ => .ok (!left.isEmpty, significand, power, bytes)
  match fraction with
  | .error fault => .error fault
  | .ok (real, significand, power, bytes) =>
    match bytes with
    | b :: rest =>
      if b = 0x65 ∨ b = 0x45 then
        match readExponent rest with
        | .error fault => .error fault
        | .ok (exponent, behind) =>
          (realOf negative significand (power + exponent)).map (·, behind)
      else if real then (realOf negative significand power).map (·, bytes)
      else (integerOf negative significand).map (·, bytes)
    | [] =>
      if real then (realOf negative significand power).map (·, bytes)
      else (integerOf negative significand).map (·, bytes)

/-- A number behind its sign. A leading zero stands alone. -/
def readUnsigned (negative : Bool) : Reader JsonNumber
  | [] => .error .truncated
  | b :: rest =>
    if b = 0x30 then
      match rest with
      | d :: _ => if isDigit d then .error .malformed else readScale negative [b] rest
      | [] => readScale negative [b] rest
    else if isDigit b then
      readScale negative (b :: rest.takeWhile isDigit) (rest.dropWhile isDigit)
    else .error .malformed

def hexValue? (b : UInt8) : Option Nat :=
  if 0x30 ≤ b ∧ b ≤ 0x39 then some (b.toNat - 0x30)
  else if 0x41 ≤ b ∧ b ≤ 0x46 then some (b.toNat - 0x41 + 10)
  else if 0x61 ≤ b ∧ b ≤ 0x66 then some (b.toNat - 0x61 + 10)
  else none

/-- Four hexadecimal digits. -/
def hex4? (a b c d : UInt8) : Option Nat :=
  match hexValue? a, hexValue? b, hexValue? c, hexValue? d with
  | some a, some b, some c, some d => some (((a * 16 + b) * 16 + c) * 16 + d)
  | _, _, _, _ => none

/-- The octet that a one-letter escape stands for. -/
def escaped? (b : UInt8) : Option UInt8 :=
  if b = 0x22 ∨ b = 0x5c ∨ b = 0x2f then some b
  else if b = 0x62 then some 0x08
  else if b = 0x66 then some 0x0c
  else if b = 0x6e then some 0x0a
  else if b = 0x72 then some 0x0d
  else if b = 0x74 then some 0x09
  else none

def isLeadingSurrogate (n : Nat) : Bool := 0xd800 ≤ n && n ≤ 0xdbff

def isTrailingSurrogate (n : Nat) : Bool := 0xdc00 ≤ n && n ≤ 0xdfff

/-- The number written in four hexadecimal digits. -/
def readUnit : Reader Nat
  | a :: b :: c :: d :: rest =>
    match hex4? a b c d with
    | some n => .ok (n, rest)
    | none => .error .malformed
  | _ => .error .truncated

/-- The code point that follows `\u`. Surrogates come in pairs, the leading one first. -/
def readCode (bytes : Bytes) : Except Fault (Nat × Bytes) :=
  match readUnit bytes with
  | .error fault => .error fault
  | .ok (n, rest) =>
    if isTrailingSurrogate n then .error .malformed
    else if isLeadingSurrogate n then
      match expect [0x5c, 0x75] rest with
      | .error fault => .error fault
      | .ok rest =>
        match readUnit rest with
        | .error fault => .error fault
        | .ok (m, rest) =>
          if isTrailingSurrogate m then
            .ok (0x10000 + (n - 0xd800) * 0x400 + (m - 0xdc00), rest)
          else .error .malformed
    else .ok (n, rest)

/-- The octets that an escape stands for, behind its backslash. -/
def readEscape : Reader Bytes
  | [] => .error .truncated
  | e :: rest =>
    if e = 0x75 then
      (readCode rest).map fun (n, rest) => (String.utf8EncodeChar (Char.ofNat n), rest)
    else
      match escaped? e with
      | none => .error .malformed
      | some c => .ok ([c], rest)

theorem length_of_expect {es bytes rest : Bytes} (h : expect es bytes = .ok rest) :
    rest.length ≤ bytes.length := by
  induction es generalizing bytes with
  | nil =>
      simp only [expect, Except.ok.injEq] at h
      exact Nat.le_of_eq (congrArg List.length h.symm)
  | cons e es ih =>
      cases bytes with
      | nil => simp [expect] at h
      | cons b bytes =>
          rw [expect] at h
          split at h
          · exact Nat.le_succ_of_le (ih h)
          · cases h

theorem length_of_readUnit {bytes rest : Bytes} {n : Nat} (h : readUnit bytes = .ok (n, rest)) :
    rest.length ≤ bytes.length := by
  unfold readUnit at h
  split at h
  · split at h
    · cases h
      simp only [List.length_cons]
      omega
    · cases h
  · cases h

theorem length_of_readCode {bytes rest : Bytes} {n : Nat} (h : readCode bytes = .ok (n, rest)) :
    rest.length ≤ bytes.length := by
  unfold readCode at h
  split at h
  · cases h
  next m behind hunit =>
    have hle := length_of_readUnit hunit
    split at h
    · cases h
    split at h
    · split at h
      · cases h
      next after hmark =>
        have hmid := length_of_expect hmark
        split at h
        · cases h
        next k last hlast =>
          have hend := length_of_readUnit hlast
          split at h
          · simp only [Except.ok.injEq, Prod.mk.injEq] at h
            rw [← h.2]
            omega
          · cases h
    · simp only [Except.ok.injEq, Prod.mk.injEq] at h
      rw [← h.2]
      exact hle

theorem length_of_readEscape {bytes octets rest : Bytes}
    (h : readEscape bytes = .ok (octets, rest)) : rest.length < bytes.length := by
  unfold readEscape at h
  split at h
  · cases h
  next e behind =>
    split at h
    · cases hcode : readCode behind with
      | error fault => simp [hcode, Except.map] at h
      | ok found =>
          obtain ⟨n, after⟩ := found
          simp only [hcode, Except.map, Except.ok.injEq, Prod.mk.injEq] at h
          rw [← h.2]
          exact Nat.lt_succ_of_le (length_of_readCode hcode)
    · split at h
      · cases h
      · cases h
        exact Nat.lt_succ_self _

/-- The octets of a string behind its opening quote, up to the closing one. The octets
found so far are held in reverse. -/
def readContent (found : Bytes) : Reader Bytes
  | [] => .error .truncated
  | b :: rest =>
    if b = 0x22 then .ok (found.reverse, rest)
    else if b = 0x5c then
      match h : readEscape rest with
      | .error fault => .error fault
      | .ok (octets, behind) =>
        have : behind.length < rest.length := length_of_readEscape h
        readContent (octets.reverse ++ found) behind
    else if b < 0x20 then .error .malformed
    else readContent (b :: found) rest
termination_by bytes => bytes.length

/-- A string behind its opening quote. -/
def readString (bytes : Bytes) : Except Fault (String × Bytes) :=
  match readContent [] bytes with
  | .error fault => .error fault
  | .ok (content, rest) =>
    match Bytes.text? content with
    | none => .error .malformed
    | some text => .ok (text, rest)

/-- A value that is neither array nor object, by its first octet. -/
def readScalar (first : UInt8) (rest : Bytes) : Except Fault (Json × Bytes) :=
  if first = 0x6e then (expect [0x75, 0x6c, 0x6c] rest).map (Json.null, ·)
  else if first = 0x74 then (expect [0x72, 0x75, 0x65] rest).map (Json.bool true, ·)
  else if first = 0x66 then (expect [0x61, 0x6c, 0x73, 0x65] rest).map (Json.bool false, ·)
  else if first = 0x2d then (readUnsigned true rest).map fun (n, rest) => (Json.number n, rest)
  else if isDigit first then
    (readUnsigned false (first :: rest)).map fun (n, rest) => (Json.number n, rest)
  else if first = 0x22 then (readString rest).map fun (text, rest) => (Json.string text, rest)
  else .error .malformed

/-- The fault of a value of the wrong kind, by its first octet. A scalar is read to its
end first; an array or object is refused at once. -/
def mismatch (first : UInt8) (rest : Bytes) : Fault :=
  if first = 0x5b ∨ first = 0x7b then .mismatched
  else match readScalar first rest with
    | .error fault => fault
    | .ok _ => .mismatched

/-- The items of an array behind its bracket. Each turn takes at least one octet, so
as many turns as there are octets are enough. -/
def readItems {α : Type} (item : Reader α) :
    (turns : Nat) → (found : List α) → Reader (List α)
  | 0, _, _ => .error .truncated
  | turns + 1, found, bytes =>
    match skipBlank bytes with
    | [] => .error .truncated
    | b :: rest =>
      if b = 0x5d then .ok (found.reverse, rest)
      else
        let start : Except Fault Bytes :=
          if found.isEmpty then .ok (b :: rest)
          else if b = 0x2c then
            match skipBlank rest with
            | [] => .error .truncated
            | c :: rest => if c = 0x5d then .error .malformed else .ok (c :: rest)
          else .error .malformed
        match start with
        | .error fault => .error fault
        | .ok bytes =>
          match item bytes with
          | .error fault => .error fault
          | .ok (value, rest) => readItems item turns (value :: found) rest

/-- The name of the next member of an object, with the text behind it; none at the end
of the object. -/
def readName (first : Bool) (bytes : Bytes) : Except Fault (Option String × Bytes) :=
  match skipBlank bytes with
  | [] => .error .truncated
  | b :: rest =>
    if b = 0x7d then .ok (none, rest)
    else
      let start : Except Fault Bytes :=
        if first then .ok (b :: rest)
        else if b = 0x2c then .ok (skipBlank rest)
        else .error .malformed
      match start with
      | .error fault => .error fault
      | .ok [] => .error .truncated
      | .ok (q :: rest) =>
        if q = 0x22 then (readString rest).map fun (name, rest) => (some name, rest)
        else .error .malformed

def readColon (bytes : Bytes) : Except Fault Bytes :=
  match skipBlank bytes with
  | [] => .error .truncated
  | b :: rest => if b = 0x3a then .ok rest else .error .malformed

/-- The members of an object behind its brace, in the order of the text. -/
def readMembers {α : Type} (item : Reader α) :
    (turns : Nat) → (found : List (String × α)) → Reader (List (String × α))
  | 0, _, _ => .error .truncated
  | turns + 1, found, bytes =>
    match readName found.isEmpty bytes with
    | .error fault => .error fault
    | .ok (none, rest) => .ok (found.reverse, rest)
    | .ok (some name, rest) =>
      match readColon rest with
      | .error fault => .error fault
      | .ok rest =>
        match item rest with
        | .error fault => .error fault
        | .ok (value, rest) => readMembers item turns ((name, value) :: found) rest

/-- Any value, with at most `depth` arrays and objects inside one another. Of members
with the same name the last one counts. -/
def readValue : (depth : Nat) → Reader Json
  | depth, bytes =>
    match skipBlank bytes with
    | [] => .error .truncated
    | b :: rest =>
      if b = 0x5b then
        match depth with
        | 0 => .error .malformed
        | depth + 1 =>
          (readItems (readValue depth) (rest.length + 1) [] rest).map fun (items, rest) =>
            (Json.array items, rest)
      else if b = 0x7b then
        match depth with
        | 0 => .error .malformed
        | depth + 1 =>
          (readMembers (readValue depth) (rest.length + 1) [] rest).map fun (members, rest) =>
            (Json.object (Entries.ofList members), rest)
      else readScalar b rest

/-- An object whose members are read by `item`. -/
def readObject {α : Type} (item : Reader α) : Reader (Entries α)
  | bytes =>
    match skipBlank bytes with
    | [] => .error .truncated
    | b :: rest =>
      if b = 0x7b then
        (readMembers item (rest.length + 1) [] rest).map fun (members, rest) =>
          (Entries.ofList members, rest)
      else .error (mismatch b rest)

/-- How many arrays and objects may stand inside one another. -/
def maxDepth : Nat := 127

/-- A text that holds one value and nothing else. -/
def readAll {α : Type} (reader : Reader α) (bytes : Bytes) : Except Fault α :=
  match reader bytes with
  | .error fault => .error fault
  | .ok (value, rest) => if (skipBlank rest).isEmpty then .ok value else .error .malformed

/-- The value of a text. -/
def decode (bytes : Bytes) : Except Fault Json :=
  readAll (readValue maxDepth) bytes

/-- The members of a text that holds one object. -/
def decodeObject (bytes : Bytes) : Except Fault JsonObject :=
  readAll (readObject (readValue (maxDepth - 1))) bytes

/-- The members of a text that holds one object of objects. -/
def decodeObjects (bytes : Bytes) : Except Fault (Entries JsonObject) :=
  readAll (readObject (readObject (readValue (maxDepth - 2)))) bytes

end ThingHub.Json
