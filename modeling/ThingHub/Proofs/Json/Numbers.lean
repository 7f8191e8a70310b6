import Mathlib.Data.Nat.Digits.Defs
import ThingHub.Json.Reader
import ThingHub.Json.Writer
import ThingHub.Proofs.Data.Bytes

/-! # Integers read back as they were written

The digits of an integer give its value again, as long as it fits the 64 bits that the reader
gathers digits in, and as long as what follows cannot be taken for more of the number. -/

namespace ThingHub.Json

/-! ## Digits -/

theorem utf8EncodeChar_of_isDigit {c : Char} (h : c.isDigit = true) :
    String.utf8EncodeChar c = [UInt8.ofNat c.toNat] ∧
      (UInt8.ofNat c.toNat).toNat = c.toNat ∧ 0x30 ≤ c.toNat ∧ c.toNat ≤ 0x39 := by
  simp only [Char.isDigit, Bool.and_eq_true, decide_eq_true_eq] at h
  obtain ⟨hlow, hhigh⟩ := h
  have hlow : 0x30 ≤ c.toNat := UInt32.le_iff_toNat_le.mp hlow
  have hhigh : c.toNat ≤ 0x39 := UInt32.le_iff_toNat_le.mp hhigh
  refine ⟨Bytes.utf8EncodeChar_of_lt (by omega), ?_, hlow, hhigh⟩
  rw [UInt8.toNat_ofNat', Nat.mod_eq_of_lt (by omega)]

theorem isDigit_of_mem_ofChars {chars : List Char} (h : ∀ c ∈ chars, c.isDigit = true) {b : UInt8}
    (hb : b ∈ Bytes.ofChars chars) : isDigit b = true := by
  obtain ⟨c, hc, hb⟩ := List.mem_flatMap.mp hb
  obtain ⟨hencode, hvalue, hlow, hhigh⟩ := utf8EncodeChar_of_isDigit (h c hc)
  rw [hencode] at hb
  obtain rfl := List.mem_singleton.mp hb
  simp [isDigit, UInt8.le_iff_toNat_le, hvalue, hlow, hhigh]

theorem ne_of_isDigit {b other : UInt8} (h : isDigit b = true) (hother : isDigit other = false) :
    b ≠ other := by
  rintro rfl
  rw [h] at hother
  cases hother

theorem isBlank_of_isDigit {b : UInt8} (h : isDigit b = true) : isBlank b = false := by
  have hbeq : ∀ other : UInt8, isDigit other = false → (b == other) = false :=
    fun other hother => beq_false_of_ne (ne_of_isDigit h hother)
  rw [isBlank, hbeq 0x20 rfl, hbeq 0x0a rfl, hbeq 0x09 rfl, hbeq 0x0d rfl]
  rfl

/-- A number with decimal digits added behind it. -/
def gather (start : Nat) (digits : Bytes) : Nat :=
  digits.foldl (fun n d => n * 10 + digitValue d) start

theorem gather_append (start : Nat) (front back : Bytes) :
    gather start (front ++ back) = gather (gather start front) back :=
  List.foldl_append

theorem le_gather (start : Nat) (digits : Bytes) : start ≤ gather start digits := by
  induction digits generalizing start with
  | nil => exact Nat.le_refl start
  | cons d digits ih => exact Nat.le_trans (by omega) (ih (start * 10 + digitValue d))

/-- Digits are gathered to their value if that fits. -/
theorem absorb_eq_gather {start : Nat} {digits : Bytes} (h : gather start digits < Nat.pow 2 64) :
    absorb start digits = (gather start digits, []) := by
  induction digits generalizing start with
  | nil => rfl
  | cons d digits ih =>
      rw [absorb, if_pos (Nat.lt_of_le_of_lt (le_gather _ digits) h)]
      exact ih h

theorem gather_ofChars {chars : List Char} (hdigits : ∀ c ∈ chars, c.isDigit = true)
    (start : Nat) : gather start (Bytes.ofChars chars) = Nat.ofDigitChars 10 chars start := by
  induction chars generalizing start with
  | nil => rfl
  | cons c chars ih =>
      obtain ⟨hencode, hvalue, -⟩ := utf8EncodeChar_of_isDigit (hdigits c List.mem_cons_self)
      have hnext : start * 10 + digitValue (UInt8.ofNat c.toNat) =
          10 * start + (c.toNat - '0'.toNat) := by
        rw [digitValue, hvalue, Nat.mul_comm]
        rfl
      rw [Nat.ofDigitChars_cons, ← ih fun c hm => hdigits c (List.mem_cons_of_mem _ hm), ← hnext,
        Bytes.ofChars_cons, hencode]
      rfl

/-- So many digits give a number of at most so many digits. -/
theorem gather_lt {digits : Bytes} (hdigits : ∀ b ∈ digits, isDigit b = true) (start : Nat) :
    gather start digits < (start + 1) * 10 ^ digits.length := by
  induction digits generalizing start with
  | nil => exact Nat.lt_of_lt_of_eq (Nat.lt_succ_self start) (Nat.mul_one _).symm
  | cons d digits ih =>
      have hd : digitValue d < 10 := by
        have hdigit := hdigits d List.mem_cons_self
        simp only [isDigit, Bool.and_eq_true, decide_eq_true_eq, UInt8.le_iff_toNat_le] at hdigit
        have hhigh : d.toNat ≤ 57 := hdigit.2
        rw [digitValue]
        omega
      calc gather start (d :: digits)
          < (start * 10 + digitValue d + 1) * 10 ^ digits.length :=
            ih (fun b hb => hdigits b (List.mem_cons_of_mem _ hb)) _
        _ ≤ (start + 1) * 10 * 10 ^ digits.length := Nat.mul_le_mul_right _ (by omega)
        _ = (start + 1) * 10 ^ (digits.length + 1) := by
            rw [Nat.mul_assoc, Nat.pow_succ, Nat.mul_comm 10]

theorem isDigit_of_mem_toDigits {n : Nat} {c : Char} (h : c ∈ Nat.toDigits 10 n) :
    c.isDigit = true :=
  Nat.isDigit_of_mem_toDigits (by decide) (by decide) h

/-- Only zero is written with a leading zero. -/
theorem exists_toDigits_eq_cons (n : Nat) :
    ∃ c chars, Nat.toDigits 10 n = c :: chars ∧ (c = '0' → n = 0) := by
  induction n using Nat.strongRecOn with
  | ind n ih =>
      by_cases h : n < 10
      · refine ⟨n.digitChar, [], Nat.toDigits_of_lt_base h, ?_⟩
        intro hc
        have hvalue := Nat.toNat_digitChar_of_lt_ten h
        have hzero : '0'.toNat = 48 := rfl
        rw [hc] at hvalue
        omega
      · obtain ⟨c, chars, hchars, hzero⟩ := ih (n / 10) (by omega)
        refine ⟨c, chars ++ [(n % 10).digitChar], ?_, ?_⟩
        · rw [Nat.toDigits_of_base_le (by decide) (Nat.le_of_not_lt h), hchars]
          rfl
        · intro hc
          have := hzero hc
          omega

/-! ## What follows a number -/

/-- The octets behind a number do not go on with it. -/
def Stops (rest : Bytes) : Prop :=
  ∀ b ∈ rest.head?, isDigit b = false ∧ b ≠ 0x2e ∧ b ≠ 0x65 ∧ b ≠ 0x45

theorem stops_nil : Stops [] := by simp [Stops]

theorem stops_cons {b : UInt8} (h : isDigit b = false ∧ b ≠ 0x2e ∧ b ≠ 0x65 ∧ b ≠ 0x45)
    (rest : Bytes) : Stops (b :: rest) := by
  simpa [Stops] using h

/-- A reader comes to such an outcome at the end of the octets, whatever follows them, as long
as that does not go on with a number. -/
def Gives {α : Type} (reader : Reader α) (octets : Bytes) (outcome : Except Fault α) : Prop :=
  ∀ rest, Stops rest → reader (octets ++ rest) = outcome.map (·, rest)

/-- What is read behind the fraction. -/
def readShift (negative real : Bool) (significand : Nat) (power : Int) (bytes : Bytes) :
    Except Fault (JsonNumber × Bytes) :=
  match bytes with
  | b :: rest =>
    if b = 0x65 ∨ b = 0x45 then
      match readExponent rest with
      | .error fault => .error fault
      | .ok (exponent, behind) => (realOf negative significand (power + exponent)).map (·, behind)
    else if real then (realOf negative significand power).map (·, bytes)
    else (integerOf negative significand).map (·, bytes)
  | [] =>
    if real then (realOf negative significand power).map (·, bytes)
    else (integerOf negative significand).map (·, bytes)

theorem readScale_plain {whole : Bytes} (hwhole : gather 0 whole < Nat.pow 2 64) {bytes : Bytes}
    (hbytes : ∀ b ∈ bytes.head?, b ≠ 0x2e) (negative : Bool) :
    readScale negative whole bytes = readShift negative false (gather 0 whole) 0 bytes := by
  cases bytes with
  | nil => simp [readScale, readShift, absorb_eq_gather hwhole]
  | cons b bytes =>
      have hb : b ≠ 0x2e := hbytes b rfl
      simp only [readScale, absorb_eq_gather hwhole, List.cons.injEq, hb, false_and, imp_false,
        not_false_eq_true, implies_true]
      rfl

theorem readShift_stops {rest : Bytes} (hrest : Stops rest) (negative real : Bool)
    (significand : Nat) (power : Int) :
    readShift negative real significand power rest =
      (if real then realOf negative significand power else integerOf negative significand).map
        (·, rest) := by
  cases rest with
  | nil => cases real <;> rfl
  | cons b rest =>
      obtain ⟨-, -, hlower, hupper⟩ := hrest b rfl
      rw [readShift, if_neg (by simp [hlower, hupper])]
      cases real <;> rfl

/-- No digit comes first. -/
def NoDigit (rest : Bytes) : Prop := ∀ b ∈ rest.head?, isDigit b = false

theorem Stops.noDigit {rest : Bytes} (h : Stops rest) : NoDigit rest := fun b hb => (h b hb).1

/-- Digits are told from what follows them. -/
theorem NoDigit.span {rest : Bytes} (h : NoDigit rest) {digits : Bytes}
    (hdigits : ∀ b ∈ digits, isDigit b = true) :
    (digits ++ rest).takeWhile isDigit = digits ∧ (digits ++ rest).dropWhile isDigit = rest := by
  have hrest : rest.takeWhile isDigit = [] ∧ rest.dropWhile isDigit = rest := by
    cases rest with
    | nil => exact ⟨rfl, rfl⟩
    | cons b rest =>
        have hb : ¬ isDigit b = true := by simp [h b rfl]
        exact ⟨List.takeWhile_cons_of_neg hb, List.dropWhile_cons_of_neg hb⟩
  rw [List.takeWhile_append_of_pos hdigits, List.dropWhile_append_of_pos hdigits, hrest.1, hrest.2,
    List.append_nil]
  exact ⟨rfl, rfl⟩

/-- The digits before a point. A leading zero stands alone. -/
structure IsWhole (whole : Bytes) : Prop where
  ne_nil : whole ≠ []
  isDigit : ∀ b ∈ whole, isDigit b = true
  leading : ∀ more, whole = 0x30 :: more → more = []

theorem isWhole_ofChars {c : Char} {chars : List Char}
    (hdigits : ∀ d ∈ c :: chars, d.isDigit = true)
    (hleading : c = '0' → chars = []) : IsWhole (Bytes.ofChars (c :: chars)) := by
  obtain ⟨hencode, hvalue, -⟩ := utf8EncodeChar_of_isDigit (hdigits c List.mem_cons_self)
  have hwhole : Bytes.ofChars (c :: chars) = UInt8.ofNat c.toNat :: Bytes.ofChars chars := by
    rw [Bytes.ofChars_cons, hencode]
    rfl
  refine ⟨by simp [hwhole], fun b => isDigit_of_mem_ofChars hdigits, ?_⟩
  intro more hmore
  rw [hwhole, List.cons.injEq] at hmore
  obtain ⟨hzero, rfl⟩ := hmore
  rw [hleading (Char.toNat_inj.mp (hvalue.symm.trans (congrArg UInt8.toNat hzero)))]
  rfl

theorem isWhole_toDigits (n : Nat) : IsWhole (Bytes.ofChars (Nat.toDigits 10 n)) := by
  obtain ⟨c, chars, hchars, hzero⟩ := exists_toDigits_eq_cons n
  rw [hchars]
  refine isWhole_ofChars ?_ ?_
  · rw [← hchars]
    exact fun d => isDigit_of_mem_toDigits
  · intro hc
    obtain rfl := hzero hc
    exact (List.cons.inj (hchars.symm.trans (Nat.toDigits_zero 10))).2

/-- The digits before a point are read to their end. -/
theorem readUnsigned_whole {whole tail : Bytes} (h : IsWhole whole) (htail : NoDigit tail)
    (negative : Bool) : readUnsigned negative (whole ++ tail) = readScale negative whole tail := by
  obtain ⟨hne, hdigits, hleading⟩ := h
  obtain ⟨b, more, rfl⟩ := List.exists_cons_of_ne_nil hne
  have hmore : ∀ d ∈ more, isDigit d = true := fun d hm => hdigits d (List.mem_cons_of_mem _ hm)
  obtain ⟨htake, hdrop⟩ := htail.span hmore
  rw [List.cons_append, readUnsigned.eq_def]
  dsimp only
  by_cases hb : b = 0x30
  · obtain rfl := hleading more (by rw [hb])
    rw [if_pos hb]
    cases tail with
    | nil => rfl
    | cons d tail =>
        have hnot : isDigit d = false := htail d rfl
        simp only [List.nil_append, hnot]
        rfl
  · rw [if_neg hb, if_pos (hdigits b List.mem_cons_self), htake, hdrop]

/-- The digits of a number are read as its value. -/
theorem readUnsigned_toDigits {n : Nat} (hfits : n < Nat.pow 2 64) (negative : Bool) :
    Gives (readUnsigned negative) (Bytes.ofChars (Nat.toDigits 10 n)) (integerOf negative n) := by
  intro rest hrest
  have hvalue := gather_ofChars (fun c => isDigit_of_mem_toDigits (n := n)) 0
  rw [Nat.ofDigitChars_ten_toDigits] at hvalue
  rw [readUnsigned_whole (isWhole_toDigits n) hrest.noDigit,
    readScale_plain (by rwa [hvalue]) (fun b hb => (hrest b hb).2.1), readShift_stops hrest, hvalue]
  rfl

/-! ## Integers -/

theorem readScalar_minus (bytes : Bytes) :
    readScalar 0x2d bytes =
      (readUnsigned true bytes).map fun (n, rest) => (Json.number n, rest) := by
  simp [readScalar]

theorem readScalar_digit {b : UInt8} (h : isDigit b = true) (bytes : Bytes) :
    readScalar b bytes =
      (readUnsigned false (b :: bytes)).map fun (n, rest) => (Json.number n, rest) := by
  rw [readScalar, if_neg (ne_of_isDigit h rfl), if_neg (ne_of_isDigit h rfl),
    if_neg (ne_of_isDigit h rfl), if_neg (ne_of_isDigit h rfl), if_pos h]

theorem integerOf_natAbs {n : Int} (hlow : -2 ^ 63 ≤ n) :
    integerOf (decide (n < 0)) n.natAbs = .ok (.int n) := by
  by_cases hn : n < 0
  · have hsmall : ¬ (n.natAbs = 0 ∨ Nat.pow 2 63 < n.natAbs) := by
      rw [show Nat.pow 2 63 = 2 ^ 63 from rfl]
      omega
    have hvalue : -(n.natAbs : Int) = n := by omega
    rw [decide_eq_true hn, integerOf, if_pos rfl, if_neg hsmall, hvalue]
  · have hvalue : (n.natAbs : Int) = n := by omega
    rw [decide_eq_false hn, integerOf, if_neg (by decide), hvalue]

/-- An integer reads back if it fits 64 bits, with a sign or without. -/
theorem readScalar_writeInt {n : Int} (hlow : -2 ^ 63 ≤ n) (hhigh : n < 2 ^ 64) :
    ∃ b bytes, Bytes.ofChars (writeInt n) = b :: bytes ∧ (b = 0x2d ∨ isDigit b = true) ∧
      Gives (readScalar b) bytes (.ok (.number (.int n))) := by
  have hfits : n.natAbs < Nat.pow 2 64 := by
    rw [show Nat.pow 2 64 = 2 ^ 64 from rfl]
    omega
  have hvalue := integerOf_natAbs hlow
  by_cases hn : n < 0
  · refine ⟨0x2d, Bytes.ofChars (Nat.toDigits 10 n.natAbs), ?_, .inl rfl, ?_⟩
    · rw [writeInt, if_pos hn]
      rfl
    · intro rest hrest
      rw [decide_eq_true hn] at hvalue
      rw [readScalar_minus, readUnsigned_toDigits hfits true rest hrest, hvalue]
      rfl
  · obtain ⟨c, chars, hchars, -⟩ := exists_toDigits_eq_cons n.natAbs
    have hc : c.isDigit = true := isDigit_of_mem_toDigits (hchars ▸ List.mem_cons_self)
    obtain ⟨hencode, -⟩ := utf8EncodeChar_of_isDigit hc
    have hwritten : Bytes.ofChars (Nat.toDigits 10 n.natAbs) =
        UInt8.ofNat c.toNat :: Bytes.ofChars chars := by
      rw [hchars, Bytes.ofChars_cons, hencode]
      rfl
    have hdigit : isDigit (UInt8.ofNat c.toNat) = true :=
      isDigit_of_mem_ofChars (fun d => isDigit_of_mem_toDigits)
        (hwritten ▸ List.mem_cons_self)
    refine ⟨UInt8.ofNat c.toNat, Bytes.ofChars chars, ?_, .inr hdigit, ?_⟩
    · rw [writeInt, if_neg hn, hwritten]
    · intro rest hrest
      rw [decide_eq_false hn] at hvalue
      rw [readScalar_digit hdigit, ← List.cons_append, ← hwritten,
        readUnsigned_toDigits hfits false rest hrest, hvalue]
      rfl

end ThingHub.Json
