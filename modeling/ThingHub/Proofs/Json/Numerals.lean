import ThingHub.Proofs.Json.Numbers
import ThingHub.Proofs.Number.Shortest

/-! # Numbers read as they are written, and where they are cut short

Every number is written as digits, maybe with a point and more digits, maybe with an exponent.
Such a numeral is read to its end. Cut anywhere it either is a shorter numeral, or it ends where
a digit has to follow. -/

namespace ThingHub.Json

/-- A number without its sign. The exponent has a sign of its own, which is minus if the flag
is set. -/
structure Numeral where
  whole : Bytes
  fraction : Bytes
  exponent : Option (Bool × Bytes)

namespace Numeral

def pointed (n : Numeral) : Bytes :=
  if n.fraction = [] then [] else 0x2e :: n.fraction

def scaled (n : Numeral) : Bytes :=
  match n.exponent with
  | none => []
  | some (minus, digits) => 0x65 :: (if minus then 0x2d else 0x2b) :: digits

def octets (n : Numeral) : Bytes := n.whole ++ (n.pointed ++ n.scaled)

def significand (n : Numeral) : Nat := gather 0 (n.whole ++ n.fraction)

/-- The power of ten that the exponent gives. -/
def shift (n : Numeral) : Int :=
  match n.exponent with
  | none => 0
  | some (minus, digits) => if minus then -(gather 0 digits : Int) else gather 0 digits

/-- The power of ten of the last digit. -/
def power (n : Numeral) : Int := n.shift - n.fraction.length

/-- A numeral that is a number, and one that is not too large. -/
structure Readable (n : Numeral) : Prop where
  whole : IsWhole n.whole
  fraction : ∀ b ∈ n.fraction, isDigit b = true
  exponent : ∀ minus digits, n.exponent = some (minus, digits) →
    digits ≠ [] ∧ ∀ b ∈ digits, isDigit b = true
  fits : Magnitude.Fits n.significand n.power

end Numeral

/-! ## Reading -/

theorem exists_realOf {significand : Nat} {power : Int} (h : Magnitude.Fits significand power)
    (negative : Bool) : ∃ number, realOf negative significand power = .ok number := by
  obtain ⟨magnitude, hmagnitude⟩ := Option.isSome_iff_exists.mp h.isSome_ofDecimal?
  refine ⟨.real ⟨negative, magnitude⟩, ?_⟩
  rw [realOf, hmagnitude]

theorem exists_integerOf {n : Nat} (h : n < Nat.pow 2 64) (negative : Bool) :
    ∃ number, integerOf negative n = .ok number := by
  unfold integerOf
  split
  · split
    · exact exists_realOf (Magnitude.fits_of_nonpos h le_rfl) true
    · exact ⟨_, rfl⟩
  · exact ⟨_, rfl⟩

theorem readScale_point {whole fraction : Bytes}
    (hfits : gather 0 (whole ++ fraction) < Nat.pow 2 64) (hne : fraction ≠ [])
    (hdigits : ∀ b ∈ fraction, isDigit b = true) {bytes : Bytes} (hbytes : NoDigit bytes)
    (negative : Bool) :
    readScale negative whole (0x2e :: (fraction ++ bytes)) =
      readShift negative true (gather 0 (whole ++ fraction)) (-fraction.length) bytes := by
  rw [gather_append] at hfits ⊢
  have hwhole := absorb_eq_gather (Nat.lt_of_le_of_lt (le_gather _ fraction) hfits)
  have hfraction := absorb_eq_gather hfits
  obtain ⟨htake, hdrop⟩ := hbytes.span hdigits
  obtain ⟨d, more, rfl⟩ := List.exists_cons_of_ne_nil hne
  simp only [readScale, hwhole, htake, hdrop, hfraction, List.length_nil, Nat.cast_zero,
    Int.zero_sub]
  rfl

theorem readScale_point_nil (negative : Bool) (whole : Bytes) :
    readScale negative whole [0x2e] = .error .truncated := rfl

theorem readExponent_digits {digits : Bytes} (hne : digits ≠ [])
    (hdigits : ∀ b ∈ digits, isDigit b = true) {rest : Bytes} (hrest : NoDigit rest)
    (minus : Bool) :
    readExponent ((if minus then 0x2d else 0x2b) :: (digits ++ rest)) =
      .ok (if minus then -(gather 0 digits : Int) else gather 0 digits, rest) := by
  obtain ⟨d, more, rfl⟩ := List.exists_cons_of_ne_nil hne
  have hd := hdigits d List.mem_cons_self
  obtain ⟨htake, hdrop⟩ := hrest.span fun b hb => hdigits b (List.mem_cons_of_mem _ hb)
  cases minus with
  | true => simp [readExponent, hd, htake, hdrop, gather]
  | false => simp [readExponent, hd, htake, hdrop, gather]

theorem readShift_exponent {digits : Bytes} (hne : digits ≠ [])
    (hdigits : ∀ b ∈ digits, isDigit b = true) {rest : Bytes} (hrest : NoDigit rest)
    (negative real minus : Bool) (significand : Nat) (power : Int) :
    readShift negative real significand power
        (0x65 :: (if minus then 0x2d else 0x2b) :: (digits ++ rest)) =
      (realOf negative significand
        (power + if minus then -(gather 0 digits : Int) else gather 0 digits)).map (·, rest) := by
  rw [readShift, if_pos (.inl rfl), readExponent_digits hne hdigits hrest minus]

namespace Numeral

variable {n : Numeral}

/-- Up to the exponent the significand is gathered. -/
theorem Readable.readUnsigned_eq (h : n.Readable) {bytes : Bytes}
    (hhead : ∀ b ∈ bytes.head?, isDigit b = false ∧ b ≠ 0x2e) (negative : Bool) :
    readUnsigned negative (n.whole ++ (n.pointed ++ bytes)) =
      readShift negative (!n.fraction.isEmpty) n.significand (-n.fraction.length) bytes := by
  by_cases hfraction : n.fraction = []
  · have hpointed : n.pointed = [] := if_pos hfraction
    have hsignificand : n.significand = gather 0 n.whole := by
      rw [significand, hfraction, List.append_nil]
    have hfits := h.fits.1
    rw [hsignificand] at hfits
    rw [hpointed, List.nil_append, readUnsigned_whole h.whole (fun b hb => (hhead b hb).1),
      readScale_plain hfits (fun b hb => (hhead b hb).2), hsignificand, hfraction]
    rfl
  · have hpointed : n.pointed = 0x2e :: n.fraction := if_neg hfraction
    have hpoint : NoDigit (0x2e :: (n.fraction ++ bytes)) := by simp [NoDigit, isDigit]
    have hreal : (!n.fraction.isEmpty) = true := by simp [hfraction]
    rw [hpointed, List.cons_append, readUnsigned_whole h.whole hpoint,
      readScale_point h.fits.1 hfraction h.fraction (fun b hb => (hhead b hb).1), hreal]
    rfl

/-- Neither the exponent nor what follows the number goes on with a fraction. -/
theorem scaled_append_head (n : Numeral) {rest : Bytes} (hrest : Stops rest) :
    ∀ b ∈ (n.scaled ++ rest).head?, isDigit b = false ∧ b ≠ 0x2e := by
  unfold scaled
  split
  · exact fun b hb => ⟨(hrest b hb).1, (hrest b hb).2.1⟩
  · intro b hb
    obtain rfl : b = 0x65 := by simpa using hb.symm
    decide

/-- The number that a numeral is read as. -/
theorem Readable.exists_number (h : n.Readable) (negative : Bool) :
    ∃ number, Gives (readUnsigned negative) n.octets (.ok number) := by
  have hread {rest : Bytes} (hrest : Stops rest) : readUnsigned negative (n.octets ++ rest) =
      readShift negative (!n.fraction.isEmpty) n.significand (-n.fraction.length)
        (n.scaled ++ rest) := by
    rw [octets, List.append_assoc, List.append_assoc]
    exact h.readUnsigned_eq (n.scaled_append_head hrest) negative
  obtain ⟨real, hreal⟩ := exists_realOf h.fits negative
  cases hexponent : n.exponent with
  | none =>
      have hscaled : n.scaled = [] := by rw [scaled, hexponent]
      have hpower : n.power = -n.fraction.length := by
        rw [power, shift, hexponent]
        exact Int.zero_sub _
      obtain ⟨integer, hinteger⟩ := exists_integerOf h.fits.1 negative
      refine ⟨if !n.fraction.isEmpty then real else integer, fun rest hrest => ?_⟩
      rw [hread hrest, hscaled, List.nil_append, readShift_stops hrest, ← hpower, hreal, hinteger]
      split <;> rfl
  | some exponent =>
      obtain ⟨minus, digits⟩ := exponent
      obtain ⟨hne, hdigits⟩ := h.exponent minus digits hexponent
      have hscaled : n.scaled = 0x65 :: (if minus then 0x2d else 0x2b) :: digits := by
        rw [scaled, hexponent]
      have hpower : n.power =
          -n.fraction.length + if minus then -(gather 0 digits : Int) else gather 0 digits := by
        rw [power, shift, hexponent, sub_eq_neg_add]
      refine ⟨real, fun rest hrest => ?_⟩
      rw [hread hrest, hscaled, List.cons_append, List.cons_append,
        readShift_exponent hne hdigits hrest.noDigit, ← hpower, hreal]

end Numeral

/-! ## Cuts -/

theorem gather_le_of_prefix {front digits : Bytes} (h : front <+: digits) :
    gather 0 front ≤ gather 0 digits := by
  obtain ⟨back, rfl⟩ := h
  rw [gather_append]
  exact le_gather _ back

theorem IsWhole.of_prefix {front whole : Bytes} (h : IsWhole whole) (hfront : front <+: whole)
    (hne : front ≠ []) : IsWhole front := by
  obtain ⟨back, rfl⟩ := hfront
  refine ⟨hne, fun b hb => h.isDigit b (List.mem_append_left _ hb), ?_⟩
  rintro more rfl
  exact (List.append_eq_nil_iff.mp (h.leading (more ++ back) rfl)).1

namespace Numeral

variable {n : Numeral} {front : Bytes}

theorem Readable.of_fraction (h : n.Readable) {fraction : Bytes}
    (hfront : fraction <+: n.fraction) :
    Readable ⟨n.whole, fraction, none⟩ := by
  obtain ⟨back, hback⟩ := hfront
  refine ⟨h.whole, fun b hb => h.fraction b ?_, by simp, ?_⟩
  · rw [← hback]
    exact List.mem_append_left _ hb
  · refine Magnitude.fits_of_nonpos (Nat.lt_of_le_of_lt ?_ h.fits.1) ?_
    · refine gather_le_of_prefix ⟨back, ?_⟩
      dsimp only
      rw [List.append_assoc, hback]
    · simp [power, shift]

theorem Readable.of_whole (h : n.Readable) {whole : Bytes} (hfront : whole <+: n.whole)
    (hne : whole ≠ []) : Readable ⟨whole, [], none⟩ := by
  refine ⟨h.whole.of_prefix hfront hne, by simp, by simp, ?_⟩
  refine Magnitude.fits_of_nonpos (Nat.lt_of_le_of_lt ?_ h.fits.1) ?_
  · refine gather_le_of_prefix ?_
    dsimp only
    rw [List.append_nil]
    exact hfront.trans (List.prefix_append _ _)
  · simp [power, shift]

theorem Readable.of_exponent (h : n.Readable) {minus : Bool} {digits shorter : Bytes}
    (hexponent : n.exponent = some (minus, digits)) (hfront : shorter <+: digits)
    (hne : shorter ≠ []) : Readable ⟨n.whole, n.fraction, some (minus, shorter)⟩ := by
  obtain ⟨-, hdigits⟩ := h.exponent minus digits hexponent
  refine ⟨h.whole, h.fraction, ?_, ?_⟩
  · rintro _ _ ⟨⟩
    exact ⟨hne, fun b hb => hdigits b (hfront.subset hb)⟩
  · have hless := gather_le_of_prefix hfront
    cases minus with
    | true =>
        refine Magnitude.fits_of_nonpos h.fits.1 ?_
        simp only [power, shift, if_true]
        omega
    | false =>
        refine h.fits.mono ?_
        simp only [power, shift, hexponent, Bool.false_eq_true, if_false]
        omega

theorem Readable.truncated_of_exponent (h : n.Readable) (negative : Bool) {sign : Bytes}
    (hsign : sign = [] ∨ ∃ minus : Bool, sign = [if minus then 0x2d else 0x2b]) :
    readUnsigned negative (n.whole ++ (n.pointed ++ 0x65 :: sign)) = .error .truncated := by
  have hhead : ∀ b ∈ (0x65 :: sign).head?, isDigit b = false ∧ b ≠ 0x2e := by simp [isDigit]
  rw [h.readUnsigned_eq hhead negative]
  rcases hsign with rfl | ⟨_ | _, rfl⟩ <;> rfl

/-- Either a numeral is cut to a shorter one, or a digit is missing at the end. -/
def Ends (front : Bytes) : Prop :=
  (∃ shorter : Numeral, shorter.Readable ∧ front = shorter.octets) ∨
    ∀ negative, readUnsigned negative front = .error .truncated

theorem Readable.ends_of_pointed (h : n.Readable) (hcut : Bytes.Cuts front n.pointed) :
    Ends (n.whole ++ front) := by
  unfold pointed at hcut
  split at hcut
  · exact absurd hcut (Bytes.not_cuts_nil front)
  rcases Bytes.cuts_cons_iff.mp hcut with rfl | ⟨digits, rfl, hdigits⟩
  · exact .inl ⟨_, h.of_fraction List.nil_prefix, by simp [octets, pointed, scaled]⟩
  by_cases hne : digits = []
  · subst hne
    refine .inr fun negative => ?_
    rw [readUnsigned_whole h.whole (by simp [NoDigit, isDigit])]
    exact readScale_point_nil negative n.whole
  · exact .inl ⟨_, h.of_fraction hdigits.1, by simp [octets, pointed, scaled, hne]⟩

theorem Readable.ends_of_scaled (h : n.Readable) (hcut : Bytes.Cuts front n.scaled) :
    Ends (n.whole ++ (n.pointed ++ front)) := by
  unfold scaled at hcut
  split at hcut
  · exact absurd hcut (Bytes.not_cuts_nil front)
  next minus digits hexponent =>
    rcases Bytes.cuts_cons_iff.mp hcut with rfl | ⟨behind, rfl, hsign⟩
    · exact .inl ⟨_, h.of_fraction List.prefix_rfl, by simp [octets, pointed, scaled]⟩
    rcases Bytes.cuts_cons_iff.mp hsign with rfl | ⟨shorter, rfl, hdigits⟩
    · exact .inr fun negative => h.truncated_of_exponent negative (.inl rfl)
    by_cases hne : shorter = []
    · subst hne
      exact .inr fun negative => h.truncated_of_exponent negative (.inr ⟨minus, rfl⟩)
    · exact .inl ⟨_, h.of_exponent hexponent hdigits.1 hne, by simp [octets, pointed, scaled]⟩

/-- Wherever a numeral is cut there is a shorter one, or a digit is missing. -/
theorem Readable.ends_of_cuts (h : n.Readable) (hcut : Bytes.Cuts front n.octets) :
    Ends front := by
  rcases Bytes.cuts_append_iff.mp hcut with hwhole | ⟨behind, rfl, hbehind⟩
  · by_cases hne : front = []
    · subst hne
      exact .inr fun _ => rfl
    · exact .inl ⟨_, h.of_whole hwhole.1 hne, by simp [octets, pointed, scaled]⟩
  rcases Bytes.cuts_append_iff.mp hbehind with hpointed | ⟨last, rfl, hscaled⟩
  · exact h.ends_of_pointed hpointed
  · exact h.ends_of_scaled hscaled

end Numeral

/-! ## Numbers as they are written -/

/-- A text that is a readable numeral. -/
def IsNumeral (chars : List Char) : Prop :=
  ∃ n : Numeral, n.Readable ∧ Bytes.ofChars chars = n.octets

theorem isNumeral_toDigits {n : Nat} (hfits : n < Nat.pow 2 64) :
    IsNumeral (Nat.toDigits 10 n) := by
  have hvalue := gather_ofChars (fun c => isDigit_of_mem_toDigits (n := n)) 0
  rw [Nat.ofDigitChars_ten_toDigits] at hvalue
  refine ⟨⟨Bytes.ofChars (Nat.toDigits 10 n), [], none⟩,
    ⟨isWhole_toDigits n, by simp, by simp, ?_⟩, ?_⟩
  · refine Magnitude.fits_of_nonpos ?_ (by simp [Numeral.power, Numeral.shift])
    rwa [Numeral.significand, List.append_nil, hvalue]
  · simp [Numeral.octets, Numeral.pointed, Numeral.scaled]

theorem ofChars_ne_nil {chars : List Char} (h : chars ≠ []) : Bytes.ofChars chars ≠ [] := by
  obtain ⟨c, more, rfl⟩ := List.exists_cons_of_ne_nil h
  simp [Bytes.ofChars_cons]

theorem isNumeral_point {whole fraction : List Char} (hwhole : IsWhole (Bytes.ofChars whole))
    (hdigits : ∀ c ∈ whole ++ fraction, c.isDigit = true) (hne : fraction ≠ [])
    (hfits : Nat.ofDigitChars 10 (whole ++ fraction) 0 < Nat.pow 2 64) :
    IsNumeral (whole ++ '.' :: fraction) := by
  refine ⟨⟨Bytes.ofChars whole, Bytes.ofChars fraction, none⟩, ⟨hwhole, ?_, by simp, ?_⟩, ?_⟩
  · exact fun b => isDigit_of_mem_ofChars fun c hc => hdigits c (List.mem_append_right _ hc)
  · refine Magnitude.fits_of_nonpos ?_ (by simp [Numeral.power, Numeral.shift])
    rwa [Numeral.significand, ← Bytes.ofChars_append, gather_ofChars hdigits]
  · rw [Bytes.ofChars_append, Bytes.ofChars_cons, Numeral.octets, Numeral.pointed,
      if_neg (ofChars_ne_nil hne), Numeral.scaled, List.append_nil]
    rfl

theorem length_ofChars {chars : List Char} (hdigits : ∀ c ∈ chars, c.isDigit = true) :
    (Bytes.ofChars chars).length = chars.length := by
  induction chars with
  | nil => rfl
  | cons c chars ih =>
      obtain ⟨hencode, -⟩ := utf8EncodeChar_of_isDigit (hdigits c List.mem_cons_self)
      rw [Bytes.ofChars_cons, hencode, List.length_append,
        ih fun c hm => hdigits c (List.mem_cons_of_mem _ hm), List.length_singleton,
        List.length_cons, Nat.add_comm]

theorem ofDigitChars_lt {chars : List Char} (hdigits : ∀ c ∈ chars, c.isDigit = true) :
    Nat.ofDigitChars 10 chars 0 < 10 ^ chars.length := by
  have hless := gather_lt (fun b => isDigit_of_mem_ofChars hdigits) 0
  rwa [gather_ofChars hdigits, length_ofChars hdigits, Nat.zero_add, Nat.one_mul] at hless

theorem isNumeral_zero : IsNumeral ['0', '.', '0'] := by
  have hdigits : ∀ c ∈ ['0'] ++ ['0'], c.isDigit = true := by simp
  exact isNumeral_point (isWhole_ofChars (by simp) fun _ => rfl) hdigits (List.cons_ne_nil _ _)
    ((ofDigitChars_lt hdigits).trans_le (by decide))

variable {d : Digits}

theorem isNumeral_positional_of_neg (h : d.InRange) (hpower : d.power < 0) :
    IsNumeral d.positional := by
  obtain ⟨c, rest, hdigits, hc⟩ := h.leading
  let zeros := List.replicate (d.power.natAbs - 1) '0'
  have hpositional : d.positional = ['0'] ++ '.' :: (zeros ++ d.digits) := by
    rw [Digits.positional, if_pos hpower]
    rfl
  have hvalue : Nat.ofDigitChars 10 (['0'] ++ (zeros ++ d.digits)) 0 = d.significand := by
    rw [Nat.ofDigitChars_append, Nat.ofDigitChars_append, Nat.ofDigitChars_replicate_zero]
    rfl
  rw [hpositional]
  refine isNumeral_point (isWhole_ofChars (by simp) (fun _ => rfl)) ?_ ?_ ?_
  · intro e he
    simp only [List.mem_append, List.mem_singleton, zeros, List.mem_replicate] at he
    rcases he with rfl | ⟨-, rfl⟩ | he
    · rfl
    · rfl
    · exact h.isDigit e he
  · simp [hdigits]
  · rw [hvalue]
    exact h.significand_le.trans_lt (by decide)

/-- Up to seventeen digits fit the significand. -/
theorem ofDigitChars_positional_lt (h : d.InRange) (hpower : 0 ≤ d.power) (hmost : d.power ≤ 15) :
    Nat.ofDigitChars 10 (d.whole ++ d.fraction) 0 < Nat.pow 2 64 := by
  rcases d.fraction_eq_zero_or with hzero | hsame
  · refine (ofDigitChars_lt fun e he => h.isDigit_of_mem_append he).trans_le ?_
    rw [List.length_append, d.length_whole, hzero, List.length_singleton]
    exact (Nat.pow_le_pow_right (by decide) (by omega)).trans (by decide : 10 ^ 17 ≤ Nat.pow 2 64)
  · rw [hsame]
    exact h.significand_le.trans_lt (by decide)

theorem isNumeral_positional_of_nonneg (h : d.InRange) (hpower : 0 ≤ d.power)
    (hmost : d.power ≤ 15) : IsNumeral d.positional := by
  obtain ⟨c, rest, hwhole, hc⟩ := h.exists_whole_eq_cons
  rw [Digits.positional_of_nonneg hpower]
  refine isNumeral_point ?_ (fun e he => h.isDigit_of_mem_append he) d.fraction_ne_nil
    (ofDigitChars_positional_lt h hpower hmost)
  rw [hwhole]
  refine isWhole_ofChars (fun e he => h.isDigit_of_mem_append ?_) fun hzero => absurd hzero hc
  rw [hwhole]
  exact List.mem_append_left _ he

/-- One digit before the point, all others behind it. -/
def Numeral.scientific (d : Digits) : Numeral where
  whole := Bytes.ofChars (d.digits.take 1)
  fraction := Bytes.ofChars (d.digits.drop 1)
  exponent := some (decide (d.power < 0), Bytes.ofChars (Nat.toDigits 10 d.power.natAbs))

theorem Numeral.significand_scientific (h : d.InRange) :
    (scientific d).significand = d.significand := by
  rw [significand, scientific, ← Bytes.ofChars_append, List.take_append_drop,
    gather_ofChars h.isDigit]
  rfl

theorem Numeral.power_scientific (h : d.InRange) :
    (scientific d).power = d.power + 1 - d.digits.length := by
  obtain ⟨c, rest, hdigits, -⟩ := h.leading
  have hexponent : (gather 0 (Bytes.ofChars (Nat.toDigits 10 d.power.natAbs)) : Int) =
      d.power.natAbs := by
    rw [gather_ofChars fun e => isDigit_of_mem_toDigits, Nat.ofDigitChars_ten_toDigits]
  have hlength : (scientific d).fraction.length = rest.length := by
    rw [scientific, hdigits]
    exact length_ofChars fun e he => h.isDigit e (hdigits ▸ List.mem_cons_of_mem _ he)
  have hshift : (scientific d).shift = d.power := by
    simp only [shift, scientific, hexponent, decide_eq_true_eq]
    split <;> omega
  rw [power, hlength, hshift, hdigits, List.length_cons]
  omega

theorem Numeral.ofChars_scientific (h : d.InRange) :
    Bytes.ofChars d.scientific = (scientific d).octets := by
  obtain ⟨c, rest, hdigits, -⟩ := h.leading
  have hpoint : Bytes.ofChars (if d.digits.length ≤ 1 then d.digits
      else d.digits.take 1 ++ '.' :: d.digits.drop 1) =
        (scientific d).whole ++ (scientific d).pointed := by
    cases rest with
    | nil => simp [hdigits, pointed, scientific, Bytes.ofChars]
    | cons e rest =>
        have hfraction : (scientific d).fraction ≠ [] := by
          rw [scientific, hdigits]
          exact ofChars_ne_nil (List.cons_ne_nil e rest)
        rw [pointed, if_neg hfraction, scientific, hdigits, if_neg (by simp)]
        exact Bytes.ofChars_append [c] _
  have hscaled : Bytes.ofChars ('e' :: (if d.power < 0 then '-' else '+') ::
      Nat.toDigits 10 d.power.natAbs) = (scientific d).scaled := by
    by_cases hneg : d.power < 0
    · simp only [scaled, scientific, hneg, if_true, decide_true]
      rfl
    · simp only [scaled, scientific, hneg, if_false, decide_false, Bool.false_eq_true]
      rfl
  rw [Digits.scientific, Bytes.ofChars_append, hpoint, hscaled, octets, List.append_assoc]

theorem isNumeral_scientific (h : d.InRange) : IsNumeral d.scientific := by
  obtain ⟨c, rest, hdigits, hc⟩ := h.leading
  refine ⟨.scientific d, ⟨?_, fun b => isDigit_of_mem_ofChars fun e he => ?_, ?_, ?_⟩,
    Numeral.ofChars_scientific h⟩
  · have hone : Bytes.ofChars (d.digits.take 1) = Bytes.ofChars [c] := by rw [hdigits]; rfl
    rw [Numeral.scientific, hone]
    refine isWhole_ofChars (fun e he => h.isDigit e ?_) fun _ => rfl
    rw [hdigits, List.mem_singleton.mp he]
    exact List.mem_cons_self
  · exact h.isDigit e (List.mem_of_mem_drop he)
  · rintro minus digits heq
    obtain ⟨-, rfl⟩ := Prod.mk.inj (Option.some.inj heq)
    exact ⟨ofChars_ne_nil Nat.toDigits_ne_nil,
      fun b => isDigit_of_mem_ofChars fun e => isDigit_of_mem_toDigits⟩
  · rw [Numeral.significand_scientific h, Numeral.power_scientific h]
    exact ⟨h.significand_le.trans_lt (by decide),
      fun _ => ⟨h.significand_pos, h.significand_le, h.le_largest⟩⟩

theorem isNumeral_text (h : d.InRange) : IsNumeral (d.text numberLayout) := by
  unfold Digits.text
  split
  · next hpositional =>
      rcases lt_or_ge d.power 0 with hneg | hnonneg
      · exact isNumeral_positional_of_neg h hneg
      · exact isNumeral_positional_of_nonneg h hnonneg hpositional.2
  · exact isNumeral_scientific h

/-- The numbers that are written: integers of 64 bits, with a sign or without, and doubles. -/
inductive Written : JsonNumber → Prop
  | int {n : Int} : -2 ^ 63 ≤ n → n < 2 ^ 64 → Written (.int n)
  | real {x : Double} : x.magnitude.InRange → Written (.real x)

def minus (negative : Bool) : Bytes := if negative then [0x2d] else []

/-- Every number is written as a numeral, behind a minus or not. -/
theorem Written.exists_numeral {number : JsonNumber} (h : Written number) :
    ∃ negative, ∃ n : Numeral, n.Readable ∧
      Bytes.ofChars (writeNumber number) = minus negative ++ n.octets := by
  have hsigned (negative : Bool) {chars : List Char} (h : IsNumeral chars) :
      ∃ n : Numeral, n.Readable ∧
        Bytes.ofChars (if negative then '-' :: chars else chars) = minus negative ++ n.octets := by
    obtain ⟨n, hn, hchars⟩ := h
    refine ⟨n, hn, ?_⟩
    cases negative with
    | true => rw [if_pos rfl, Bytes.ofChars_cons, hchars]; rfl
    | false => rw [if_neg Bool.false_ne_true, hchars]; rfl
  cases h with
  | @int n hlow hhigh =>
      have hfits : n.natAbs < Nat.pow 2 64 := by
        rw [show Nat.pow 2 64 = 2 ^ 64 from rfl]
        omega
      obtain ⟨numeral, hnumeral, hchars⟩ := hsigned (decide (n < 0)) (isNumeral_toDigits hfits)
      refine ⟨decide (n < 0), numeral, hnumeral, ?_⟩
      rw [← hchars, writeNumber, writeInt]
      simp only [decide_eq_true_eq]
  | @real x hx =>
      have htext : IsNumeral (if x.magnitude.mantissa = 0 then ['0', '.', '0']
          else x.magnitude.shortest.text numberLayout) := by
        split
        · exact isNumeral_zero
        · next hzero => exact isNumeral_text (hx.shortest hzero)
      obtain ⟨numeral, hnumeral, hchars⟩ := hsigned x.negative htext
      exact ⟨x.negative, numeral, hnumeral, hchars⟩

end ThingHub.Json
