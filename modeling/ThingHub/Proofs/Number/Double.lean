import Mathlib.Algebra.Order.Field.Power
import Mathlib.Data.Rat.Cast.Order
import Mathlib.Tactic.FieldSimp
import Mathlib.Tactic.GCongr
import Mathlib.Tactic.Linarith
import Mathlib.Tactic.NormNum
import Mathlib.Tactic.Positivity
import Mathlib.Tactic.Ring
import ThingHub.Number.Double

/-! # How far rounding moves a number

A quotient is rounded by at most half a unit of its last place. So whatever is not above the
largest double has a nearest double, and a decimal of at most seventeen digits that is not
above it is read without running out of range, although reading rounds up to three times. -/

namespace ThingHub.Magnitude

/-! ## Exact values -/

/-- The number that a magnitude stands for. -/
def value (x : Magnitude) : ℚ := x.mantissa * 2 ^ x.exponent

theorem value_nonneg (x : Magnitude) : 0 ≤ x.value := by
  unfold value
  positivity

theorem value_eq_zero_iff {x : Magnitude} : x.value = 0 ↔ x.mantissa = 0 := by
  simp [value, zpow_ne_zero]

/-- The largest double. -/
def largest : Magnitude := ⟨2 ^ 53 - 1, maxExponent⟩

theorem zpow_of_neg (base : ℚ) {exponent : Int} (h : exponent < 0) :
    base ^ exponent = (base ^ exponent.natAbs)⁻¹ := by
  rw [← zpow_natCast, ← zpow_neg, Int.ofNat_natAbs_of_nonpos h.le, neg_neg]

theorem zpow_of_nonneg (base : ℚ) {exponent : Int} (h : 0 ≤ exponent) :
    base ^ exponent = base ^ exponent.natAbs := by
  rw [← zpow_natCast, Int.natAbs_of_nonneg h]

/-- A quotient as a pair stands for a rational number. -/
def quotient (pair : Nat × Nat) : ℚ := pair.1 / pair.2

theorem quotient_scaled (num den : Nat) (exponent : Int) :
    quotient (scaled num den exponent) = num / den / 2 ^ exponent := by
  unfold scaled
  split
  · next h =>
      rw [zpow_of_neg 2 h, quotient, div_inv_eq_mul]
      push_cast [Nat.pow_eq]
      ring
  · next h =>
      rw [zpow_of_nonneg 2 (Int.not_lt.mp h), quotient]
      push_cast [Nat.pow_eq]
      exact (div_div _ _ _).symm

theorem scaled_pos {den : Nat} (h : 0 < den) (num : Nat) (exponent : Int) :
    0 < (scaled num den exponent).2 := by
  unfold scaled
  split
  · exact h
  · exact Nat.mul_pos h (Nat.pow_pos (by decide))

theorem quotient_ratio (x : Magnitude) : quotient x.ratio = x.value := by
  unfold ratio value
  split
  · next h =>
      rw [zpow_of_neg 2 h, quotient, ← div_eq_mul_inv]
      push_cast [Nat.pow_eq]
      rfl
  · next h =>
      rw [zpow_of_nonneg 2 (Int.not_lt.mp h), quotient]
      push_cast [Nat.pow_eq]
      exact div_one _

theorem ratio_pos (x : Magnitude) : 0 < x.ratio.2 := by
  unfold ratio
  split
  · exact Nat.pow_pos (by decide)
  · exact Nat.one_pos

/-! ## Rounding to a whole number -/

theorem div_eq_add_mod {den : Nat} (h : 0 < den) (num : Nat) :
    (num : ℚ) / den = (num / den : Nat) + (num % den : Nat) / (den : ℚ) := by
  have hden : (den : ℚ) ≠ 0 := by positivity
  rw [eq_comm, ← sub_eq_zero]
  field_simp
  have hsplit : ((num / den : Nat) : ℚ) * den + (num % den : Nat) = num := by
    exact_mod_cast (Nat.div_add_mod' num den)
  linarith

theorem floor_le_quotient (num den : Nat) : ((num / den : Nat) : ℚ) ≤ quotient (num, den) := by
  rcases Nat.eq_zero_or_pos den with rfl | h
  · simp [quotient]
  · have hnonneg : 0 ≤ ((num % den : Nat) : ℚ) / den := by positivity
    rw [quotient, div_eq_add_mod h]
    linarith

theorem quotient_lt_floor {den : Nat} (h : 0 < den) (num : Nat) :
    quotient (num, den) < (num / den : Nat) + 1 := by
  have hden : (0 : ℚ) < den := by exact_mod_cast h
  have hless : ((num % den : Nat) : ℚ) / den < 1 := by
    rw [div_lt_one hden]
    exact_mod_cast Nat.mod_lt num h
  rw [quotient, div_eq_add_mod h]
  linarith

/-- Rounding moves a quotient by at most a half. -/
theorem abs_roundDiv_sub_le {den : Nat} (h : 0 < den) (num : Nat) :
    |(roundDiv num den : ℚ) - quotient (num, den)| ≤ 1 / 2 := by
  have hden : (0 : ℚ) < den := by exact_mod_cast h
  have hsplit : quotient (num, den) = _ := div_eq_add_mod h num
  have hfloor := floor_le_quotient num den
  have hceil := quotient_lt_floor h num
  have hdown (hle : 2 * (num % den) ≤ den) :
      |((num / den : Nat) : ℚ) - quotient (num, den)| ≤ 1 / 2 := by
    have hle : 2 * ((num % den : Nat) : ℚ) ≤ den := by exact_mod_cast hle
    have hlow : ((num % den : Nat) : ℚ) / den ≤ 1 / 2 := by
      rw [div_le_iff₀ hden]
      linarith
    rw [abs_le]
    constructor <;> linarith
  have hup (hle : den ≤ 2 * (num % den)) :
      |((num / den + 1 : Nat) : ℚ) - quotient (num, den)| ≤ 1 / 2 := by
    have hle : (den : ℚ) ≤ 2 * ((num % den : Nat) : ℚ) := by exact_mod_cast hle
    have hhigh : 1 / 2 ≤ ((num % den : Nat) : ℚ) / den := by
      rw [le_div_iff₀ hden]
      linarith
    rw [abs_le]
    push_cast
    constructor <;> linarith
  unfold roundDiv
  dsimp only
  split
  · exact hdown (by omega)
  · split
    · exact hup (by omega)
    · split
      · exact hdown (by omega)
      · exact hup (by omega)

/-! ## Rounding to a double -/

/-- The exponent at which a quotient has 53 digits before the point in base two. -/
def fullExponent (num den : Nat) : Int :=
  let guess : Int := (num.log2 : Int) - den.log2 - 52
  let leading := scaled num den (guess + 52)
  if leading.1 < leading.2 then guess - 1 else guess

theorem log2_bounds {n : Nat} (h : 0 < n) :
    (2 : ℚ) ^ (n.log2 : Int) ≤ n ∧ (n : ℚ) < 2 ^ ((n.log2 : Int) + 1) := by
  constructor
  · exact_mod_cast Nat.log2_self_le h.ne'
  · have hlt : n < 2 ^ (n.log2 + 1) := Nat.lt_log2_self
    exact_mod_cast hlt

/-- Numbers of so many digits each have a quotient of two possible lengths. -/
theorem quotient_bounds {num den : Nat} (hnum : 0 < num) (hden : 0 < den) :
    (2 : ℚ) ^ ((num.log2 : Int) - den.log2 - 1) ≤ quotient (num, den) ∧
      quotient (num, den) < (2 : ℚ) ^ ((num.log2 : Int) - den.log2 + 1) := by
  obtain ⟨hnumLow, hnumHigh⟩ := log2_bounds hnum
  obtain ⟨hdenLow, hdenHigh⟩ := log2_bounds hden
  have hdenPos : (0 : ℚ) < den := by exact_mod_cast hden
  set length : Int := (num.log2 : Int) - den.log2 with hlength
  constructor
  · have hsplit : (2 : ℚ) ^ (num.log2 : Int) =
        2 ^ (length - 1) * 2 ^ ((den.log2 : Int) + 1) := by
      rw [← zpow_add₀ (by decide)]
      congr 1
      omega
    rw [quotient, le_div_iff₀ hdenPos]
    calc (2 : ℚ) ^ (length - 1) * den ≤ 2 ^ (length - 1) * 2 ^ ((den.log2 : Int) + 1) := by gcongr
      _ ≤ num := hsplit ▸ hnumLow
  · have hsplit : (2 : ℚ) ^ ((num.log2 : Int) + 1) =
        2 ^ (length + 1) * 2 ^ (den.log2 : Int) := by
      rw [← zpow_add₀ (by decide)]
      congr 1
      omega
    rw [quotient, div_lt_iff₀ hdenPos]
    calc (num : ℚ) < 2 ^ (length + 1) * 2 ^ (den.log2 : Int) := hsplit ▸ hnumHigh
      _ ≤ 2 ^ (length + 1) * den := by gcongr

theorem scaled_lt_iff {den : Nat} (hden : 0 < den) (num : Nat) (exponent : Int) :
    (scaled num den exponent).1 < (scaled num den exponent).2 ↔
      quotient (num, den) < (2 : ℚ) ^ exponent := by
  have hpos : (0 : ℚ) < (scaled num den exponent).2 := by
    exact_mod_cast scaled_pos hden num exponent
  have hpower : (0 : ℚ) < 2 ^ exponent := by positivity
  rw [← div_lt_one hpower, quotient, ← quotient_scaled, quotient, div_lt_one hpos]
  exact Nat.cast_lt.symm

theorem fullExponent_bounds {num den : Nat} (hnum : 0 < num) (hden : 0 < den) :
    (2 : ℚ) ^ (fullExponent num den + 52) ≤ quotient (num, den) ∧
      quotient (num, den) < (2 : ℚ) ^ (fullExponent num den + 53) := by
  obtain ⟨hlow, hhigh⟩ := quotient_bounds hnum hden
  have hiff := scaled_lt_iff hden num ((num.log2 : Int) - den.log2 - 52 + 52)
  rw [sub_add_cancel] at hiff
  unfold fullExponent
  dsimp only
  rw [sub_add_cancel]
  split
  · next h =>
      rw [show (num.log2 : Int) - den.log2 - 52 - 1 + 52 = num.log2 - den.log2 - 1 by ring,
        show (num.log2 : Int) - den.log2 - 52 - 1 + 53 = num.log2 - den.log2 by ring]
      exact ⟨hlow, hiff.mp h⟩
  · next h =>
      rw [show (num.log2 : Int) - den.log2 - 52 + 52 = num.log2 - den.log2 by ring,
        show (num.log2 : Int) - den.log2 - 52 + 53 = num.log2 - den.log2 + 1 by ring]
      exact ⟨Rat.not_lt.mp (mt hiff.mpr h), hhigh⟩

/-- A quotient rounded at an exponent. -/
structure Rounds (q : ℚ) (exponent : Int) (mantissa : Nat) : Prop where
  from_least : minExponent ≤ exponent
  full_or_least : exponent = minExponent ∨ (2 : ℚ) ^ (exponent + 52) ≤ q
  below : q < (2 : ℚ) ^ (exponent + 53)
  near : |(mantissa : ℚ) - q / 2 ^ exponent| ≤ 1 / 2

/-- A mantissa that was rounded up to `2 ^ 53` makes way for the next exponent. -/
def carry (exponent : Int) (mantissa : Nat) : Magnitude :=
  if mantissa = 2 ^ 53 then ⟨2 ^ 52, exponent + 1⟩ else ⟨mantissa, exponent⟩

theorem value_carry (exponent : Int) (mantissa : Nat) :
    (carry exponent mantissa).value = mantissa * 2 ^ exponent := by
  unfold carry
  split
  · next h =>
      rw [h, value, zpow_add_one₀ two_ne_zero]
      push_cast
      ring
  · rfl

/-- What rounding to a double comes to. -/
theorem ofRatio?_eq {num den : Nat} (hnum : 0 < num) (hden : 0 < den) :
    ∃ exponent mantissa, Rounds (quotient (num, den)) exponent mantissa ∧
      ofRatio? num den = if maxExponent < (carry exponent mantissa).exponent then none
        else some (carry exponent mantissa) := by
  obtain ⟨hfrom, hbelow⟩ := fullExponent_bounds hnum hden
  set exponent := max (fullExponent num den) minExponent with hexponent
  let ratio := scaled num den exponent
  refine ⟨exponent, roundDiv ratio.1 ratio.2, ⟨le_max_right _ _, ?_, hbelow.trans_le ?_, ?_⟩, ?_⟩
  · rcases max_choice (fullExponent num den) minExponent with hmax | hmax
    · exact .inr (by rwa [hexponent, hmax])
    · exact .inl hmax
  · gcongr
    · decide
    · exact le_max_left _ _
  · have hnear := abs_roundDiv_sub_le (scaled_pos hden num exponent) ratio.1
    rwa [show quotient (ratio.1, (scaled num den exponent).2) = _ from
      quotient_scaled num den exponent] at hnear
  · rw [ofRatio?, if_neg hnum.ne']
    rfl

/-! ## The error -/

section Error

variable {q : ℚ} {exponent : Int} {mantissa : Nat}

theorem Rounds.abs_sub_le (h : Rounds q exponent mantissa) :
    |(mantissa : ℚ) * 2 ^ exponent - q| ≤ 2 ^ exponent / 2 := by
  have hunit : (0 : ℚ) < 2 ^ exponent := by positivity
  have hscaled : (mantissa : ℚ) * 2 ^ exponent - q =
      (mantissa - q / 2 ^ exponent) * 2 ^ exponent := by
    rw [sub_mul, div_mul_cancel₀ q hunit.ne']
  rw [hscaled, abs_mul, abs_of_pos hunit]
  calc |(mantissa : ℚ) - q / 2 ^ exponent| * 2 ^ exponent ≤ 1 / 2 * 2 ^ exponent := by
        gcongr
        exact h.near
    _ = 2 ^ exponent / 2 := by ring

theorem Rounds.unit_le (h : Rounds q exponent mantissa) (hq : 1 ≤ q) :
    (2 : ℚ) ^ exponent ≤ q / 2 ^ 52 := by
  rcases h.full_or_least with hleast | hfull
  · have hsmall : (2 : ℚ) ^ (exponent + 53) ≤ 1 := by
      rw [hleast]
      exact zpow_le_one_of_nonpos₀ (by norm_num) (by decide)
    exact absurd (h.below.trans_le hsmall) (not_lt_of_ge hq)
  · rw [zpow_add₀ two_ne_zero] at hfull
    rw [le_div_iff₀ (by norm_num)]
    exact_mod_cast hfull

theorem Rounds.unit_le_add (h : Rounds q exponent mantissa) (hq : 0 ≤ q) :
    (2 : ℚ) ^ exponent ≤ q + 1 := by
  have hmonotone : (2 : ℚ) ^ exponent ≤ 2 ^ (exponent + 52) := by
    gcongr
    · norm_num
    · omega
  rcases h.full_or_least with hleast | hfull
  · have hsmall : (2 : ℚ) ^ exponent ≤ 1 := by
      rw [hleast]
      exact zpow_le_one_of_nonpos₀ (by norm_num) (by decide)
    linarith
  · linarith

/-- A double next to a number. From one on it is off by at most its `2 ^ 53`rd part. -/
structure Approximates (x : Magnitude) (q : ℚ) : Prop where
  le : x.value ≤ 2 * q + 1
  close : 1 ≤ q → |x.value - q| ≤ q / 2 ^ 53

theorem Rounds.approximates (h : Rounds q exponent mantissa) (hq : 0 ≤ q) :
    Approximates (carry exponent mantissa) q := by
  have herror := h.abs_sub_le
  rw [← value_carry] at herror
  constructor
  · have hunit := h.unit_le_add hq
    have := (abs_le.mp herror).2
    linarith
  · intro hone
    have hunit := h.unit_le hone
    refine herror.trans ?_
    linarith

/-- Nothing that is not above the largest double is rounded beyond it. -/
theorem Rounds.exponent_le (h : Rounds q exponent mantissa) (hq : q ≤ largest.value) :
    (carry exponent mantissa).exponent ≤ maxExponent := by
  have hunit : (0 : ℚ) < 2 ^ exponent := by positivity
  have hlargest : largest.value < 2 ^ (maxExponent + 53) := by
    rw [largest, value, zpow_add₀ two_ne_zero, mul_comm]
    gcongr
    norm_num
  have hle : exponent ≤ maxExponent := by
    rcases h.full_or_least with hleast | hfull
    · rw [hleast]
      decide
    · have hless := (hfull.trans hq).trans_lt hlargest
      have := (zpow_lt_zpow_iff_right₀ (one_lt_two : (1 : ℚ) < 2)).mp hless
      omega
  unfold carry
  split
  · next hcarry =>
      -- at the largest exponent the quotient stays a unit below `2 ^ 53`
      refine Int.lt_iff_add_one_le.mp (lt_of_le_of_ne hle ?_)
      intro hmax
      have hnear := (abs_le.mp h.near).2
      have hquotient : q / 2 ^ exponent ≤ 2 ^ 53 - 1 := by
        rw [div_le_iff₀ hunit]
        refine hq.trans_eq ?_
        rw [largest, value, hmax]
        norm_num
      rw [hcarry] at hnear
      push_cast at hnear
      linarith
  · exact hle

end Error

/-- Whatever is not above the largest double has a double next to it. -/
theorem exists_ofRatio? {den : Nat} (hden : 0 < den) {num : Nat}
    (h : quotient (num, den) ≤ largest.value) :
    ∃ x, ofRatio? num den = some x ∧ Approximates x (quotient (num, den)) := by
  rcases Nat.eq_zero_or_pos num with rfl | hnum
  · refine ⟨zero, rfl, ?_⟩
    have hzero : quotient (0, den) = 0 := by simp [quotient]
    rw [hzero]
    exact ⟨by norm_num [zero, value], fun h => absurd h (by norm_num)⟩
  · obtain ⟨exponent, mantissa, hrounds, heq⟩ := ofRatio?_eq hnum hden
    have hnonneg : 0 ≤ quotient (num, den) := by
      unfold quotient
      positivity
    refine ⟨carry exponent mantissa, ?_, hrounds.approximates hnonneg⟩
    rw [heq, if_neg (not_lt_of_ge (hrounds.exponent_le h))]

theorem exists_ofNat? {n : Nat} (h : (n : ℚ) ≤ largest.value) :
    ∃ x, ofNat? n = some x ∧ Approximates x n := by
  have hvalue : quotient (n, 1) = n := by simp [quotient]
  have hfound := exists_ofRatio? Nat.one_pos (hvalue ▸ h)
  rwa [hvalue] at hfound

theorem exists_mul? {x y : Magnitude} (h : x.value * y.value ≤ largest.value) :
    ∃ z, mul? x y = some z ∧ Approximates z (x.value * y.value) := by
  have hvalue : quotient (x.ratio.1 * y.ratio.1, x.ratio.2 * y.ratio.2) = x.value * y.value := by
    rw [← quotient_ratio, ← quotient_ratio, quotient, quotient, quotient, div_mul_div_comm]
    push_cast
    rfl
  have hfound := exists_ofRatio? (Nat.mul_pos x.ratio_pos y.ratio_pos) (hvalue ▸ h)
  rwa [hvalue] at hfound

theorem exists_div? {x y : Magnitude} (hy : 0 < y.value) (h : x.value / y.value ≤ largest.value) :
    ∃ z, div? x y = some z ∧ Approximates z (x.value / y.value) := by
  have hvalue : quotient (x.ratio.1 * y.ratio.2, x.ratio.2 * y.ratio.1) = x.value / y.value := by
    rw [← quotient_ratio, ← quotient_ratio, quotient, quotient, quotient, div_div_div_eq]
    push_cast
    rfl
  have hpos : 0 < y.ratio.1 := by
    rw [← quotient_ratio, quotient] at hy
    refine Nat.pos_of_ne_zero ?_
    intro hzero
    simp [hzero] at hy
  have hfound := exists_ofRatio? (Nat.mul_pos x.ratio_pos hpos) (hvalue ▸ h)
  rwa [hvalue] at hfound

/-! ## Decimals -/

theorem value_maxExponent (mantissa : Nat) :
    value ⟨mantissa, maxExponent⟩ = (mantissa * 2 ^ 971 : Nat) := by
  have hexponent : maxExponent = (971 : Nat) := rfl
  rw [value, hexponent, zpow_natCast, Nat.cast_mul, Nat.cast_pow, Nat.cast_two]

theorem value_largest : largest.value = ((2 ^ 53 - 1) * 2 ^ 971 : Nat) :=
  value_maxExponent _

theorem ten_pow_le_largest {k : Nat} (h : k ≤ 308) : ((10 ^ k : Nat) : ℚ) ≤ largest.value := by
  have hlargest : ∀ k ≤ 308, 10 ^ k ≤ (2 ^ 53 - 1) * 2 ^ 971 := by decide +kernel
  rw [value_largest, Nat.cast_le]
  exact hlargest k h

/-- The powers of ten that a shift goes by. -/
theorem exists_ofNat?_ten_pow {k : Nat} (h : k ≤ 308) :
    ∃ ten, ofNat? (Nat.pow 10 k) = some ten ∧ |ten.value - 10 ^ k| ≤ 10 ^ k / 2 ^ 53 := by
  obtain ⟨ten, hten, hclose⟩ := exists_ofNat? (ten_pow_le_largest h)
  have hone : (1 : ℚ) ≤ (10 ^ k : Nat) := by exact_mod_cast Nat.one_le_pow k 10 (by decide)
  refine ⟨ten, hten, ?_⟩
  exact_mod_cast hclose.close hone

theorem two_pow_le_largest : (2 : ℚ) ^ 68 ≤ largest.value := by
  have hlargest : 2 ^ 68 ≤ (2 ^ 53 - 1) * 2 ^ 971 := by decide +kernel
  rw [value_largest]
  calc (2 : ℚ) ^ 68 = (2 ^ 68 : Nat) := by norm_num
    _ ≤ _ := Nat.cast_le.mpr hlargest

/-- A shift down does not make a double too large. -/
theorem exists_shift?_of_nonpos {x : Magnitude} {power : Int} (hpower : power ≤ 0)
    (hrange : power.natAbs ≤ 308) (hx : x.value ≤ 2 ^ 66) :
    ∃ y, shift? x power = some y ∧ (power < 0 → y.value ≤ 2 ^ 66) := by
  obtain ⟨ten, hten, herror⟩ := exists_ofNat?_ten_pow hrange
  have hlower := (abs_le.mp herror).1
  have hnonneg := x.value_nonneg
  rcases hpower.lt_or_eq with hneg | rfl
  · have hpow : (10 : ℚ) ≤ 10 ^ power.natAbs := le_self_pow₀ (by norm_num) (by omega)
    have hpos : 4 ≤ ten.value := by linarith
    have hquotient : x.value / ten.value ≤ 2 ^ 64 := by
      rw [div_le_iff₀ (by linarith)]
      linarith
    obtain ⟨y, hy, happroximates⟩ := exists_div? (by linarith)
      (hquotient.trans (le_trans (by norm_num) two_pow_le_largest))
    refine ⟨y, ?_, fun _ => ?_⟩
    · rw [shift?, hten]
      exact (if_pos hneg).trans hy
    · have := happroximates.le
      linarith
  · have hupper := (abs_le.mp herror).2
    rw [Int.natAbs_zero, pow_zero] at hupper
    have hproduct : x.value * ten.value ≤ 2 ^ 66 * 2 :=
      mul_le_mul hx (by linarith) ten.value_nonneg (by norm_num)
    obtain ⟨y, hy, -⟩ := exists_mul? (hproduct.trans (le_trans (by norm_num) two_pow_le_largest))
    refine ⟨y, ?_, fun h => absurd h (lt_irrefl 0)⟩
    rw [shift?, hten]
    exact hy

theorem isSome_shiftBy?_of_nonpos {x : Magnitude} {power : Int} (hpower : power ≤ 0)
    (hx : x.value ≤ 2 ^ 66) (steps : Nat) : (shiftBy? steps x power).isSome = true := by
  induction steps generalizing x power with
  | zero =>
      rw [shiftBy?]
      split
      · rfl
      · rw [if_neg (not_lt_of_ge hpower)]
        rfl
  | succ steps ih =>
      rw [shiftBy?]
      split
      · next hrange =>
          obtain ⟨y, hy, -⟩ := exists_shift?_of_nonpos hpower hrange hx
          rw [hy]
          rfl
      · split
        · rfl
        · rw [if_neg (not_lt_of_ge hpower)]
          obtain ⟨y, hy, hvalue⟩ := exists_shift?_of_nonpos (by decide : (-308 : Int) ≤ 0) le_rfl hx
          rw [hy, Option.bind_some]
          exact ih (by omega) (hvalue (by decide))

/-- A decimal without a positive power of ten is never too large. -/
theorem isSome_ofDecimal?_of_nonpos {significand : Nat} (hfits : significand < Nat.pow 2 64)
    {power : Int} (hpower : power ≤ 0) : (ofDecimal? significand power).isSome = true := by
  have hlt : (significand : ℚ) < 2 ^ 64 := by exact_mod_cast hfits
  obtain ⟨x, hx, happroximates⟩ :=
    exists_ofNat? (hlt.le.trans (le_trans (by norm_num) two_pow_le_largest))
  rw [ofDecimal?, hx]
  refine isSome_shiftBy?_of_nonpos hpower ?_ 4
  have := happroximates.le
  linarith

/-- The third double from the largest. -/
def thirdLargest : Magnitude := ⟨2 ^ 53 - 3, maxExponent⟩

theorem value_thirdLargest : thirdLargest.value = ((2 ^ 53 - 3) * 2 ^ 971 : Nat) :=
  value_maxExponent _

/-- Below the largest doubles there is room for the error of two roundings. -/
theorem thirdLargest_mul_le : thirdLargest.value * (1 + 1 / 2 ^ 53) ^ 2 ≤ largest.value :=
  calc thirdLargest.value * (1 + 1 / 2 ^ 53) ^ 2
      = (2 ^ 53 - 3) * (1 + 1 / 2 ^ 53) ^ 2 * 2 ^ maxExponent := by
        rw [thirdLargest, value]
        push_cast
        ring
    _ ≤ (2 ^ 53 - 1) * 2 ^ maxExponent := by
        gcongr
        norm_num
    _ = largest.value := by
        rw [largest, value]
        norm_num

/-- So the product of two rounded factors is not above the largest double. -/
theorem isSome_ofDecimal?_of_le_thirdLargest {significand power : Nat} (hpos : 0 < significand)
    (hpower : power ≤ 308) (h : ((significand * 10 ^ power : Nat) : ℚ) ≤ thirdLargest.value) :
    (ofDecimal? significand power).isSome = true := by
  have hunit : thirdLargest.value ≤ largest.value := by
    rw [value_largest, value_thirdLargest, Nat.cast_le]
    gcongr
    norm_num
  have hone : (1 : ℚ) ≤ significand := by exact_mod_cast hpos
  have hsignificand : (significand : ℚ) ≤ largest.value := by
    refine le_trans ?_ (h.trans hunit)
    rw [Nat.cast_le]
    exact Nat.le_mul_of_pos_right _ (Nat.pow_pos (by decide))
  obtain ⟨x, hx, happroximates⟩ := exists_ofNat? hsignificand
  obtain ⟨ten, hten, herror⟩ := exists_ofNat?_ten_pow hpower
  have hxle : x.value ≤ significand * (1 + 1 / 2 ^ 53) := by
    have := (abs_le.mp (happroximates.close hone)).2
    linarith
  have htenle : ten.value ≤ 10 ^ power * (1 + 1 / 2 ^ 53) := by
    have := (abs_le.mp herror).2
    linarith
  have hproduct : x.value * ten.value ≤ largest.value :=
    calc x.value * ten.value
        ≤ significand * (1 + 1 / 2 ^ 53) * (10 ^ power * (1 + 1 / 2 ^ 53)) := by
          gcongr
          exact ten.value_nonneg
      _ = (significand * 10 ^ power : Nat) * (1 + 1 / 2 ^ 53) ^ 2 := by
          push_cast
          ring
      _ ≤ thirdLargest.value * (1 + 1 / 2 ^ 53) ^ 2 := by gcongr
      _ ≤ largest.value := thirdLargest_mul_le
  obtain ⟨y, hy, -⟩ := exists_mul? hproduct
  rw [ofDecimal?, hx, Option.bind_some, shiftBy?, if_pos (by simpa using hpower), shift?,
    Int.natAbs_natCast, hten, Option.bind_some, if_neg (by omega), hy]
  rfl

theorem power_le_of_le_largest {significand power : Nat} (hpos : 0 < significand)
    (h : significand * 10 ^ power ≤ (2 ^ 53 - 1) * 2 ^ 971) : power ≤ 308 := by
  obtain ⟨bound, hbound, hlarge⟩ : ∃ bound, bound = 309 ∧ (2 ^ 53 - 1) * 2 ^ 971 < 10 ^ bound :=
    ⟨309, rfl, by decide +kernel⟩
  have hten : 10 ^ power < 10 ^ bound :=
    (Nat.le_mul_of_pos_left _ hpos).trans_lt (h.trans_lt hlarge)
  have hless : power < bound := (Nat.pow_lt_pow_iff_right (by decide)).mp hten
  omega

/-- A decimal of at most seventeen digits that is not above the largest double is read. The
few next to the largest one are rounded down on the way. -/
theorem isSome_ofDecimal?_of_le_largest {significand power : Nat} (hpos : 0 < significand)
    (hdigits : significand ≤ 10 ^ 17)
    (h : ((significand * 10 ^ power : Nat) : ℚ) ≤ largest.value) :
    (ofDecimal? significand power).isSome = true := by
  rw [value_largest, Nat.cast_le] at h
  have hpower := power_le_of_le_largest hpos h
  have hroom (hle : significand * 10 ^ power ≤ (2 ^ 53 - 3) * 2 ^ 971) :
      (ofDecimal? significand power).isSome = true := by
    refine isSome_ofDecimal?_of_le_thirdLargest hpos hpower ?_
    rw [value_thirdLargest, Nat.cast_le]
    exact hle
  rcases lt_trichotomy power 292 with hless | rfl | hmore
  · have hbound : 10 ^ 17 * 10 ^ 291 ≤ (2 ^ 53 - 3) * 2 ^ 971 := by decide +kernel
    refine hroom (le_trans ?_ hbound)
    gcongr
    · decide
    · omega
  · have hbound : 17976931348623153 * 10 ^ 292 ≤ (2 ^ 53 - 3) * 2 ^ 971 := by decide +kernel
    have hover : (2 ^ 53 - 1) * 2 ^ 971 < 17976931348623158 * 10 ^ 292 := by decide +kernel
    have hless := Nat.lt_of_mul_lt_mul_right (h.trans_lt hover)
    by_cases hfar : significand ≤ 17976931348623153
    · exact hroom (le_trans (by gcongr) hbound)
    · obtain rfl | rfl | rfl | rfl : significand = 17976931348623154 ∨
          significand = 17976931348623155 ∨ significand = 17976931348623156 ∨
          significand = 17976931348623157 := by omega
      all_goals decide +kernel
  · obtain ⟨more, rfl⟩ : ∃ more, power = more + 293 := ⟨power - 293, by omega⟩
    have hbound : 1797693134862315 * 10 ^ 293 ≤ (2 ^ 53 - 3) * 2 ^ 971 := by decide +kernel
    have hover : (2 ^ 53 - 1) * 2 ^ 971 < 1797693134862316 * 10 ^ 293 := by decide +kernel
    rw [pow_add, ← Nat.mul_assoc] at h hroom
    have hless := Nat.lt_of_mul_lt_mul_right (h.trans_lt hover)
    refine hroom (le_trans ?_ hbound)
    gcongr
    exact Nat.le_of_lt_succ hless

/-- A decimal that a double can be read from: without a positive power of ten its digits need
only fit 64 bits, with one there are at most seventeen and the largest double is not exceeded. -/
def Fits (significand : Nat) (power : Int) : Prop :=
  significand < Nat.pow 2 64 ∧
    (0 < power → 0 < significand ∧ significand ≤ 10 ^ 17 ∧
      significand * 10 ^ power ≤ largest.value)

theorem fits_of_nonpos {significand : Nat} (hfits : significand < Nat.pow 2 64) {power : Int}
    (hpower : power ≤ 0) : Fits significand power :=
  ⟨hfits, fun h => absurd h (not_lt_of_ge hpower)⟩

theorem Fits.mono {significand : Nat} {power lower : Int} (h : Fits significand power)
    (hle : lower ≤ power) : Fits significand lower := by
  refine ⟨h.1, fun hpos => ?_⟩
  obtain ⟨hnonzero, hdigits, hlargest⟩ := h.2 (hpos.trans_le hle)
  refine ⟨hnonzero, hdigits, le_trans ?_ hlargest⟩
  gcongr
  norm_num

theorem Fits.isSome_ofDecimal? {significand : Nat} {power : Int} (h : Fits significand power) :
    (ofDecimal? significand power).isSome = true := by
  obtain ⟨hfits, hlarge⟩ := h
  rcases lt_or_ge 0 power with hpos | hnonpos
  · obtain ⟨hnonzero, hdigits, hlargest⟩ := hlarge hpos
    obtain ⟨power, rfl⟩ := Int.eq_ofNat_of_zero_le hpos.le
    rw [zpow_natCast] at hlargest
    exact isSome_ofDecimal?_of_le_largest hnonzero hdigits (by exact_mod_cast hlargest)
  · exact isSome_ofDecimal?_of_nonpos hfits hnonpos

end ThingHub.Magnitude
