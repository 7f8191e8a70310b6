import Mathlib.Data.List.DropRight
import ThingHub.Number.Shortest
import ThingHub.Proofs.Json.Numbers
import ThingHub.Proofs.Number.Double

/-! # Shortest digits exist and stay in range

The decimals that round to a double lie in an interval that is wider than the distance between
decimals of seventeen digits. So the search for the shortest one ends with a decimal of the
interval, which is not above the largest double. -/

namespace ThingHub

namespace Magnitude

/-- A mantissa and an exponent in the range of the doubles. -/
structure InRange (x : Magnitude) : Prop where
  mantissa_lt : x.mantissa < 2 ^ 53
  least_le : minExponent ≤ x.exponent
  le_most : x.exponent ≤ maxExponent

instance : DecidablePred InRange := fun x =>
  decidable_of_iff (x.mantissa < 2 ^ 53 ∧ minExponent ≤ x.exponent ∧ x.exponent ≤ maxExponent)
    ⟨fun ⟨hmantissa, hleast, hmost⟩ => ⟨hmantissa, hleast, hmost⟩,
      fun h => ⟨h.mantissa_lt, h.least_le, h.le_most⟩⟩

/-! ## The power of ten of the first digit -/

theorem toDigits_bounds {n : Nat} (h : 0 < n) :
    10 ^ ((Nat.toDigits 10 n).length - 1) ≤ n ∧ n < 10 ^ (Nat.toDigits 10 n).length := by
  obtain ⟨c, chars, hchars, -⟩ := Json.exists_toDigits_eq_cons n
  have hlength : (Nat.toDigits 10 n).length = chars.length + 1 := by rw [hchars, List.length_cons]
  constructor
  · rw [hlength, Nat.add_sub_cancel]
    rcases Nat.eq_zero_or_pos chars.length with hzero | hpos
    · rw [hzero]
      exact h
    · have hiff := Nat.length_toDigits_le_iff (b := 10) (n := n) (by decide) hpos
      refine Nat.not_lt.mp (mt hiff.mpr ?_)
      omega
  · exact (Nat.length_toDigits_le_iff (by decide) (by omega)).mp le_rfl

/-- A quotient from one on has as many digits before the point as its whole part. -/
theorem quotient_bounds_of_le {num den : Nat} (hden : 0 < den) (h : den ≤ num) :
    (10 : ℚ) ^ (((Nat.toDigits 10 (num / den)).length : Int) - 1) ≤ quotient (num, den) ∧
      quotient (num, den) < 10 ^ ((Nat.toDigits 10 (num / den)).length : Int) := by
  obtain ⟨hlow, hhigh⟩ := toDigits_bounds (Nat.div_pos h hden)
  have hlength : 0 < (Nat.toDigits 10 (num / den)).length := Nat.length_toDigits_pos
  rw [← Nat.cast_pred hlength, zpow_natCast, zpow_natCast]
  constructor
  · exact le_trans (by exact_mod_cast hlow) (floor_le_quotient num den)
  · exact (quotient_lt_floor hden num).trans_le (by exact_mod_cast Nat.succ_le_of_lt hhigh)

theorem quotient_swap (num den : Nat) : quotient (num, den) = (quotient (den, num))⁻¹ :=
  (inv_div _ _).symm

/-- A positive number lies between the power of ten of its first digit and the next one. -/
theorem leadingPower_bounds {num den : Nat} (hnum : 0 < num) (hden : 0 < den) :
    (10 : ℚ) ^ leadingPower num den ≤ quotient (num, den) ∧
      quotient (num, den) < 10 ^ (leadingPower num den + 1) := by
  unfold leadingPower
  split
  · next h =>
      rw [sub_add_cancel]
      exact quotient_bounds_of_le hden h
  · next h =>
      obtain ⟨hlow, hhigh⟩ := quotient_bounds_of_le hnum (Nat.le_of_not_le h)
      have hlength : 0 < (Nat.toDigits 10 (den / num)).length := Nat.length_toDigits_pos
      set length : Int := ((Nat.toDigits 10 (den / num)).length : Int)
      have hpos : 0 < quotient (den, num) := by
        unfold quotient
        positivity
      have hexact : num * Nat.pow 10 (length - 1).natAbs = den ↔
          quotient (den, num) = 10 ^ (length - 1) := by
        have hwhole : (0 : ℚ) < num := by exact_mod_cast hnum
        rw [zpow_of_nonneg 10 (by omega), quotient, div_eq_iff hwhole.ne', mul_comm, eq_comm]
        exact_mod_cast Iff.rfl
      dsimp only
      rw [quotient_swap num den]
      split
      · next heq =>
          rw [hexact.mp heq, ← zpow_neg, neg_sub]
          exact ⟨le_rfl, zpow_lt_zpow_right₀ (by norm_num) (by omega)⟩
      · next hne =>
          have hless := lt_of_le_of_ne hlow (Ne.symm (mt hexact.mpr hne))
          rw [show -length + 1 = -(length - 1) by ring, zpow_neg, zpow_neg]
          exact ⟨inv_anti₀ hpos hhigh.le, inv_strictAnti₀ (by positivity) hless⟩

/-! ## Numbers that round to a double -/

namespace Interval

def lowEnd (i : Interval) : ℚ := quotient (i.low, i.denominator)

def highEnd (i : Interval) : ℚ := quotient (i.high, i.denominator)

theorem quotient_lt_iff {a b c d : Nat} (hb : 0 < b) (hd : 0 < d) :
    quotient (a, b) < quotient (c, d) ↔ a * d < c * b := by
  have hb : (0 : ℚ) < b := by exact_mod_cast hb
  have hd : (0 : ℚ) < d := by exact_mod_cast hd
  rw [quotient, quotient, div_lt_div_iff₀ hb hd]
  exact_mod_cast Iff.rfl

theorem le_highEnd_of_contains {i : Interval} (hi : 0 < i.denominator) {num den : Nat}
    (hden : 0 < den) (h : i.contains num den = true) : quotient (num, den) ≤ i.highEnd := by
  refine Rat.not_lt.mp (mt (quotient_lt_iff hi hden).mp ?_)
  unfold contains at h
  cases hclosed : i.closed with
  | true =>
      simp only [hclosed, if_true, Bool.and_eq_true, decide_eq_true_eq] at h
      omega
  | false =>
      simp only [hclosed, Bool.false_eq_true, if_false, Bool.and_eq_true, decide_eq_true_eq] at h
      omega

theorem contains_of_lt {i : Interval} (hi : 0 < i.denominator) {num den : Nat} (hden : 0 < den)
    (hlow : i.lowEnd < quotient (num, den)) (hhigh : quotient (num, den) < i.highEnd) :
    i.contains num den = true := by
  have hlow := (quotient_lt_iff hi hden).mp hlow
  have hhigh := (quotient_lt_iff hden hi).mp hhigh
  unfold contains
  cases i.closed with
  | true => simp [hlow.le, hhigh.le]
  | false => simp [hlow, hhigh]

end Interval

theorem interval_denominator_pos (x : Magnitude) : 0 < x.interval.denominator :=
  scaled_pos (by decide) 1 _

theorem highEnd_interval (x : Magnitude) :
    x.interval.highEnd = x.value + 2 ^ x.exponent / 2 := by
  have hunit := quotient_scaled 1 4 (-x.exponent)
  rw [quotient, zpow_neg, div_inv_eq_mul] at hunit
  rw [Interval.highEnd, quotient, interval, value]
  dsimp only
  rw [Nat.cast_mul, mul_div_assoc, hunit]
  push_cast
  ring

/-- Below a power of two the interval has half the width. -/
theorem lowEnd_interval {x : Magnitude} (h : x.mantissa ≠ 0) :
    x.interval.lowEnd =
      x.value - 2 ^ x.exponent /
        (if x.mantissa = 2 ^ 52 ∧ minExponent < x.exponent then 4 else 2) := by
  have hunit := quotient_scaled 1 4 (-x.exponent)
  rw [quotient, zpow_neg, div_inv_eq_mul] at hunit
  rw [Interval.lowEnd, quotient, interval, value]
  dsimp only
  rw [Nat.cast_mul, mul_div_assoc, hunit, Nat.cast_sub (by split <;> omega)]
  simp only [Nat.pow_eq]
  split
  · push_cast
    ring
  · push_cast
    ring

/-- The interval of a double ends below the largest one, that one's own apart. -/
theorem InRange.highEnd_le {x : Magnitude} (h : x.InRange) (hx : x ≠ largest) :
    x.interval.highEnd ≤ largest.value := by
  obtain ⟨mantissa, exponent⟩ := x
  obtain ⟨hmantissa, -, hexponent⟩ := h
  dsimp only at hmantissa hexponent
  rw [highEnd_interval, largest, value, value]
  dsimp only
  rcases hexponent.lt_or_eq with hless | rfl
  · have hunit : (2 : ℚ) * 2 ^ exponent ≤ 2 ^ maxExponent := by
      rw [mul_comm, ← zpow_add_one₀ two_ne_zero]
      exact zpow_le_zpow_right₀ (by norm_num) (by omega)
    have hmantissa : (mantissa : ℚ) + 1 ≤ 2 ^ 53 := by exact_mod_cast hmantissa
    have hpos : (0 : ℚ) < 2 ^ exponent := by positivity
    calc (mantissa : ℚ) * 2 ^ exponent + 2 ^ exponent / 2 ≤ (mantissa + 1) * 2 ^ exponent := by
          linarith
      _ ≤ 2 ^ 53 * 2 ^ exponent := by gcongr
      _ ≤ (2 ^ 53 - 1) * (2 * 2 ^ exponent) := by
          norm_num
          linarith
      _ ≤ (2 ^ 53 - 1) * 2 ^ maxExponent := mul_le_mul_of_nonneg_left hunit (by norm_num)
      _ = ((2 ^ 53 - 1 : Nat) : ℚ) * 2 ^ maxExponent := by norm_num
  · have hne : mantissa ≠ 2 ^ 53 - 1 := fun heq => hx (by rw [heq, largest])
    have hmantissa : (mantissa : ℚ) + 2 ≤ 2 ^ 53 := by
      exact_mod_cast (by omega : mantissa + 2 ≤ 2 ^ 53)
    have hpos : (0 : ℚ) < 2 ^ maxExponent := by positivity
    calc (mantissa : ℚ) * 2 ^ maxExponent + 2 ^ maxExponent / 2
        ≤ (mantissa + 1) * 2 ^ maxExponent := by linarith
      _ ≤ ((2 ^ 53 - 1 : Nat) : ℚ) * 2 ^ maxExponent := by
          gcongr
          push_cast
          linarith

/-! ## Candidates -/

/-- The distance between neighbouring decimals as a quotient. -/
def cell (grid : Int) : Nat × Nat :=
  if grid < 0 then (1, Nat.pow 10 grid.natAbs) else (Nat.pow 10 grid.natAbs, 1)

theorem quotient_cell (grid : Int) : quotient (cell grid) = 10 ^ grid := by
  unfold cell
  split
  · next h =>
      rw [zpow_of_neg 10 h, quotient]
      push_cast [Nat.pow_eq]
      exact one_div _
  · next h =>
      rw [zpow_of_nonneg 10 (Int.not_lt.mp h), quotient]
      push_cast [Nat.pow_eq]
      exact div_one _

theorem cell_pos (grid : Int) : 0 < (cell grid).1 ∧ 0 < (cell grid).2 := by
  unfold cell
  split
  · exact ⟨Nat.one_pos, Nat.pow_pos (by decide)⟩
  · exact ⟨Nat.pow_pos (by decide), Nat.one_pos⟩

/-- How many cells fit below a quotient. -/
def cells (num den : Nat) (grid : Int) : Nat := (num * (cell grid).2) / (den * (cell grid).1)

theorem quotient_mul_cell (n : Nat) (grid : Int) :
    quotient (n * (cell grid).1, (cell grid).2) = n * 10 ^ grid := by
  rw [← quotient_cell, quotient, quotient, Nat.cast_mul, mul_div_assoc]

/-- A quotient lies between two neighbouring decimals. -/
theorem cells_bounds {den : Nat} (hden : 0 < den) (num : Nat) (grid : Int) :
    (cells num den grid : ℚ) * 10 ^ grid ≤ quotient (num, den) ∧
      quotient (num, den) < (cells num den grid + 1 : Nat) * 10 ^ grid := by
  obtain ⟨hnumerator, hdenominator⟩ := cell_pos grid
  have hpos : (0 : ℚ) < 10 ^ grid := by positivity
  have hscaled : quotient (num * (cell grid).2, den * (cell grid).1) =
      quotient (num, den) / 10 ^ grid := by
    rw [← quotient_cell, quotient, quotient, quotient, div_div_div_eq]
    push_cast
    rfl
  rw [← le_div_iff₀ hpos, ← div_lt_iff₀ hpos, ← hscaled]
  refine ⟨floor_le_quotient _ _, ?_⟩
  have hless := quotient_lt_floor (Nat.mul_pos hden hnumerator) (num * (cell grid).2)
  exact_mod_cast hless

/-- A decimal on the grid that rounds to the double. -/
def hits (i : Interval) (grid : Int) (n : Nat) : Bool :=
  n ≠ 0 && i.contains (n * (cell grid).1) (cell grid).2

theorem hits_iff {i : Interval} {grid : Int} {n : Nat} :
    hits i grid n = true ↔ n ≠ 0 ∧ i.contains (n * (cell grid).1) (cell grid).2 = true := by
  simp [hits]

variable {i : Interval} {num den : Nat} {grid : Int}

/-- The neighbour that is nearer to the quotient, of equally near ones the even one. -/
def nearer? (num den : Nat) (grid : Int) : Option Nat :=
  let below := cells num den grid
  let width := den * (cell grid).1
  let twice := 2 * ((num * (cell grid).2) % width)
  if twice < width then some below
  else if width < twice then some (below + 1)
  else if below % 2 = 0 then some below else some (below + 1)

theorem candidate?_eq (i : Interval) (num den : Nat) (grid : Int) :
    candidate? i num den grid =
      match hits i grid (cells num den grid), hits i grid (cells num den grid + 1) with
      | true, true => nearer? num den grid
      | true, false => some (cells num den grid)
      | false, true => some (cells num den grid + 1)
      | false, false => none := rfl

theorem nearer?_eq (num den : Nat) (grid : Int) :
    nearer? num den grid = some (cells num den grid) ∨
      nearer? num den grid = some (cells num den grid + 1) := by
  unfold nearer?
  dsimp only
  split_ifs <;> simp

/-- A candidate rounds to the double and is one of the two neighbours of the quotient. -/
theorem candidate?_eq_some {n : Nat} (h : candidate? i num den grid = some n) :
    hits i grid n = true ∧ n ≤ cells num den grid + 1 := by
  rw [candidate?_eq] at h
  split at h
  · next hbelow habove =>
      rcases nearer?_eq num den grid with hnear | hnear
      · cases hnear.symm.trans h
        exact ⟨hbelow, Nat.le_succ _⟩
      · cases hnear.symm.trans h
        exact ⟨habove, le_rfl⟩
  · next hbelow _ =>
      cases h
      exact ⟨hbelow, Nat.le_succ _⟩
  · next _ habove =>
      cases h
      exact ⟨habove, le_rfl⟩
  · cases h

/-- There is a candidate if one of the two neighbours rounds to the double. -/
theorem isSome_candidate? (h : hits i grid (cells num den grid) = true ∨
    hits i grid (cells num den grid + 1) = true) : (candidate? i num den grid).isSome = true := by
  rw [candidate?_eq]
  split
  · rcases nearer?_eq num den grid with hnear | hnear <;> simp [hnear]
  · rfl
  · rfl
  · next hbelow habove => simp [hbelow, habove] at h

/-- The search finds a candidate if one of the lengths that it tries has any. -/
theorem search_spec {power : Int} {left digits : Nat} {k : Nat} (hfrom : digits ≤ k)
    (hbelow : k < digits + left) (h : (candidate? i num den (power - k)).isSome = true) :
    ∃ k < digits + left, ∃ n, candidate? i num den (power - k) = some n ∧
      search i num den power left digits = (n, power - k) := by
  induction left generalizing digits with
  | zero => omega
  | succ left ih =>
      rw [search]
      cases hfirst : candidate? i num den (power - digits) with
      | some n => exact ⟨digits, by omega, n, hfirst, rfl⟩
      | none =>
          have hne : digits ≠ k := by
            rintro rfl
            simp [hfirst] at h
          rw [Nat.add_succ, ← Nat.succ_add] at hbelow ⊢
          exact ih (by omega) hbelow

/-! ## Seventeen digits -/

theorem hits_of_lt {n : Nat} (hi : 0 < i.denominator) (hlow : i.lowEnd < n * 10 ^ grid)
    (hhigh : n * 10 ^ grid < i.highEnd) : hits i grid n = true := by
  have hnonneg : 0 ≤ i.lowEnd := by
    unfold Interval.lowEnd quotient
    positivity
  have hzero : n ≠ 0 := by
    rintro rfl
    simp only [Nat.cast_zero, zero_mul] at hlow
    exact absurd hlow (not_lt_of_ge hnonneg)
  rw [← quotient_mul_cell] at hlow hhigh
  exact hits_iff.mpr ⟨hzero, Interval.contains_of_lt hi (cell_pos grid).2 hlow hhigh⟩

theorem le_highEnd_of_hits {n : Nat} (hi : 0 < i.denominator) (h : hits i grid n = true) :
    n * 10 ^ grid ≤ i.highEnd := by
  rw [← quotient_mul_cell]
  exact Interval.le_highEnd_of_contains hi (cell_pos grid).2 (hits_iff.mp h).2

/-- One of two neighbours rounds to the double if there are seventeen digits for them. -/
theorem InRange.exists_hits {x : Magnitude} (h : x.InRange) (hx : x.mantissa ≠ 0)
    (hgrid : (10 : ℚ) ^ grid * 10 ^ 16 ≤ x.value) {n : Nat} (hbelow : n * 10 ^ grid ≤ x.value)
    (habove : x.value < (n + 1 : Nat) * 10 ^ grid) :
    hits x.interval grid n = true ∨ hits x.interval grid (n + 1) = true := by
  have hunit : (0 : ℚ) < 2 ^ x.exponent := by positivity
  have hmantissa : (x.mantissa : ℚ) + 1 ≤ 2 ^ 53 := by exact_mod_cast h.mantissa_lt
  -- a cell is smaller than the distance between doubles
  have hcell : (10 : ℚ) ^ grid < 2 ^ x.exponent := by
    have hvalue : x.value ≤ (2 ^ 53 - 1) * 2 ^ x.exponent := by
      unfold value
      gcongr
      linarith
    norm_num at hvalue hgrid
    linarith
  have hlow := lowEnd_interval hx
  have hhigh := highEnd_interval x
  have hupper : ((n + 1 : Nat) : ℚ) * 10 ^ grid = n * 10 ^ grid + 10 ^ grid := by
    push_cast
    ring
  by_cases hnarrow : x.mantissa = 2 ^ 52 ∧ minExponent < x.exponent
  · have hsmaller : (10 : ℚ) ^ grid < 2 ^ x.exponent / 2 := by
      have hvalue : x.value = 2 ^ 52 * 2 ^ x.exponent := by
        rw [value, hnarrow.1]
        norm_num
      norm_num at hvalue hgrid
      linarith
    rw [if_pos hnarrow] at hlow
    exact .inr (hits_of_lt x.interval_denominator_pos (by linarith) (by linarith))
  · rw [if_neg hnarrow] at hlow
    by_cases hleft : x.interval.lowEnd < n * 10 ^ grid
    · exact .inl (hits_of_lt x.interval_denominator_pos hleft (by linarith))
    · exact .inr (hits_of_lt x.interval_denominator_pos (by linarith) (by linarith))

theorem ratio_fst_pos {x : Magnitude} (hx : x.mantissa ≠ 0) : 0 < x.ratio.1 := by
  refine Nat.pos_of_ne_zero ?_
  intro hzero
  have hvalue := quotient_ratio x
  rw [quotient, hzero, Nat.cast_zero, zero_div, eq_comm, value_eq_zero_iff] at hvalue
  exact hx hvalue

/-- The search ends with a decimal of at most seventeen digits that rounds to the double. -/
theorem InRange.search_spec {x : Magnitude} (h : x.InRange) (hx : x.mantissa ≠ 0) :
    ∃ n grid, search x.interval x.ratio.1 x.ratio.2 (leadingPower x.ratio.1 x.ratio.2) 17 0 =
        (n, grid) ∧ 0 < n ∧ n ≤ 10 ^ 17 ∧ n * 10 ^ grid ≤ x.interval.highEnd := by
  have hden := x.ratio_pos
  have hvalue : quotient (x.ratio.1, x.ratio.2) = x.value := quotient_ratio x
  obtain ⟨hleading, hnext⟩ := leadingPower_bounds (ratio_fst_pos hx) hden
  rw [hvalue] at hleading hnext
  set power := leadingPower x.ratio.1 x.ratio.2
  have hcells (grid : Int) := cells_bounds hden x.ratio.1 grid
  rw [hvalue] at hcells
  have hlast : (candidate? x.interval x.ratio.1 x.ratio.2 (power - (16 : Nat))).isSome = true := by
    obtain ⟨hbelow, habove⟩ := hcells (power - (16 : Nat))
    refine isSome_candidate? (h.exists_hits hx ?_ hbelow habove)
    rw [← zpow_natCast, ← zpow_add₀ (by norm_num), Int.sub_add_cancel]
    exact hleading
  obtain ⟨k, hk, n, hcandidate, hsearch⟩ :=
    Magnitude.search_spec (Nat.zero_le 16) (by decide : 16 < 0 + 17) hlast
  obtain ⟨hhits, hle⟩ := candidate?_eq_some hcandidate
  refine ⟨n, _, hsearch, Nat.pos_of_ne_zero (hits_iff.mp hhits).1, ?_,
    le_highEnd_of_hits x.interval_denominator_pos hhits⟩
  -- fewer than `10 ^ (k + 1)` cells fit below the next power of ten
  have hless : (cells x.ratio.1 x.ratio.2 (power - k) : ℚ) < 10 ^ (k + 1) := by
    have hpos : (0 : ℚ) < 10 ^ (power - k) := by positivity
    have hsplit : (10 : ℚ) ^ (power + 1) = 10 ^ (k + 1) * 10 ^ (power - k) := by
      rw [← zpow_natCast, ← zpow_add₀ (by norm_num)]
      congr 1
      omega
    refine lt_of_mul_lt_mul_right ?_ hpos.le
    rw [← hsplit]
    exact (hcells _).1.trans_lt hnext
  have hless : cells x.ratio.1 x.ratio.2 (power - k) < 10 ^ (k + 1) := by
    exact_mod_cast hless
  have hpow : 10 ^ (k + 1) ≤ 10 ^ 17 := Nat.pow_le_pow_right (by decide) hk
  omega

theorem search_largest :
    search largest.interval largest.ratio.1 largest.ratio.2
      (leadingPower largest.ratio.1 largest.ratio.2) 17 0 = (17976931348623157, 292) := by
  decide +kernel

theorem cast_mul_ten_pow (n k : Nat) : ((n * 10 ^ k : Nat) : ℚ) = n * 10 ^ (k : Int) := by
  rw [zpow_natCast]
  push_cast
  rfl

/-- The decimal that is found is not above the largest double. -/
theorem InRange.search_le {x : Magnitude} (h : x.InRange) (hx : x.mantissa ≠ 0) :
    ∃ n grid, search x.interval x.ratio.1 x.ratio.2 (leadingPower x.ratio.1 x.ratio.2) 17 0 =
        (n, grid) ∧ 0 < n ∧ n ≤ 10 ^ 17 ∧ n * 10 ^ grid ≤ largest.value := by
  by_cases hlargest : x = largest
  · have hle : 17976931348623157 * 10 ^ 292 ≤ (2 ^ 53 - 1) * 2 ^ 971 := by decide +kernel
    refine ⟨17976931348623157, (292 : Nat), hlargest ▸ search_largest, by decide, by decide, ?_⟩
    rw [← cast_mul_ten_pow, value_largest]
    exact Nat.cast_le.mpr hle
  · obtain ⟨n, grid, hsearch, hpos, hdigits, hle⟩ := h.search_spec hx
    exact ⟨n, grid, hsearch, hpos, hdigits, hle.trans (h.highEnd_le hlargest)⟩

end Magnitude

/-! ## The digits -/

namespace Digits

/-- The number that the digits give without a point. -/
def significand (d : Digits) : Nat := Nat.ofDigitChars 10 d.digits 0

/-- At most seventeen digits that begin as a number does and give one that is not above the
largest double. -/
structure InRange (d : Digits) : Prop where
  isDigit : ∀ c ∈ d.digits, c.isDigit = true
  leading : ∃ c rest, d.digits = c :: rest ∧ c ≠ '0'
  significand_pos : 0 < d.significand
  significand_le : d.significand ≤ 10 ^ 17
  le_largest : d.significand * 10 ^ (d.power + 1 - d.digits.length) ≤ Magnitude.largest.value

/-- The digits before the point of a number that is at least one, filled up with zeros. -/
def whole (d : Digits) : List Char :=
  let before := d.digits.take (d.power.natAbs + 1)
  before ++ List.replicate (d.power.natAbs + 1 - before.length) '0'

/-- The digits behind the point of such a number, of which there is at least one. -/
def fraction (d : Digits) : List Char :=
  let after := d.digits.drop (d.power.natAbs + 1)
  if after.isEmpty then ['0'] else after

theorem positional_of_nonneg {d : Digits} (h : 0 ≤ d.power) :
    d.positional = d.whole ++ '.' :: d.fraction := by
  rw [positional, if_neg (Int.not_lt.mpr h)]
  rfl

theorem length_whole (d : Digits) : d.whole.length = d.power.natAbs + 1 := by
  simp only [whole, List.length_append, List.length_replicate, List.length_take]
  omega

theorem fraction_ne_nil (d : Digits) : d.fraction ≠ [] := by
  simp only [fraction]
  split
  · exact List.cons_ne_nil _ _
  · next hafter => simpa using hafter

/-- Either no digit is left for the fraction, or no zero is filled in. -/
theorem fraction_eq_zero_or (d : Digits) :
    d.fraction = ['0'] ∨ d.whole ++ d.fraction = d.digits := by
  by_cases hafter : d.digits.drop (d.power.natAbs + 1) = []
  · exact .inl (by simp [fraction, hafter])
  · have hlong : d.power.natAbs + 1 < d.digits.length := by
      simpa [List.drop_eq_nil_iff] using hafter
    have hfilled : d.power.natAbs + 1 - (d.digits.take (d.power.natAbs + 1)).length = 0 := by
      rw [List.length_take]
      omega
    refine .inr ?_
    simp only [whole, fraction, hfilled, List.replicate_zero, List.append_nil,
      List.isEmpty_iff, if_neg hafter, List.take_append_drop]

theorem InRange.isDigit_of_mem_append {d : Digits} (h : d.InRange) {c : Char}
    (hc : c ∈ d.whole ++ d.fraction) : c.isDigit = true := by
  simp only [whole, fraction] at hc
  rcases List.mem_append.mp hc with hwhole | hfraction
  · rcases List.mem_append.mp hwhole with hbefore | hzero
    · exact h.isDigit c (List.mem_of_mem_take hbefore)
    · rw [List.eq_of_mem_replicate hzero]
      rfl
  · split at hfraction
    · rw [List.mem_singleton.mp hfraction]
      rfl
    · exact h.isDigit c (List.mem_of_mem_drop hfraction)

theorem InRange.exists_whole_eq_cons {d : Digits} (h : d.InRange) :
    ∃ c rest, d.whole = c :: rest ∧ c ≠ '0' := by
  obtain ⟨c, rest, hdigits, hc⟩ := h.leading
  exact ⟨c, _, by rw [whole, hdigits]; rfl, hc⟩

end Digits

namespace Magnitude

/-- The digits of a positive number begin with another one than zero, so they are not all
dropped with the zeros at their end. -/
theorem exists_toDigits_eq_append {n : Nat} (h : 0 < n) :
    ∃ c chars zeros, Nat.toDigits 10 n = c :: chars ++ List.replicate zeros '0' ∧ c ≠ '0' ∧
      ((Nat.toDigits 10 n).reverse.dropWhile (· = '0')).reverse = c :: chars := by
  obtain ⟨c, more, hdigits, hc⟩ := Json.exists_toDigits_eq_cons n
  have hc : c ≠ '0' := fun heq => h.ne' (hc heq)
  let isZero : Char → Bool := (· = '0')
  have hsplit : (c :: more).rdropWhile isZero ++ (c :: more).rtakeWhile isZero = c :: more :=
    List.rdropWhile_append_rtakeWhile
  have hzeros : (c :: more).rtakeWhile isZero =
      List.replicate ((c :: more).rtakeWhile isZero).length '0' :=
    List.eq_replicate_of_mem fun d hd => by simpa [isZero] using List.mem_rtakeWhile_imp hd
  cases hkept : (c :: more).rdropWhile isZero with
  | nil =>
      exact absurd (List.rdropWhile_eq_nil_iff.mp hkept c List.mem_cons_self) (by simpa [isZero])
  | cons first chars =>
      rw [hkept, List.cons_append, List.cons.injEq] at hsplit
      obtain ⟨rfl, hmore⟩ := hsplit
      refine ⟨first, chars, ((first :: more).rtakeWhile isZero).length, ?_, hc, ?_⟩
      · rw [hdigits, List.cons_append, ← hzeros, hmore]
      · rw [hdigits]
        exact hkept

/-- The shortest digits of a double, as many as a number needs. -/
theorem InRange.shortest {x : Magnitude} (h : x.InRange) (hx : x.mantissa ≠ 0) :
    x.shortest.InRange := by
  obtain ⟨n, grid, hsearch, hpos, hdigits, hle⟩ := h.search_le hx
  obtain ⟨c, chars, zeros, htoDigits, hc, htrimmed⟩ := exists_toDigits_eq_append hpos
  have hshortest : x.shortest = ⟨c :: chars, grid + (Nat.toDigits 10 n).length - 1⟩ := by
    rw [Magnitude.shortest, hsearch]
    dsimp only
    rw [htrimmed]
  have hvalue : n = 10 ^ zeros * Nat.ofDigitChars 10 (c :: chars) 0 := by
    have hread := Nat.ofDigitChars_ten_toDigits (n := n)
    rwa [htoDigits, Nat.ofDigitChars_append, Nat.ofDigitChars_replicate_zero, eq_comm] at hread
  rw [hshortest]
  refine ⟨?_, ⟨c, chars, rfl, hc⟩, ?_, ?_, ?_⟩
  · intro d hd
    refine Json.isDigit_of_mem_toDigits (n := n) ?_
    rw [htoDigits]
    exact List.mem_append_left _ hd
  · rw [hvalue] at hpos
    exact Nat.pos_of_mul_pos_left hpos
  · refine le_trans ?_ hdigits
    rw [hvalue]
    exact Nat.le_mul_of_pos_left _ (Nat.pow_pos (by decide))
  · have hpower : grid + ((Nat.toDigits 10 n).length : Int) - 1 + 1 - ((c :: chars).length : Int) =
        zeros + grid := by
      rw [htoDigits, List.length_append, List.length_replicate]
      push_cast
      ring
    refine le_of_eq_of_le ?_ hle
    dsimp only
    rw [hpower, zpow_add₀ (by norm_num), zpow_natCast, Digits.significand, hvalue]
    push_cast
    ring

end Magnitude

end ThingHub
