import ThingHub.Text.Parts

/-! # Decimal numbers in texts

A number is written with digits only, so a separator that is no digit stands in front of it for
good: cutting a text at its last separator gives a number back that stood behind it. -/

namespace ThingHub.Text

/-- Decimal digits, one at least, and the number that they make. -/
structure Decimal (digits : List Char) (n : Nat) : Prop where
  ne_nil : digits ≠ []
  isDigit : ∀ d ∈ digits, d.isDigit = true
  value : Nat.ofDigitChars 10 digits 0 = n

theorem decimal_repr (n : Nat) : Decimal n.repr.toList n := by
  rw [Nat.toList_repr]
  refine ⟨Nat.toDigits_ne_nil, fun d hd => ?_, Nat.ofDigitChars_ten_toDigits⟩
  exact Nat.isDigit_of_mem_toDigits (by decide) (by decide) hd

variable {digits : List Char} {n : Nat}

theorem Decimal.not_mem (h : Decimal digits n) {c : Char} (hc : c.isDigit = false) :
    c ∉ digits := by
  intro hm
  have hdigit := h.isDigit c hm
  rw [hc] at hdigit
  cases hdigit

theorem cutLast?_append_repr {sep : Char} (hsep : sep.isDigit = false) (front : String) (n : Nat) :
    cutLast? sep (front ++ String.singleton sep ++ n.repr) = some (front, n.repr) :=
  cutLast?_eq_some_iff.mpr ⟨rfl, (decimal_repr n).not_mem hsep⟩

end ThingHub.Text
