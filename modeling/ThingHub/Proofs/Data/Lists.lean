/-! # Lists

What a search, a sort and a fold over pairs leave of the items of a list. -/

namespace ThingHub

variable {α β γ δ : Type}

theorem flatMap_filter (p : α → Bool) (f : α → List β) (items : List α) :
    (items.filter p).flatMap f = items.flatMap fun item => if p item then f item else [] := by
  induction items with
  | nil => rfl
  | cons item items ih => by_cases h : p item <;> simp [h, ih]

/-- Items that yield nothing may be left out. -/
theorem flatMap_filter_isEmpty (f : α → List β) (items : List α) :
    (items.filter fun item => !(f item).isEmpty).flatMap f = items.flatMap f := by
  rw [flatMap_filter]
  refine congrArg (List.flatMap · items) (funext fun item => ?_)
  cases f item <;> rfl

/-- Sorting gives the one ascending arrangement, where the order tells entries apart. -/
theorem mergeSort_eq_of_perm {le : α → α → Bool} {list sorted : List α}
    (htrans : ∀ a b c, le a b → le b c → le a c) (htotal : ∀ a b, le a b || le b a)
    (hperm : list.Perm sorted) (hsorted : sorted.Pairwise fun a b => le a b)
    (hanti : ∀ a ∈ sorted, ∀ b ∈ sorted, le a b → le b a → a = b) :
    list.mergeSort le = sorted := by
  have hp : (list.mergeSort le).Perm sorted := (List.mergeSort_perm list le).trans hperm
  apply List.Perm.eq_of_pairwise _ (List.pairwise_mergeSort htrans htotal list) hsorted hp
  intro a b ha hb
  exact hanti a (hp.mem_iff.mp ha) b hb

/-- What is picked from a fold that only adds to the first part of a pair. -/
theorem filterMap_foldl {step : List α × β → γ → List α × β} {pick : α → Option δ}
    {made : γ → List δ}
    (hstep : ∀ before item,
      (step before item).1.filterMap pick = before.1.filterMap pick ++ made item)
    (items : List γ) (before : List α × β) :
    (items.foldl step before).1.filterMap pick =
      before.1.filterMap pick ++ items.flatMap made := by
  induction items generalizing before with
  | nil => simp
  | cons item items ih => rw [List.foldl_cons, ih, hstep, List.flatMap_cons, List.append_assoc]

end ThingHub
