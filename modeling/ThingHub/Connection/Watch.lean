/-! A value that is watched. A sender looks at the value, may put another in its place, and says
whether that is a change. A receiver asks whether a change was marked since it looked. -/

namespace ThingHub

variable {α : Type}

/-! What a channel is. -/

/-- A channel for one value. Its receivers go by numbers, in the order in which they came. -/
class WatchChannel (χ : Type) (α : outParam Type) where
  /-- Holds a value and has no receivers. -/
  start : α → χ
  value : χ → α
  receivers : χ → Nat
  /-- Puts a value in place of the one there is. The function says whether that is a change. -/
  update : (α → Bool × α) → χ → χ
  /-- Adds a receiver, under the next number. -/
  join : χ → χ
  /-- Whether a change was marked that a receiver has not seen. -/
  hasChanged : Nat → χ → Bool
  /-- A receiver looks at the value: it has now seen all changes. -/
  look : Nat → χ → χ

section

open WatchChannel

/-- What a channel promises to its sender and its receivers. Nothing is promised for a number that
no receiver goes by. -/
class LawfulWatchChannel (χ : Type) (α : outParam Type) [WatchChannel χ α] : Prop where
  value_start (a : α) : value (start a : χ) = a
  receivers_start (a : α) : receivers (start a : χ) = 0
  value_update (modify : α → Bool × α) (c : χ) :
    value (update modify c) = (modify (value c)).2
  receivers_update (modify : α → Bool × α) (c : χ) :
    receivers (update modify c) = receivers c
  /-- A change is marked for each receiver, just if the function says that there is one. -/
  hasChanged_update (modify : α → Bool × α) {c : χ} {r : Nat} : r < receivers c →
    hasChanged r (update modify c) = (hasChanged r c || (modify (value c)).1)
  value_join (c : χ) : value (join c) = value c
  receivers_join (c : χ) : receivers (join c) = receivers c + 1
  hasChanged_join {c : χ} {r : Nat} : r < receivers c →
    hasChanged r (join c) = hasChanged r c
  /-- A new receiver has seen all changes so far. -/
  hasChanged_join_new (c : χ) : hasChanged (receivers c) (join c) = false
  value_look {c : χ} {r : Nat} : r < receivers c → value (look r c) = value c
  receivers_look {c : χ} {r : Nat} : r < receivers c → receivers (look r c) = receivers c
  hasChanged_look {c : χ} {r : Nat} : r < receivers c → hasChanged r (look r c) = false
  hasChanged_look_of_ne {c : χ} {r q : Nat} : r < receivers c → q < receivers c → q ≠ r →
    hasChanged q (look r c) = hasChanged q c

end

/-! A channel that counts. -/

/-- Counts the changes, and keeps for each receiver the change up to which it has looked. -/
structure Watched (α : Type) where
  value : α
  changes : Nat
  seen : List Nat
  /-- No receiver is ahead of the changes. -/
  seen_le : ∀ n ∈ seen, n ≤ changes
  deriving DecidableEq, Repr

namespace Watched

def update (modify : α → Bool × α) (c : Watched α) : Watched α :=
  let (modified, value) := modify c.value
  { value := value
    changes := if modified then c.changes + 1 else c.changes
    seen := c.seen
    seen_le := by
      intro n h
      have hle := c.seen_le n h
      split <;> omega }

/-- What is neither marked nor put in place leaves no trace. -/
theorem update_eq_self {modify : α → Bool × α} {c : Watched α}
    (h : modify c.value = (false, c.value)) : c.update modify = c := by
  simp [update, h]

def join (c : Watched α) : Watched α :=
  { c with
    seen := c.seen ++ [c.changes]
    seen_le := by
      intro n h
      rcases List.mem_append.mp h with h | h
      · exact c.seen_le n h
      · exact Nat.le_of_eq (List.mem_singleton.mp h) }

def hasChanged (r : Nat) (c : Watched α) : Bool :=
  c.seen[r]?.any (· ≠ c.changes)

def look (r : Nat) (c : Watched α) : Watched α :=
  { c with
    seen := c.seen.set r c.changes
    seen_le := by
      intro n h
      rcases List.mem_or_eq_of_mem_set h with h | rfl
      · exact c.seen_le n h
      · exact Nat.le_refl _ }

instance : WatchChannel (Watched α) α where
  start a := ⟨a, 0, [], nofun⟩
  value := value
  receivers c := c.seen.length
  update := update
  join := join
  hasChanged := hasChanged
  look := look

theorem hasChanged_eq {c : Watched α} {r : Nat} (h : r < c.seen.length) :
    c.hasChanged r = decide (c.seen[r] ≠ c.changes) := by
  simp only [hasChanged, List.getElem?_eq_getElem h, Option.any_some]

theorem hasChanged_update (modify : α → Bool × α) {c : Watched α} {r : Nat}
    (h : r < c.seen.length) :
    (c.update modify).hasChanged r = (c.hasChanged r || (modify c.value).1) := by
  have hle : c.seen[r] ≤ c.changes := c.seen_le _ (List.getElem_mem h)
  rw [hasChanged_eq h, hasChanged_eq (c := c.update modify) h]
  show decide (c.seen[r] ≠ if (modify c.value).1 then c.changes + 1 else c.changes) = _
  cases (modify c.value).1 with
  | false => simp
  | true => simp; omega

theorem hasChanged_join {c : Watched α} {r : Nat} (h : r < c.seen.length) :
    c.join.hasChanged r = c.hasChanged r :=
  congrArg (Option.any (· ≠ c.changes)) (List.getElem?_append_left h)

theorem hasChanged_join_new (c : Watched α) :
    c.join.hasChanged c.seen.length = false := by
  simp [hasChanged, join]

theorem hasChanged_look {c : Watched α} {r : Nat} (h : r < c.seen.length) :
    (c.look r).hasChanged r = false := by
  simp [hasChanged, look, h]

theorem hasChanged_look_of_ne {c : Watched α} {r q : Nat} (h : q ≠ r) :
    (c.look r).hasChanged q = c.hasChanged q :=
  congrArg (Option.any (· ≠ c.changes)) (List.getElem?_set_ne h.symm)

instance : LawfulWatchChannel (Watched α) α where
  value_start _ := rfl
  receivers_start _ := rfl
  value_update _ _ := rfl
  receivers_update _ _ := rfl
  hasChanged_update modify _ _ := hasChanged_update modify
  value_join _ := rfl
  receivers_join _ := List.length_append
  hasChanged_join := hasChanged_join
  hasChanged_join_new := hasChanged_join_new
  value_look _ := rfl
  receivers_look _ := List.length_set
  hasChanged_look := hasChanged_look
  hasChanged_look_of_ne _ _ := hasChanged_look_of_ne

end Watched

end ThingHub
