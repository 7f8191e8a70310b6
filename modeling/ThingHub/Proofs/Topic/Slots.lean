import ThingHub.Proofs.Topic.Segments
import ThingHub.Topic.Tree

/-! # The slots of a tree

What creating and updating a slot does to every slot of the tree. A slot is named by
the address of its path, and an operation leaves the slots at other addresses alone,
except that pruning may take away a slot that was empty already. -/

namespace ThingHub.Tree

open Segment

variable {α : Type}

/-- The children of every node stand in ascending order. -/
inductive Sorted : Tree α → Prop
  | node {tree : Tree α} (children : Entries.Ordered tree.children)
      (below : ∀ text child, Entries.get? text tree.children = some child → Sorted child)
      (single : ∀ child, tree.single = some child → Sorted child) : Sorted tree

theorem Sorted.children {tree : Tree α} (h : Sorted tree) : Entries.Ordered tree.children := by
  cases h
  assumption

theorem Sorted.child {tree child : Tree α} {text : String} (h : Sorted tree)
    (hc : Entries.get? text tree.children = some child) : Sorted child := by
  cases h with
  | node _ below _ => exact below text child hc

theorem Sorted.single {tree child : Tree α} (h : Sorted tree)
    (hc : tree.single = some child) : Sorted child := by
  cases h with
  | node _ _ single => exact single child hc

theorem sorted_empty : Sorted (empty : Tree α) :=
  .node Entries.ordered_nil (by simp [empty, Entries.get?]) (by simp [empty])

/-! ## Addresses name slots -/

theorem slot?_empty (path : List Segment) : slot? path (empty : Tree α) = none := by
  rcases path with _ | ⟨_ | _ | _, rest⟩ <;> rfl

/-- What stands behind a `#` is not looked at. -/
theorem slot?_address (path : List Segment) (tree : Tree α) :
    slot? (address path) tree = slot? path tree := by
  induction path generalizing tree with
  | nil => rfl
  | cons segment rest ih =>
      have hrest : slot? (α := α) (address rest) = slot? rest := funext ih
      cases segment with
      | literal text => simp only [address_literal, slot?, hrest]
      | single => simp only [address_single, slot?, hrest]
      | multi => rfl

theorem slot?_congr {p q : List Segment} (h : address q = address p) (tree : Tree α) :
    slot? q tree = slot? p tree := by
  rw [← slot?_address q, h, slot?_address]

theorem address_segments_inj {p q : Pattern} :
    address q.segments = address p.segments ↔ q = p := by
  rw [Pattern.address_segments, Pattern.address_segments, Pattern.segments_inj]

/-! ## Creating slots -/

theorem Sorted.alter (f : List α → List α) (path : List Segment) {tree : Tree α}
    (h : Sorted tree) : Sorted (tree.alter f path) := by
  induction path generalizing tree with
  | nil => exact .node h.children (fun _ _ => h.child) (fun _ => h.single)
  | cons segment rest ih =>
      cases segment with
      | literal text =>
          have hchild : Sorted ((Entries.get? text tree.children).getD Tree.empty) := by
            cases hc : Entries.get? text tree.children with
            | none => exact sorted_empty
            | some child => exact h.child hc
          refine .node (Entries.ordered_insert _ _ h.children) ?_ (fun _ => h.single)
          intro other child hget
          rw [Tree.alter, Entries.get?_insert] at hget
          split at hget
          · cases hget
            exact ih hchild
          · exact h.child hget
      | single =>
          have hchild : Sorted (tree.single.getD Tree.empty) := by
            cases hc : tree.single with
            | none => exact sorted_empty
            | some child => exact h.single hc
          refine .node h.children (fun _ _ => h.child) ?_
          intro child hget
          cases hget
          exact ih hchild
      | multi => exact .node h.children (fun _ _ => h.child) (fun _ => h.single)

/-- Creating a slot changes the slot at that address and no other. -/
theorem slot?_alter (f : List α → List α) (p q : List Segment) (tree : Tree α) :
    slot? q (tree.alter f p) =
      if address q = address p then some (f ((slot? p tree).getD [])) else slot? q tree := by
  induction p generalizing q tree with
  | nil => rcases q with _ | ⟨_ | _ | _, q⟩ <;> simp [alter, slot?]
  | cons segment p ih =>
      cases segment with
      | literal text =>
          rcases q with _ | ⟨other | _ | _, q⟩
          · simp [alter, slot?]
          · by_cases ho : other = text
            · subst ho
              cases hc : Entries.get? other tree.children with
              | none => simp [alter, slot?, Entries.get?_insert_self, hc, ih, slot?_empty]
              | some child => simp [alter, slot?, Entries.get?_insert_self, hc, ih]
            · simp [alter, slot?, Entries.get?_insert, ho]
          · simp [alter, slot?]
          · simp [alter, slot?]
      | single =>
          rcases q with _ | ⟨_ | _ | _, q⟩
          · simp [alter, slot?]
          · simp [alter, slot?]
          · cases hc : tree.single with
            | none => simp [alter, slot?, hc, ih, slot?_empty]
            | some child => simp [alter, slot?, hc, ih]
          · simp [alter, slot?]
      | multi => rcases q with _ | ⟨_ | _ | _, q⟩ <;> simp [alter, slot?]

/-! ## Updating slots -/

/-- What pruning may do to a slot: one that was empty may disappear. -/
def Pruned (before after : Option (List α)) : Prop :=
  after = before ∨ before = some [] ∧ after = none

theorem Pruned.trans {a b c : Option (List α)} (hab : Pruned a b) (hbc : Pruned b c) :
    Pruned a c := by
  rcases hab with rfl | ⟨ha, rfl⟩
  · exact hbc
  · rcases hbc with rfl | ⟨hb, _⟩
    · exact .inr ⟨ha, rfl⟩
    · cases hb

/-- Pruning makes no slots. -/
theorem Pruned.isSome {before after : Option (List α)} (h : Pruned before after)
    (ha : after.isSome) : before.isSome := by
  rcases h with rfl | ⟨_, rfl⟩
  · exact ha
  · simp at ha

/-- Pruning does not reach a slot that holds entries, and makes none. -/
theorem Pruned.eq_of_ne {before after : Option (List α)} (h : Pruned before after)
    (hne : before ≠ some []) : after = before := by
  rcases h with rfl | ⟨hb, _⟩
  · rfl
  · exact absurd hb hne

/-- Pruning takes no entries away. -/
theorem Pruned.getD_nil {before after : Option (List α)} (h : Pruned before after) :
    after.getD [] = before.getD [] := by
  rcases h with rfl | ⟨rfl, rfl⟩
  · rfl
  · rfl

theorem keep_getD_nil (slot : List α) : (keep slot).getD [] = slot := by
  cases slot <;> rfl

theorem keep_ne_some_nil (slot : List α) : keep slot ≠ some [] := by
  cases slot <;> simp [keep]

/-- An empty tree has no slot that holds entries. -/
theorem vacant_slot?_of_isEmpty {tree : Tree α} (h : tree.isEmpty = true)
    (path : List Segment) : vacant (slot? path tree) = true := by
  simp only [isEmpty, Bool.and_eq_true, List.isEmpty_iff, Option.isNone_iff_eq_none] at h
  obtain ⟨⟨⟨hexact, hchildren⟩, hsingle⟩, hmulti⟩ := h
  rcases path with _ | ⟨text | _ | _, rest⟩
  · exact hexact
  · simp [slot?, hchildren, Entries.get?, vacant]
  · simp [slot?, hsingle, vacant]
  · exact hmulti

/-- What is left of a child after an update below it. -/
def remaining (child : Tree α) : Option (Tree α) :=
  if child.isEmpty then none else some child

theorem pruned_slot?_remaining (child : Tree α) (path : List Segment) :
    Pruned (slot? path child) (child.remaining.bind (slot? path)) := by
  unfold remaining
  split
  · rename_i hempty
    have hv := vacant_slot?_of_isEmpty hempty path
    cases hs : slot? path child with
    | none => exact .inl rfl
    | some slot =>
        rw [hs] at hv
        have hnil : slot = [] := by simpa [vacant] using hv
        exact .inr ⟨by rw [hnil], rfl⟩
  · exact .inl rfl

theorem remaining_sorted {child kept : Tree α} (h : Sorted child)
    (hk : child.remaining = some kept) : Sorted kept := by
  unfold remaining at hk
  split at hk
  · cases hk
  · cases hk
    exact h

theorem get?_children_updated {children : List (String × Tree α)}
    (h : Entries.Ordered children) (text other : String) (child : Tree α) :
    Entries.get? other
        (if child.isEmpty then Entries.erase text children
          else Entries.insert text child children) =
      if other = text then child.remaining else Entries.get? other children := by
  unfold remaining
  split
  · rw [Entries.get?_erase h]
  · rw [Entries.get?_insert]

/-! The outcomes of an update, one rule for each segment on top of the path. -/

section Outcomes

attribute [local simp] updateFrom

theorem updateFrom_nil_eq_ok_iff {f : List α → List α} {n : Nat} {tree after : Tree α} :
    updateFrom f n [] tree = .ok after ↔
      ∃ slot, tree.exact = some slot ∧ { tree with exact := keep (f slot) } = after := by
  cases h : tree.exact <;> simp [h]

theorem updateFrom_literal_eq_ok_iff {f : List α → List α} {n : Nat} {text : String}
    {rest : List Segment} {tree after : Tree α} :
    updateFrom f n (.literal text :: rest) tree = .ok after ↔
      ∃ child updated, Entries.get? text tree.children = some child ∧
        updateFrom f (n + 1) rest child = .ok updated ∧
        { tree with
          children := if updated.isEmpty then Entries.erase text tree.children
            else Entries.insert text updated tree.children } = after := by
  cases h : Entries.get? text tree.children with
  | none => simp [h]
  | some child => cases hu : updateFrom f (n + 1) rest child <;> simp [h, hu]

theorem updateFrom_single_eq_ok_iff {f : List α → List α} {n : Nat}
    {rest : List Segment} {tree after : Tree α} :
    updateFrom f n (.single :: rest) tree = .ok after ↔
      ∃ child updated, tree.single = some child ∧
        updateFrom f (n + 1) rest child = .ok updated ∧
        { tree with single := updated.remaining } = after := by
  cases h : tree.single with
  | none => simp [h]
  | some child =>
      cases hu : updateFrom f (n + 1) rest child <;> simp [h, hu, remaining]

theorem updateFrom_multi_eq_ok_iff {f : List α → List α} {n : Nat}
    {rest : List Segment} {tree after : Tree α} :
    updateFrom f n (.multi :: rest) tree = .ok after ↔
      ∃ slot, tree.multi = some slot ∧ { tree with multi := keep (f slot) } = after := by
  cases h : tree.multi <;> simp [h]

theorem updateFrom_nil_eq_error_iff {f : List α → List α} {n : Nat} {tree : Tree α}
    {missing : MissingNode} :
    updateFrom f n [] tree = .error missing ↔ tree.exact = none ∧ ⟨"<end>", n⟩ = missing := by
  cases h : tree.exact <;> simp [h]

theorem updateFrom_literal_eq_error_iff {f : List α → List α} {n : Nat} {text : String}
    {rest : List Segment} {tree : Tree α} {missing : MissingNode} :
    updateFrom f n (.literal text :: rest) tree = .error missing ↔
      Entries.get? text tree.children = none ∧ ⟨text, n⟩ = missing ∨
        ∃ child, Entries.get? text tree.children = some child ∧
          updateFrom f (n + 1) rest child = .error missing := by
  cases h : Entries.get? text tree.children with
  | none => simp [h]
  | some child => cases hu : updateFrom f (n + 1) rest child <;> simp [h, hu]

theorem updateFrom_single_eq_error_iff {f : List α → List α} {n : Nat}
    {rest : List Segment} {tree : Tree α} {missing : MissingNode} :
    updateFrom f n (.single :: rest) tree = .error missing ↔
      tree.single = none ∧ ⟨"+", n⟩ = missing ∨
        ∃ child, tree.single = some child ∧ updateFrom f (n + 1) rest child = .error missing := by
  cases h : tree.single with
  | none => simp [h]
  | some child => cases hu : updateFrom f (n + 1) rest child <;> simp [h, hu]

theorem updateFrom_multi_eq_error_iff {f : List α → List α} {n : Nat}
    {rest : List Segment} {tree : Tree α} {missing : MissingNode} :
    updateFrom f n (.multi :: rest) tree = .error missing ↔
      tree.multi = none ∧ ⟨"#", n⟩ = missing := by
  cases h : tree.multi <;> simp [h]

end Outcomes

/-- An update succeeds exactly when there is a slot to update. -/
theorem updateFrom_isOk_iff (f : List α → List α) (n : Nat) (path : List Segment)
    (tree : Tree α) :
    (∃ after, updateFrom f n path tree = .ok after) ↔ (slot? path tree).isSome := by
  induction path generalizing n tree with
  | nil => cases h : tree.exact <;> simp [updateFrom, slot?, h]
  | cons segment rest ih =>
      cases segment with
      | literal text =>
          cases h : Entries.get? text tree.children with
          | none => simp [updateFrom, slot?, h]
          | some child =>
              rw [slot?, h, Option.bind_some, ← ih (n + 1) child]
              cases hu : updateFrom f (n + 1) rest child <;> simp [updateFrom, h, hu]
      | single =>
          cases h : tree.single with
          | none => simp [updateFrom, slot?, h]
          | some child =>
              rw [slot?, h, Option.bind_some, ← ih (n + 1) child]
              cases hu : updateFrom f (n + 1) rest child <;> simp [updateFrom, h, hu]
      | multi => cases h : tree.multi <;> simp [updateFrom, slot?, h]

theorem Sorted.updateFrom {f : List α → List α} {n : Nat} {path : List Segment}
    {tree after : Tree α} (h : Sorted tree) (hu : updateFrom f n path tree = .ok after) :
    Sorted after := by
  induction path generalizing n tree after with
  | nil =>
      obtain ⟨slot, _, rfl⟩ := updateFrom_nil_eq_ok_iff.mp hu
      exact .node h.children (fun _ _ => h.child) (fun _ => h.single)
  | cons segment rest ih =>
      cases segment with
      | literal text =>
          obtain ⟨child, updated, hc, hr, rfl⟩ := updateFrom_literal_eq_ok_iff.mp hu
          refine .node ?_ ?_ (fun _ => h.single)
          · dsimp only
            split
            · exact Entries.ordered_erase _ h.children
            · exact Entries.ordered_insert _ _ h.children
          · intro other kept hget
            rw [get?_children_updated h.children] at hget
            split at hget
            · exact remaining_sorted (ih (h.child hc) hr) hget
            · exact h.child hget
      | single =>
          obtain ⟨child, updated, hc, hr, rfl⟩ := updateFrom_single_eq_ok_iff.mp hu
          refine .node h.children (fun _ _ => h.child) ?_
          intro kept hget
          exact remaining_sorted (ih (h.single hc) hr) hget
      | multi =>
          obtain ⟨slot, _, rfl⟩ := updateFrom_multi_eq_ok_iff.mp hu
          exact .node h.children (fun _ _ => h.child) (fun _ => h.single)

/-- The updated slot holds what the function made of it, and is gone if that is empty. -/
theorem slot?_updateFrom_self {f : List α → List α} {n : Nat} {path : List Segment}
    {tree after : Tree α} (h : Sorted tree) (hu : updateFrom f n path tree = .ok after) :
    ∃ slot, slot? path tree = some slot ∧ slot? path after = keep (f slot) := by
  induction path generalizing n tree after with
  | nil =>
      obtain ⟨slot, hslot, rfl⟩ := updateFrom_nil_eq_ok_iff.mp hu
      exact ⟨slot, hslot, rfl⟩
  | cons segment rest ih =>
      cases segment with
      | literal text =>
          obtain ⟨child, updated, hc, hr, rfl⟩ := updateFrom_literal_eq_ok_iff.mp hu
          obtain ⟨slot, hbefore, hafter⟩ := ih (h.child hc) hr
          refine ⟨slot, by simp [slot?, hc, hbefore], ?_⟩
          have hp := pruned_slot?_remaining updated rest
          rw [hafter] at hp
          simp only [slot?, get?_children_updated h.children, if_true]
          exact hp.eq_of_ne (keep_ne_some_nil _)
      | single =>
          obtain ⟨child, updated, hc, hr, rfl⟩ := updateFrom_single_eq_ok_iff.mp hu
          obtain ⟨slot, hbefore, hafter⟩ := ih (h.single hc) hr
          refine ⟨slot, by simp [slot?, hc, hbefore], ?_⟩
          have hp := pruned_slot?_remaining updated rest
          rw [hafter] at hp
          exact hp.eq_of_ne (keep_ne_some_nil _)
      | multi =>
          obtain ⟨slot, hslot, rfl⟩ := updateFrom_multi_eq_ok_iff.mp hu
          exact ⟨slot, hslot, rfl⟩

/-- An update leaves the slots at other addresses alone, up to pruning. -/
theorem pruned_slot?_updateFrom {f : List α → List α} {n : Nat} {p q : List Segment}
    {tree after : Tree α} (h : Sorted tree) (hu : updateFrom f n p tree = .ok after)
    (hne : address q ≠ address p) : Pruned (slot? q tree) (slot? q after) := by
  induction p generalizing n q tree after with
  | nil =>
      obtain ⟨slot, _, rfl⟩ := updateFrom_nil_eq_ok_iff.mp hu
      rcases q with _ | ⟨_ | _ | _, q⟩
      · exact absurd rfl hne
      all_goals exact .inl rfl
  | cons segment p ih =>
      cases segment with
      | literal text =>
          obtain ⟨child, updated, hc, hr, rfl⟩ := updateFrom_literal_eq_ok_iff.mp hu
          rcases q with _ | ⟨other | _ | _, q⟩
          · exact .inl rfl
          · simp only [slot?, get?_children_updated h.children]
            by_cases ho : other = text
            · subst ho
              have hq : address q ≠ address p := fun e => hne (by simp [e])
              simp only [if_true, hc, Option.bind_some]
              exact (ih (h.child hc) hr hq).trans (pruned_slot?_remaining updated q)
            · simp only [if_neg ho]
              exact .inl rfl
          · exact .inl rfl
          · exact .inl rfl
      | single =>
          obtain ⟨child, updated, hc, hr, rfl⟩ := updateFrom_single_eq_ok_iff.mp hu
          rcases q with _ | ⟨_ | _ | _, q⟩
          · exact .inl rfl
          · exact .inl rfl
          · have hq : address q ≠ address p := fun e => hne (by simp [e])
            simp only [slot?, hc, Option.bind_some]
            exact (ih (h.single hc) hr hq).trans (pruned_slot?_remaining updated q)
          · exact .inl rfl
      | multi =>
          obtain ⟨slot, _, rfl⟩ := updateFrom_multi_eq_ok_iff.mp hu
          rcases q with _ | ⟨_ | _ | _, q⟩
          · exact .inl rfl
          · exact .inl rfl
          · exact .inl rfl
          · exact absurd rfl hne

/-! ## Trees that patterns build -/

/-- Every slot belongs to a pattern that can be read from a text. -/
def Spelled (tree : Tree α) : Prop :=
  ∀ path, (slot? path tree).isSome → ∃ p : Pattern, p.segments = address path

theorem spelled_empty : Spelled (empty : Tree α) := by
  intro path hs
  simp [slot?_empty] at hs

theorem Spelled.alter {tree : Tree α} (h : Spelled tree) (f : List α → List α)
    (p : Pattern) : Spelled (tree.alter f p.segments) := by
  intro path hs
  rw [slot?_alter] at hs
  split at hs
  · rename_i he
    exact ⟨p, by rw [he, p.address_segments]⟩
  · exact h path hs

/-- An update creates no slot, along whichever segments it walks. -/
theorem Spelled.updateFrom {f : List α → List α} {n : Nat} {path : List Segment}
    {tree after : Tree α} (h : Spelled tree) (hs : Sorted tree)
    (hu : updateFrom f n path tree = .ok after) : Spelled after := by
  intro q hq
  by_cases he : address q = address path
  · obtain ⟨slot, hslot, _⟩ := slot?_updateFrom_self hs hu
    exact h q (by simp [slot?_congr he, hslot])
  · exact h q ((pruned_slot?_updateFrom hs hu he).isSome hq)

/-- The trees that creating slots for patterns, and updating along any segments, lead
to from the empty tree. -/
inductive Reachable : Tree α → Prop
  | empty : Reachable Tree.empty
  | alter {tree : Tree α} (f : List α → List α) (p : Pattern) :
      Reachable tree → Reachable (tree.alter f p.segments)
  | update {tree after : Tree α} (f : List α → List α) (path : List Segment) :
      Reachable tree → tree.update f path = .ok after → Reachable after

theorem Reachable.sorted {tree : Tree α} (h : Reachable tree) : Sorted tree := by
  induction h with
  | empty => exact sorted_empty
  | alter f p _ ih => exact ih.alter f p.segments
  | update f path _ hu ih => exact ih.updateFrom hu

theorem Reachable.spelled {tree : Tree α} (h : Reachable tree) : Spelled tree := by
  induction h with
  | empty => exact spelled_empty
  | alter f p _ ih => exact ih.alter f p
  | update f path hr hu ih => exact ih.updateFrom hr.sorted hu

end ThingHub.Tree
