import ThingHub.Proofs.Data.Entries
import ThingHub.Proofs.Topic.Slots

/-! # Updates that find no slot

An update walks down the tree along its segments until a `#` or the end of the segments tells
it which slot of the node to take. It fails just where the walk lacks a node or a slot, and
says where. Done in place, a failed update leaves every node it came by as it was and does not
run its function; any other runs it once, on the slot the walk ends in. -/

namespace ThingHub

namespace Tree

open Segment

variable {α : Type}

/-! ## Walks -/

/-- The node that a walk along a path of nodes reaches. A `#` leads to no node. -/
def node? : List Segment → Tree α → Option (Tree α)
  | [], tree => some tree
  | .literal text :: rest, tree => (Entries.get? text tree.children).bind (node? rest)
  | .single :: rest, tree => tree.single.bind (node? rest)
  | .multi :: _, _ => none

/-- What a node lacks for the rest of a walk, by the text of the segment that asks for it. -/
inductive Lacks (node : Tree α) : List Segment → String → Prop
  | exact : node.exact = none → Lacks node [] "<end>"
  | multi {rest : List Segment} : node.multi = none → Lacks node (.multi :: rest) "#"
  | literal {text : String} {rest : List Segment} :
      Entries.get? text node.children = none → Lacks node (.literal text :: rest) text
  | single {rest : List Segment} : node.single = none → Lacks node (.single :: rest) "+"

/-- The slot of a node that a walk ends in. What stands behind a `#` is not looked at. -/
inductive EndsIn (node : Tree α) : List Segment → List α → Prop
  | exact {slot : List α} : node.exact = some slot → EndsIn node [] slot
  | multi {slot : List α} {rest : List Segment} :
      node.multi = some slot → EndsIn node (.multi :: rest) slot

/-- A walk comes as far as a node that lacks what is asked for next. The position is the number
of segments that led there. -/
def Misses (tree : Tree α) (segments : List Segment) (missing : MissingNode) : Prop :=
  ∃ front rest node, segments = front ++ rest ∧ node? front tree = some node ∧
    Lacks node rest missing.segment ∧ missing.position = front.length

/-- A walk comes to a node with the slot that is asked for. -/
def Meets (tree : Tree α) (segments : List Segment) (slot : List α) : Prop :=
  ∃ front rest node, segments = front ++ rest ∧ node? front tree = some node ∧
    EndsIn node rest slot

section Steps

variable {tree child : Tree α} {segments : List Segment} {missing : MissingNode}
  {slot : List α} {text : String}

theorem Meets.literal (hchild : Entries.get? text tree.children = some child)
    (h : Meets child segments slot) : Meets tree (.literal text :: segments) slot := by
  obtain ⟨front, rest, node, rfl, hnode, hends⟩ := h
  exact ⟨.literal text :: front, rest, node, rfl, by rw [node?, hchild, Option.bind_some, hnode],
    hends⟩

theorem Meets.single (hchild : tree.single = some child) (h : Meets child segments slot) :
    Meets tree (.single :: segments) slot := by
  obtain ⟨front, rest, node, rfl, hnode, hends⟩ := h
  exact ⟨.single :: front, rest, node, rfl, by rw [node?, hchild, Option.bind_some, hnode], hends⟩

theorem slot?_append_of_node? {front : List Segment} {node : Tree α}
    (h : node? front tree = some node) (rest : List Segment) :
    slot? (front ++ rest) tree = slot? rest node := by
  induction front generalizing tree with
  | nil =>
      cases h
      rfl
  | cons segment front ih =>
      cases segment with
      | literal text =>
          obtain ⟨child, hchild, hbelow⟩ := Option.bind_eq_some_iff.mp h
          rw [List.cons_append, slot?, hchild, Option.bind_some, ih hbelow]
      | single =>
          obtain ⟨child, hchild, hbelow⟩ := Option.bind_eq_some_iff.mp h
          rw [List.cons_append, slot?, hchild, Option.bind_some, ih hbelow]
      | multi => cases h

theorem Meets.slot?_eq (h : Meets tree segments slot) : slot? segments tree = some slot := by
  obtain ⟨front, rest, node, rfl, hnode, hends⟩ := h
  rw [slot?_append_of_node? hnode]
  cases hends with
  | exact hslot => exact hslot
  | multi hslot => exact hslot

end Steps

/-! ## Failures -/

theorem updateFrom_of_lacks {node : Tree α} {rest : List Segment} {segment : String}
    (h : Lacks node rest segment) (f : List α → List α) (n : Nat) :
    updateFrom f n rest node = .error ⟨segment, n⟩ := by
  cases h with
  | exact hnone => exact updateFrom_nil_eq_error_iff.mpr ⟨hnone, rfl⟩
  | multi hnone => exact updateFrom_multi_eq_error_iff.mpr ⟨hnone, rfl⟩
  | literal hnone => exact updateFrom_literal_eq_error_iff.mpr (.inl ⟨hnone, rfl⟩)
  | single hnone => exact updateFrom_single_eq_error_iff.mpr (.inl ⟨hnone, rfl⟩)

/-- An update fails where the walk misses something, with its position counted from the
start of the walk. -/
theorem updateFrom_append_of_lacks {front rest : List Segment} {tree node : Tree α}
    {segment : String} (hnode : node? front tree = some node) (h : Lacks node rest segment)
    (f : List α → List α) (n : Nat) :
    updateFrom f n (front ++ rest) tree = .error ⟨segment, n + front.length⟩ := by
  induction front generalizing tree n with
  | nil =>
      cases hnode
      exact updateFrom_of_lacks h f n
  | cons first front ih =>
      have hposition : n + (first :: front).length = n + 1 + front.length := by
        rw [List.length_cons]
        omega
      rw [hposition]
      cases first with
      | literal text =>
          obtain ⟨child, hchild, hbelow⟩ := Option.bind_eq_some_iff.mp hnode
          exact updateFrom_literal_eq_error_iff.mpr (.inr ⟨child, hchild, ih hbelow (n + 1)⟩)
      | single =>
          obtain ⟨child, hchild, hbelow⟩ := Option.bind_eq_some_iff.mp hnode
          exact updateFrom_single_eq_error_iff.mpr (.inr ⟨child, hchild, ih hbelow (n + 1)⟩)
      | multi => cases hnode

theorem exists_lacks_of_updateFrom_error {f : List α → List α} {n : Nat}
    {segments : List Segment} {tree : Tree α} {missing : MissingNode}
    (h : updateFrom f n segments tree = .error missing) :
    ∃ front rest node, segments = front ++ rest ∧ node? front tree = some node ∧
      Lacks node rest missing.segment ∧ missing.position = n + front.length := by
  induction segments generalizing n tree with
  | nil =>
      obtain ⟨hslot, rfl⟩ := updateFrom_nil_eq_error_iff.mp h
      exact ⟨[], [], tree, rfl, rfl, .exact hslot, rfl⟩
  | cons segment segments ih =>
      cases segment with
      | literal text =>
          rcases updateFrom_literal_eq_error_iff.mp h with ⟨hchild, rfl⟩ | ⟨child, hchild, hbelow⟩
          · exact ⟨[], _, tree, rfl, rfl, .literal hchild, rfl⟩
          · obtain ⟨front, rest, node, rfl, hnode, hlacks, hposition⟩ := ih hbelow
            refine ⟨.literal text :: front, rest, node, rfl, ?_, hlacks, ?_⟩
            · rw [node?, hchild, Option.bind_some, hnode]
            · rw [List.length_cons]
              omega
      | single =>
          rcases updateFrom_single_eq_error_iff.mp h with ⟨hchild, rfl⟩ | ⟨child, hchild, hbelow⟩
          · exact ⟨[], _, tree, rfl, rfl, .single hchild, rfl⟩
          · obtain ⟨front, rest, node, rfl, hnode, hlacks, hposition⟩ := ih hbelow
            refine ⟨.single :: front, rest, node, rfl, ?_, hlacks, ?_⟩
            · rw [node?, hchild, Option.bind_some, hnode]
            · rw [List.length_cons]
              omega
      | multi =>
          obtain ⟨hslot, rfl⟩ := updateFrom_multi_eq_error_iff.mp h
          exact ⟨[], _, tree, rfl, rfl, .multi hslot, rfl⟩

/-- An update fails exactly where the walk misses something, and reports just that. -/
theorem update_eq_error_iff {f : List α → List α} {segments : List Segment} {tree : Tree α}
    {missing : MissingNode} :
    tree.update f segments = .error missing ↔ Misses tree segments missing := by
  constructor
  · intro h
    obtain ⟨front, rest, node, hsegments, hnode, hlacks, hposition⟩ :=
      exists_lacks_of_updateFrom_error h
    exact ⟨front, rest, node, hsegments, hnode, hlacks, by omega⟩
  · rintro ⟨front, rest, node, rfl, hnode, hlacks, hposition⟩
    rw [update, updateFrom_append_of_lacks hnode hlacks, Nat.zero_add, ← hposition]

/-! ## Updates in place -/

/-- A failed update in place leaves the tree as it was and does not run its function. -/
theorem updateInPlaceFrom_of_error {f : List α → List α} {n : Nat} {segments : List Segment}
    {tree : Tree α} {missing : MissingNode} (hs : Sorted tree)
    (h : updateFrom f n segments tree = .error missing) :
    updateInPlaceFrom f n segments tree = ⟨.error missing, tree, []⟩ := by
  induction segments generalizing n tree with
  | nil =>
      obtain ⟨hslot, rfl⟩ := updateFrom_nil_eq_error_iff.mp h
      simp only [updateInPlaceFrom, hslot]
  | cons segment segments ih =>
      cases segment with
      | literal text =>
          rcases updateFrom_literal_eq_error_iff.mp h with ⟨hchild, rfl⟩ | ⟨child, hchild, hbelow⟩
          · simp only [updateInPlaceFrom, hchild]
          · -- The child comes back unchanged, so putting it back changes nothing.
            simp only [updateInPlaceFrom, hchild, ih (hs.child hchild) hbelow,
              Entries.insert_eq_self hs.children hchild]
            cases tree
            rfl
      | single =>
          rcases updateFrom_single_eq_error_iff.mp h with ⟨hchild, rfl⟩ | ⟨child, hchild, hbelow⟩
          · simp only [updateInPlaceFrom, hchild]
          · simp only [updateInPlaceFrom, hchild, ih (hs.single hchild) hbelow]
            rw [← hchild]
            cases tree
            rfl
      | multi =>
          obtain ⟨hslot, rfl⟩ := updateFrom_multi_eq_error_iff.mp h
          simp only [updateInPlaceFrom, hslot]

/-- Any other update in place ends with the updated tree and has run its function once, on the
slot that the walk ends in. -/
theorem exists_updateInPlaceFrom_of_ok {f : List α → List α} {n : Nat} {segments : List Segment}
    {tree after : Tree α} (hs : Sorted tree) (h : updateFrom f n segments tree = .ok after) :
    ∃ slot, Meets tree segments slot ∧
      updateInPlaceFrom f n segments tree = ⟨.ok after.isEmpty, after, [slot]⟩ := by
  induction segments generalizing n tree after with
  | nil =>
      obtain ⟨slot, hslot, rfl⟩ := updateFrom_nil_eq_ok_iff.mp h
      refine ⟨slot, ⟨[], [], tree, rfl, rfl, .exact hslot⟩, ?_⟩
      simp only [updateInPlaceFrom, hslot]
  | cons segment segments ih =>
      cases segment with
      | literal text =>
          obtain ⟨child, updated, hchild, hbelow, rfl⟩ := updateFrom_literal_eq_ok_iff.mp h
          obtain ⟨slot, hmeets, hplace⟩ := ih (hs.child hchild) hbelow
          refine ⟨slot, hmeets.literal hchild, ?_⟩
          cases hempty : updated.isEmpty with
          | false => simp [updateInPlaceFrom, hchild, hplace, hempty]
          | true =>
              simp [updateInPlaceFrom, hchild, hplace, hempty, Entries.erase_insert _ hs.children]
      | single =>
          obtain ⟨child, updated, hchild, hbelow, rfl⟩ := updateFrom_single_eq_ok_iff.mp h
          obtain ⟨slot, hmeets, hplace⟩ := ih (hs.single hchild) hbelow
          refine ⟨slot, hmeets.single hchild, ?_⟩
          cases hempty : updated.isEmpty with
          | false => simp [updateInPlaceFrom, hchild, hplace, hempty, remaining]
          | true => simp [updateInPlaceFrom, hchild, hplace, hempty, remaining]
      | multi =>
          obtain ⟨slot, hslot, rfl⟩ := updateFrom_multi_eq_ok_iff.mp h
          refine ⟨slot, ⟨[], _, tree, rfl, rfl, .multi hslot⟩, ?_⟩
          simp only [updateInPlaceFrom, hslot]

/-- An update fails exactly where its walk lacks a node or a slot, whatever the function, and
says what is missing and how many segments led to the place; done in place, it has then changed
nothing and not run the function. Where the walk ends in a slot, the update succeeds and has run
the function once, on that slot; the slot holds what the function made of it, and the answer
tells whether the tree is empty now. -/
theorem update_fails_at_gap {tree : Tree α} (h : Reachable tree) (segments : List Segment)
    (f : List α → List α) :
    (∀ missing, tree.update f segments = .error missing ↔ Misses tree segments missing) ∧
    (∀ missing, Misses tree segments missing →
      tree.updateInPlace f segments = ⟨.error missing, tree, []⟩) ∧
    ((∀ missing, ¬ Misses tree segments missing) →
      ∃ slot after, Meets tree segments slot ∧ tree.update f segments = .ok after ∧
        tree.updateInPlace f segments = ⟨.ok after.isEmpty, after, [slot]⟩ ∧
        slot? segments after = keep (f slot)) := by
  refine ⟨fun _ => update_eq_error_iff, ?_, ?_⟩
  · intro missing hmisses
    exact updateInPlaceFrom_of_error h.sorted (update_eq_error_iff.mpr hmisses)
  · intro hnone
    cases hu : tree.update f segments with
    | error missing => exact absurd (update_eq_error_iff.mp hu) (hnone missing)
    | ok after =>
        obtain ⟨slot, hmeets, hplace⟩ := exists_updateInPlaceFrom_of_ok h.sorted hu
        obtain ⟨held, hheld, hafter⟩ := slot?_updateFrom_self h.sorted hu
        obtain rfl : held = slot := Option.some.inj (hheld.symm.trans hmeets.slot?_eq)
        exact ⟨held, after, hmeets, rfl, hplace, hafter⟩

/-- Below `a/+` there is no slot for `#`, whatever comes after it. The slot of `a` was created
without entries and is found. -/
theorem update_fails_at_gap_below_wildcard :
    let long : Pattern := ⟨"a/+/b", by decide⟩
    let short : Pattern := ⟨"a", by decide⟩
    let tree := ((Tree.empty : Tree Nat).alter (· ++ [1]) long.segments).alter id short.segments
    Reachable tree ∧
      tree.updateInPlace (· ++ [2]) [.literal "a", .single, .multi, .literal "b"] =
        ⟨.error ⟨"#", 2⟩, tree, []⟩ ∧
      ∃ after, tree.update (· ++ [2]) [.literal "a"] = .ok after ∧
        tree.updateInPlace (· ++ [2]) [.literal "a"] = ⟨.ok after.isEmpty, after, [[]]⟩ := by
  intro long short tree
  have hlong : long.segments = [.literal "a", .single, .literal "b"] := by decide
  have hshort : short.segments = [.literal "a"] := by decide
  let leaf : Tree Nat := ⟨some [1], [], none, none⟩
  let inner : Tree Nat := ⟨none, [("b", leaf)], none, none⟩
  have hform : tree = ⟨none, [("a", ⟨some [], [], some inner, none⟩)], none, none⟩ := by
    simp [tree, hlong, hshort, alter, Entries.get?, Entries.insert, empty, inner, leaf]
  have htree : Reachable tree := (Reachable.empty.alter _ long).alter _ short
  have hmisses : Misses tree [.literal "a", .single, .multi, .literal "b"] ⟨"#", 2⟩ :=
    ⟨[.literal "a", .single], [.multi, .literal "b"], inner, rfl,
      by simp [hform, node?, Entries.get?], .multi rfl, rfl⟩
  have hslot : slot? [.literal "a"] tree = some [] := by simp [hform, slot?, Entries.get?]
  obtain ⟨-, hfails, -⟩ := update_fails_at_gap htree [.literal "a", .single, .multi, .literal "b"]
    (· ++ [2])
  obtain ⟨herror, -, hends⟩ := update_fails_at_gap htree [.literal "a"] (· ++ [2])
  refine ⟨htree, hfails _ hmisses, ?_⟩
  obtain ⟨slot, after, hmeets, hupdate, hplace, -⟩ := hends fun missing h => by
    have hok := (updateFrom_isOk_iff (· ++ [2]) 0 [.literal "a"] tree).mpr (by rw [hslot]; rfl)
    obtain ⟨after, hafter⟩ := hok
    cases hafter.symm.trans ((herror missing).mpr h)
  obtain rfl : slot = [] := Option.some.inj (hmeets.slot?_eq.symm.trans hslot)
  exact ⟨after, hupdate, hplace⟩

end Tree

end ThingHub
