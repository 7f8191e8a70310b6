import Mathlib.Data.List.Basic
import ThingHub.Proofs.Data.Lists
import ThingHub.Proofs.Topic.Gap
import ThingHub.Proofs.Topic.Search

/-! # Updates touch one slot

An update changes the entries of the slot it addresses and no others. On its way back it may take
away whole nodes, but only slots without entries go with them. So a search comes by the same entries
as before, in the same order, but for those of the slot that was updated. -/

namespace ThingHub

open Segment

theorem Segment.Precedes.asymm {p q : List Segment} (h : Precedes p q) : ¬ Precedes q p := by
  induction h with
  | nil => nofun
  | cons _ ih =>
      intro h
      cases h with
      | cons h => exact ih h
      | rel h => exact Nat.lt_irrefl _ h
  | rel hless =>
      intro h
      cases h with
      | cons _ => exact Nat.lt_irrefl _ hless
      | rel h => exact Nat.lt_asymm hless h

namespace Tree

variable {α : Type}

/-- The entries under a path. Where there is no slot, there are none. -/
def entriesAt (path : List Segment) (tree : Tree α) : List α :=
  (slot? path tree).getD []

/-! ## The entries that a search comes by -/

section Searches

variable {topic : String} {tree after : Tree α} {found kept : List Pattern}

theorem Finds.flatten_find (h : Finds topic tree found) :
    (tree.find topic).flatten = found.flatMap fun p => tree.entriesAt p.segments := by
  calc
    (tree.find topic).flatten = ((tree.find topic).map some).flatMap (·.getD []) := by
      rw [List.flatMap_map, List.flatMap_def]
      simp only [Option.getD_some, List.map_id_fun', id]
    _ = (found.map fun p => slot? p.segments tree).flatMap (·.getD []) := by rw [h.slots]
    _ = found.flatMap fun p => tree.entriesAt p.segments := List.flatMap_map ..

/-- Ascending lists of the same patterns are the same list. -/
theorem eq_of_ascending (hfound : found.Pairwise fun p q => Precedes p.segments q.segments)
    (hkept : kept.Pairwise fun p q => Precedes p.segments q.segments)
    (h : ∀ p, p ∈ found ↔ p ∈ kept) : found = kept := by
  apply List.Perm.eq_of_pairwise _ hfound hkept
  · exact (List.perm_ext_iff_of_nodup (nodup_of_ascending hfound) (nodup_of_ascending hkept)).mpr h
  · intro p q _ _ hpq hqp
    exact absurd hqp hpq.asymm

/-- A search in a tree that has lost slots comes by what is left under the patterns found before,
in the same order. -/
theorem Finds.flatten_find_of_lost (h : Finds topic tree found) (hspelled : Spelled after)
    (hlost : ∀ path, (slot? path after).isSome → (slot? path tree).isSome) :
    (after.find topic).flatten = found.flatMap fun p => after.entriesAt p.segments := by
  obtain ⟨kept, hkept⟩ := exists_finds hspelled topic
  -- `kept` may be shorter than `found`, but not by a pattern under which entries are left.
  have hholding : (kept.filter fun p => !(after.entriesAt p.segments).isEmpty) =
      found.filter fun p => !(after.entriesAt p.segments).isEmpty := by
    apply eq_of_ascending (hkept.ascending.filter _) (h.ascending.filter _)
    intro p
    rw [List.mem_filter, List.mem_filter, hkept.mem_iff, h.mem_iff]
    have hslot : (!(after.entriesAt p.segments).isEmpty) = true →
        (slot? p.segments after).isSome := by
      cases hp : slot? p.segments after <;> simp [entriesAt, hp]
    constructor
    · rintro ⟨⟨hsome, haccepts⟩, hheld⟩
      exact ⟨⟨hlost _ hsome, haccepts⟩, hheld⟩
    · rintro ⟨⟨-, haccepts⟩, hheld⟩
      exact ⟨⟨hslot hheld, haccepts⟩, hheld⟩
  rw [hkept.flatten_find, ← flatMap_filter_isEmpty, hholding, flatMap_filter_isEmpty]

end Searches

/-! ## What an update does to the slots -/

/-- The addressed slot, if there is one, holds what the function makes of it, and every other slot
what it held; only slots that hold nothing may be gone. -/
structure Touches (f : List α → List α) (segments : List Segment) (tree after : Tree α) : Prop where
  self : slot? segments after = (slot? segments tree).bind fun slot => keep (f slot)
  others : ∀ path, address path ≠ address segments → Pruned (slot? path tree) (slot? path after)

section Updates

variable {f : List α → List α} {segments : List Segment} {tree after : Tree α}

/-- An update in place ends with the updated tree or, if it fails, with the tree as it was. -/
theorem update_eq_or (h : Sorted tree) (f : List α → List α) (segments : List Segment) :
    tree.update f segments = .ok (tree.updateInPlace f segments).tree ∨
      (∃ missing, tree.update f segments = .error missing) ∧
        (tree.updateInPlace f segments).tree = tree := by
  cases hu : tree.update f segments with
  | ok after =>
      obtain ⟨slot, -, hplace⟩ := exists_updateInPlaceFrom_of_ok h hu
      rw [updateInPlace, hplace]
      exact .inl rfl
  | error missing =>
      rw [updateInPlace, updateInPlaceFrom_of_error h hu]
      exact .inr ⟨⟨missing, rfl⟩, rfl⟩

theorem touches_of_update (h : Sorted tree) (hu : tree.update f segments = .ok after) :
    Touches f segments tree after := by
  obtain ⟨slot, hslot, hafter⟩ := slot?_updateFrom_self h hu
  refine ⟨?_, fun path hne => pruned_slot?_updateFrom h hu hne⟩
  rw [hslot, hafter, Option.bind_some]

theorem touches_self_of_error {missing : MissingNode}
    (hu : tree.update f segments = .error missing) : Touches f segments tree tree := by
  have hnone : slot? segments tree = none := by
    by_contra hsome
    obtain ⟨after, hok⟩ :=
      (updateFrom_isOk_iff f 0 segments tree).mpr (Option.isSome_iff_ne_none.mpr hsome)
    cases hok.symm.trans hu
  refine ⟨?_, fun _ _ => .inl rfl⟩
  rw [hnone, Option.bind_none]

theorem touches_updateInPlace (h : Sorted tree) (f : List α → List α) (segments : List Segment) :
    Touches f segments tree (tree.updateInPlace f segments).tree := by
  rcases update_eq_or h f segments with hok | ⟨⟨missing, herror⟩, hsame⟩
  · exact touches_of_update h hok
  · rw [hsame]
    exact touches_self_of_error herror

theorem Reachable.updateInPlace (h : Reachable tree) (f : List α → List α)
    (segments : List Segment) : Reachable (tree.updateInPlace f segments).tree := by
  rcases update_eq_or h.sorted f segments with hok | ⟨-, hsame⟩
  · exact h.update f segments hok
  · rwa [hsame]

theorem Touches.isSome (h : Touches f segments tree after) {path : List Segment}
    (hpath : (slot? path after).isSome) : (slot? path tree).isSome := by
  by_cases haddress : address path = address segments
  · rw [slot?_congr haddress] at hpath ⊢
    rw [h.self] at hpath
    exact Option.isSome_of_isSome_bind hpath
  · exact (h.others path haddress).isSome hpath

/-- A slot that was there is left with the entries that the function makes of them, or with the
same. -/
theorem Touches.entriesAt_eq (h : Touches f segments tree after) {path : List Segment}
    (hpath : (slot? path tree).isSome) :
    after.entriesAt path =
      if address path = address segments then f (tree.entriesAt path) else tree.entriesAt path := by
  obtain ⟨slot, hslot⟩ := Option.isSome_iff_exists.mp hpath
  split
  · rename_i haddress
    have hafter : slot? path after = keep (f slot) := by
      rw [slot?_congr haddress, h.self, ← slot?_congr haddress, hslot, Option.bind_some]
    rw [entriesAt, entriesAt, hslot, hafter, keep_getD_nil, Option.getD_some]
  · rename_i haddress
    exact (h.others path haddress).getD_nil

end Updates

/-- Whatever an update comes to, it touches the slot that its segments address and no other: each
of the others holds what it held, and is gone only if that was nothing. A search comes by the same
entries under the same patterns, except that the function was run on those of the addressed slot. -/
theorem update_touches_one_slot {tree : Tree α} (h : Reachable tree) (segments : List Segment)
    (f : List α → List α) :
    let after := (tree.updateInPlace f segments).tree
    (tree.update f segments = .ok after ∨
      (∃ missing, tree.update f segments = .error missing) ∧ after = tree) ∧
    slot? segments after = (slot? segments tree).bind (fun slot => keep (f slot)) ∧
    (∀ path, address path ≠ address segments →
      slot? path after = slot? path tree ∨ slot? path tree = some [] ∧ slot? path after = none) ∧
    ∀ topic, ∃ found : List Pattern,
      (∀ p, p ∈ found ↔ (slot? p.segments tree).isSome ∧ p.accepts topic = true) ∧
      found.Pairwise (fun p q => Precedes p.segments q.segments) ∧
      (tree.find topic).flatten = found.flatMap (fun p => tree.entriesAt p.segments) ∧
      (after.find topic).flatten = found.flatMap (fun p =>
        if p.segments = address segments then f (tree.entriesAt p.segments)
        else tree.entriesAt p.segments) := by
  intro after
  have htouches : Touches f segments tree after := touches_updateInPlace h.sorted f segments
  refine ⟨update_eq_or h.sorted f segments, htouches.self, htouches.others, fun topic => ?_⟩
  obtain ⟨found, hfound⟩ := exists_finds h.spelled topic
  refine ⟨found, hfound.mem_iff, hfound.ascending, hfound.flatten_find, ?_⟩
  rw [hfound.flatten_find_of_lost (h.updateInPlace f segments).spelled fun _ => htouches.isSome]
  apply List.flatMap_congr
  intro p hp
  rw [htouches.entriesAt_eq ((hfound.mem_iff p).mp hp).1, p.address_segments]

/-- Emptying `a/b` takes the node of `a` away, and with it the slot of `a`, which was created
without entries. The slot of `#` stays, and a search for `a/b` still comes by it. -/
theorem update_touches_one_slot_emptied :
    let tree := (((empty : Tree Nat).alter (· ++ [1]) (Pattern.mk "a/b" (by decide)).segments).alter
      id (Pattern.mk "a" (by decide)).segments).alter (· ++ [2])
        (Pattern.mk "#" (by decide)).segments
    let after := (tree.updateInPlace (fun _ => []) [.literal "a", .literal "b"]).tree
    Reachable tree ∧
      slot? [.literal "a"] tree = some [] ∧ slot? [.literal "a"] after = none ∧
      slot? [.multi] after = some [2] ∧
      ∃ found : List Pattern,
        (tree.find "a/b").flatten = found.flatMap (fun p => tree.entriesAt p.segments) ∧
        (after.find "a/b").flatten = found.flatMap (fun p =>
          if p.segments = [.literal "a", .literal "b"] then [] else tree.entriesAt p.segments) := by
  intro tree after
  have htree : Reachable tree := ((Reachable.empty.alter (α := Nat) (· ++ [1])
    ⟨"a/b", by decide⟩).alter id ⟨"a", by decide⟩).alter (· ++ [2]) ⟨"#", by decide⟩
  obtain ⟨-, -, hothers, hsearch⟩ :=
    update_touches_one_slot htree [.literal "a", .literal "b"] (fun _ => [])
  obtain ⟨found, -, -, hbefore, hafter⟩ := hsearch "a/b"
  have hmulti : slot? [.multi] tree = some [2] := by decide
  refine ⟨htree, by decide, by decide, ?_, found, hbefore, hafter⟩
  rcases hothers [.multi] (by decide) with hsame | ⟨hempty, -⟩
  · exact hsame.trans hmulti
  · cases hmulti.symm.trans hempty

end Tree

end ThingHub
