import Mathlib.Data.Finmap
import ThingHub.Proofs.Topic.Slots

/-! # A tree is a table of patterns

Adding entries under patterns and changing the entries under a pattern keep a tree equal to
the finite table of what was put under each pattern. Every branch of such a tree leads to an
entry: whatever is emptied is pruned up to the first node that still leads to one. -/

namespace ThingHub

variable {α : Type}

/-! ## Tables -/

/-- Entries under patterns. A pattern with no entries is not in the table. -/
abbrev Table (α : Type) := Finmap fun _ : Pattern => {entries : List α // entries ≠ []}

namespace Table

def get? (p : Pattern) (table : Table α) : Option (List α) :=
  (table.lookup p).map Subtype.val

/-- Puts a list of entries under a pattern, in place of the ones that were there. -/
def put (p : Pattern) (entries : List α) (table : Table α) : Table α :=
  if h : entries = [] then table.erase p else table.insert p ⟨entries, h⟩

/-- One change: an entry is added under a pattern, or the entries under a pattern are changed. -/
inductive Change (α : Type)
  | add (p : Pattern) (entry : α)
  | update (p : Pattern) (f : List α → List α)

/-- A new entry comes behind the others. A pattern that has no entries is not updated, and one
that keeps none is taken out. -/
def change (table : Table α) : Change α → Table α
  | .add p entry => table.put p ((table.get? p).getD [] ++ [entry])
  | .update p f =>
    match table.get? p with
    | none => table
    | some entries => table.put p (f entries)

theorem get?_empty (p : Pattern) : get? p (∅ : Table α) = none := by
  simp [get?]

theorem get?_put (p q : Pattern) (entries : List α) (table : Table α) :
    get? q (table.put p entries) = if q = p then Tree.keep entries else get? q table := by
  by_cases hq : q = p
  · subst hq
    rw [if_pos rfl, put, get?]
    split
    · rename_i hnil
      rw [Finmap.lookup_erase, hnil]
      rfl
    · rename_i hne
      rw [Finmap.lookup_insert, Tree.keep, if_neg (mt List.isEmpty_iff.mp hne)]
      rfl
  · rw [if_neg hq, put, get?, get?]
    split
    · rw [Finmap.lookup_erase_ne hq]
    · rw [Finmap.lookup_insert_of_ne _ hq]

theorem isSome_get?_iff {p : Pattern} {table : Table α} : (table.get? p).isSome ↔ p ∈ table := by
  rw [get?, Option.isSome_map, Finmap.lookup_isSome]

theorem eq_empty_iff {table : Table α} : table = ∅ ↔ ∀ p, table.get? p = none := by
  constructor
  · rintro rfl p
    exact get?_empty p
  · intro h
    apply Finmap.ext_lookup
    intro p
    rw [Finmap.lookup_empty]
    exact Option.map_eq_none_iff.mp (h p)

end Table

namespace Tree

open Segment

/-! ## Trees without dead branches -/

/-- Every slot holds entries, and below every branch there is one. -/
inductive Alive : Tree α → Prop
  | node {tree : Tree α} (exact : tree.exact ≠ some []) (multi : tree.multi ≠ some [])
      (children : ∀ text child, Entries.get? text tree.children = some child →
        child.isEmpty = false)
      (single : ∀ child, tree.single = some child → child.isEmpty = false)
      (below : ∀ text child, Entries.get? text tree.children = some child → Alive child)
      (next : ∀ child, tree.single = some child → Alive child) : Alive tree

/-- A branch that is worth keeping. -/
def Bears (child : Tree α) : Prop :=
  child.isEmpty = false ∧ Alive child

theorem Alive.of_bears {tree : Tree α} (exact : tree.exact ≠ some [])
    (multi : tree.multi ≠ some [])
    (children : ∀ text child, Entries.get? text tree.children = some child → Bears child)
    (single : ∀ child, tree.single = some child → Bears child) : Alive tree :=
  .node exact multi (fun text child hc => (children text child hc).1)
    (fun child hc => (single child hc).1) (fun text child hc => (children text child hc).2)
    fun child hc => (single child hc).2

theorem Alive.exact {tree : Tree α} (h : Alive tree) : tree.exact ≠ some [] := by
  cases h
  assumption

theorem Alive.multi {tree : Tree α} (h : Alive tree) : tree.multi ≠ some [] := by
  cases h
  assumption

theorem Alive.child {tree : Tree α} (h : Alive tree) (text : String) (child : Tree α)
    (hc : Entries.get? text tree.children = some child) : Bears child := by
  cases h with
  | node _ _ children _ below _ => exact ⟨children text child hc, below text child hc⟩

theorem Alive.single {tree : Tree α} (h : Alive tree) (child : Tree α)
    (hc : tree.single = some child) : Bears child := by
  cases h with
  | node _ _ _ single _ next => exact ⟨single child hc, next child hc⟩

theorem alive_empty : Alive (empty : Tree α) :=
  .of_bears nofun nofun (by simp [empty, Entries.get?]) nofun

theorem Alive.slot?_ne {tree : Tree α} (h : Alive tree) (path : List Segment) :
    slot? path tree ≠ some [] := by
  induction path generalizing tree with
  | nil => exact h.exact
  | cons segment rest ih =>
      cases segment with
      | literal text =>
          cases hc : Entries.get? text tree.children with
          | none => simp [slot?, hc]
          | some child => simpa [slot?, hc] using ih (h.child text child hc).2
      | single =>
          cases hc : tree.single with
          | none => simp [slot?, hc]
          | some child => simpa [slot?, hc] using ih (h.single child hc).2
      | multi => exact h.multi

/-- A node is nonempty by its own entries or by a branch. -/
theorem isEmpty_eq_false_iff {tree : Tree α} :
    tree.isEmpty = false ↔ vacant tree.exact = false ∨
      (∃ text child, Entries.get? text tree.children = some child) ∨
      (∃ child, tree.single = some child) ∨ vacant tree.multi = false := by
  have hchildren : tree.children.isEmpty = false ↔
      ∃ text child, Entries.get? text tree.children = some child := by
    cases tree.children with
    | nil => simp [Entries.get?]
    | cons entry rest => exact iff_of_true rfl ⟨entry.1, entry.2, by simp [Entries.get?]⟩
  have hsingle : tree.single.isNone = false ↔ ∃ child, tree.single = some child := by
    cases tree.single <;> simp
  rw [← hchildren, ← hsingle, isEmpty]
  simp only [Bool.and_eq_false_iff, or_assoc]

theorem isSome_of_vacant {slot : Option (List α)} (h : vacant slot = false) : slot.isSome := by
  cases slot with
  | none => cases h
  | some _ => rfl

/-- Below every node that is not empty there is a slot. -/
theorem Alive.exists_slot {tree : Tree α} (h : Alive tree) (hne : tree.isEmpty = false) :
    ∃ path, (slot? path tree).isSome := by
  induction h with
  | @node tree _ _ children single _ _ below next =>
      rcases isEmpty_eq_false_iff.mp hne with hv | ⟨text, child, hc⟩ | ⟨child, hc⟩ | hv
      · exact ⟨[], isSome_of_vacant hv⟩
      · obtain ⟨path, hslot⟩ := below text child hc (children text child hc)
        exact ⟨.literal text :: path, by simpa [slot?, hc] using hslot⟩
      · obtain ⟨path, hslot⟩ := next child hc (single child hc)
        exact ⟨.single :: path, by simpa [slot?, hc] using hslot⟩
      · exact ⟨[.multi], isSome_of_vacant hv⟩

/-- A tree without dead branches is empty just when it has no slot. -/
theorem Alive.isEmpty_iff {tree : Tree α} (h : Alive tree) :
    tree.isEmpty = true ↔ ∀ path, slot? path tree = none := by
  constructor
  · intro hempty path
    have hv := vacant_slot?_of_isEmpty hempty path
    cases hs : slot? path tree with
    | none => rfl
    | some slot =>
        rw [hs] at hv
        have hnil : slot = [] := by simpa [vacant] using hv
        exact absurd (hnil ▸ hs) (h.slot?_ne path)
  · intro hnone
    by_contra hne
    obtain ⟨path, hslot⟩ := h.exists_slot (Bool.eq_false_iff.mpr hne)
    rw [hnone path] at hslot
    cases hslot

theorem isEmpty_of_slot? {tree : Tree α} {path : List Segment} {slot : List α}
    (h : slot? path tree = some slot) (hne : slot ≠ []) : tree.isEmpty = false := by
  rw [← Bool.not_eq_true]
  intro hempty
  have hv := vacant_slot?_of_isEmpty hempty path
  rw [h] at hv
  exact hne (by simpa [vacant] using hv)

/-! ## Adding and updating leave no dead branch -/

theorem isEmpty_alter {f : List α → List α} (hf : ∀ slot, f slot ≠ []) (path : List Segment)
    (tree : Tree α) : (tree.alter f path).isEmpty = false := by
  have hslot := slot?_alter f path path tree
  rw [if_pos rfl] at hslot
  exact isEmpty_of_slot? hslot (hf _)

theorem Alive.alter {f : List α → List α} (hf : ∀ slot, f slot ≠ []) (path : List Segment)
    {tree : Tree α} (h : Alive tree) : Alive (tree.alter f path) := by
  induction path generalizing tree with
  | nil => exact .of_bears (fun e => hf _ (Option.some.inj e)) h.multi h.child h.single
  | cons segment rest ih =>
      cases segment with
      | literal text =>
          have hchild : Alive ((Entries.get? text tree.children).getD Tree.empty) := by
            cases hc : Entries.get? text tree.children with
            | none => exact alive_empty
            | some child => exact (h.child text child hc).2
          refine .of_bears h.exact h.multi ?_ h.single
          intro other child hget
          rw [Tree.alter, Entries.get?_insert] at hget
          split at hget
          · cases hget
            exact ⟨isEmpty_alter hf rest _, ih hchild⟩
          · exact h.child other child hget
      | single =>
          have hchild : Alive (tree.single.getD Tree.empty) := by
            cases hc : tree.single with
            | none => exact alive_empty
            | some child => exact (h.single child hc).2
          refine .of_bears h.exact h.multi h.child ?_
          intro child hget
          cases hget
          exact ⟨isEmpty_alter hf rest _, ih hchild⟩
      | multi => exact .of_bears h.exact (fun e => hf _ (Option.some.inj e)) h.child h.single

theorem remaining_eq_some_iff {child kept : Tree α} :
    child.remaining = some kept ↔ kept = child ∧ kept.isEmpty = false := by
  unfold remaining
  split
  · rename_i hempty
    refine iff_of_false nofun ?_
    rintro ⟨rfl, hne⟩
    rw [hempty] at hne
    cases hne
  · rename_i hne
    constructor
    · rintro ⟨⟩
      exact ⟨rfl, Bool.eq_false_iff.mpr hne⟩
    · rintro ⟨rfl, -⟩
      rfl

/-- What pruning leaves of a branch bears entries. -/
theorem Alive.bears_of_remaining {child kept : Tree α} (h : Alive child)
    (hk : child.remaining = some kept) : Bears kept := by
  obtain ⟨rfl, hne⟩ := remaining_eq_some_iff.mp hk
  exact ⟨hne, h⟩

theorem Alive.updateFrom {f : List α → List α} {n : Nat} {path : List Segment}
    {tree after : Tree α} (h : Alive tree) (hs : Sorted tree)
    (hu : updateFrom f n path tree = .ok after) : Alive after := by
  induction path generalizing n tree after with
  | nil =>
      obtain ⟨slot, -, rfl⟩ := updateFrom_nil_eq_ok_iff.mp hu
      exact .of_bears (keep_ne_some_nil _) h.multi h.child h.single
  | cons segment rest ih =>
      cases segment with
      | literal text =>
          obtain ⟨child, updated, hc, hr, rfl⟩ := updateFrom_literal_eq_ok_iff.mp hu
          have hupdated := ih (h.child text child hc).2 (hs.child hc) hr
          refine .of_bears h.exact h.multi ?_ h.single
          intro other kept hget
          rw [get?_children_updated hs.children] at hget
          split at hget
          · exact hupdated.bears_of_remaining hget
          · exact h.child other kept hget
      | single =>
          obtain ⟨child, updated, hc, hr, rfl⟩ := updateFrom_single_eq_ok_iff.mp hu
          have hupdated := ih (h.single child hc).2 (hs.single hc) hr
          exact .of_bears h.exact h.multi h.child fun _ => hupdated.bears_of_remaining
      | multi =>
          obtain ⟨slot, -, rfl⟩ := updateFrom_multi_eq_ok_iff.mp hu
          exact .of_bears h.exact (keep_ne_some_nil _) h.child h.single

/-! ## Trees and tables in step -/

/-- A tree that has the slots of a table and no others, and no dead branch. -/
structure Tabulates (tree : Tree α) (table : Table α) : Prop where
  sorted : Sorted tree
  spelled : Spelled tree
  alive : Alive tree
  slots : ∀ p : Pattern, slot? p.segments tree = table.get? p

variable {tree : Tree α} {table : Table α}

theorem tabulates_empty : Tabulates (empty : Tree α) ∅ where
  sorted := sorted_empty
  spelled := spelled_empty
  alive := alive_empty
  slots p := (slot?_empty p.segments).trans (Table.get?_empty p).symm

/-- Every slot stands under a pattern, so an empty table leaves none. -/
theorem Tabulates.isEmpty_iff (h : Tabulates tree table) : tree.isEmpty = true ↔ table = ∅ := by
  rw [h.alive.isEmpty_iff, Table.eq_empty_iff]
  constructor
  · exact fun hnone p => (h.slots p).symm.trans (hnone p.segments)
  · intro hnone path
    by_contra hslot
    obtain ⟨p, hp⟩ := h.spelled path (Option.isSome_iff_ne_none.mpr hslot)
    rw [← slot?_address, ← hp, h.slots p] at hslot
    exact hslot (hnone p)

theorem Tabulates.add (h : Tabulates tree table) (p : Pattern) (entry : α) :
    Tabulates (tree.alter (· ++ [entry]) p.segments) (table.change (.add p entry)) where
  sorted := h.sorted.alter _ _
  spelled := h.spelled.alter _ p
  alive := h.alive.alter (by simp) _
  slots q := by
    rw [slot?_alter, Table.change, Table.get?_put, h.slots, h.slots]
    simp only [address_segments_inj]
    split
    · simp [keep]
    · rfl

/-- An update of the tree succeeds just when the table has the pattern. -/
theorem Tabulates.update_isOk_iff (h : Tabulates tree table) (p : Pattern)
    (f : List α → List α) : (∃ after, tree.update f p.segments = .ok after) ↔ p ∈ table := by
  refine (updateFrom_isOk_iff f 0 p.segments tree).trans ?_
  rw [h.slots]
  exact Table.isSome_get?_iff

theorem Tabulates.of_update (h : Tabulates tree table) {p : Pattern} {f : List α → List α}
    {after : Tree α} (hu : tree.update f p.segments = .ok after) :
    Tabulates after (table.change (.update p f)) where
  sorted := h.sorted.updateFrom hu
  spelled := h.spelled.updateFrom h.sorted hu
  alive := h.alive.updateFrom h.sorted hu
  slots q := by
    obtain ⟨slot, hslot, hkept⟩ := slot?_updateFrom_self h.sorted hu
    have hentries : table.get? p = some slot := (h.slots p).symm.trans hslot
    rw [Table.change, hentries, Table.get?_put]
    split
    · rename_i hq
      rw [hq, hkept]
    · rename_i hq
      -- Pruning may take other slots along only if they are empty, and here none is.
      have hother := pruned_slot?_updateFrom h.sorted hu (mt address_segments_inj.mp hq)
      rw [hother.eq_of_ne (h.alive.slot?_ne _), h.slots]

/-! ## Runs -/

/-- A change of a tree. An update that finds no slot leaves the tree as it is. -/
def change (tree : Tree α) : Table.Change α → Tree α
  | .add p entry => tree.alter (· ++ [entry]) p.segments
  | .update p f =>
    match tree.update f p.segments with
    | .ok after => after
    | .error _ => tree

theorem Tabulates.change (h : Tabulates tree table) (c : Table.Change α) :
    Tabulates (tree.change c) (table.change c) := by
  cases c with
  | add p entry => exact h.add p entry
  | update p f =>
      rw [Tree.change]
      cases hu : tree.update f p.segments with
      | ok after => exact h.of_update hu
      | error missing =>
          have hout : p ∉ table := by
            rw [← h.update_isOk_iff p f, hu]
            rintro ⟨after, ⟨⟩⟩
          rw [← Table.isSome_get?_iff, Option.not_isSome_iff_eq_none] at hout
          rw [Table.change, hout]
          exact h

theorem Tabulates.foldl (h : Tabulates tree table) (changes : List (Table.Change α)) :
    Tabulates (changes.foldl Tree.change tree) (changes.foldl Table.change table) := by
  induction changes generalizing tree table with
  | nil => exact h
  | cons c changes ih => exact ih (h.change c)

/-- A tree is a finite table with complete pruning. Whatever was added and updated so far, the
slot of every pattern holds the entries of the table, an update succeeds just when the table
has the pattern, the tree says that it is empty just when the table is, after the update too,
and no branch is dead. -/
theorem changes_tabulate (changes : List (Table.Change α)) :
    let tree := changes.foldl Tree.change Tree.empty
    let table := changes.foldl Table.change ∅
    (∀ p : Pattern, slot? p.segments tree = table.get? p) ∧
    (tree.isEmpty = true ↔ table = ∅) ∧
    (∀ (p : Pattern) (f : List α → List α),
      match tree.update f p.segments with
      | .ok after => p ∈ table ∧ (after.isEmpty = true ↔ table.change (.update p f) = ∅)
      | .error _ => p ∉ table) ∧
    Alive tree := by
  intro tree table
  have h : Tabulates tree table := tabulates_empty.foldl changes
  refine ⟨h.slots, h.isEmpty_iff, ?_, h.alive⟩
  intro p f
  have hok := h.update_isOk_iff p f
  cases hu : tree.update f p.segments with
  | ok after => exact ⟨hok.mp ⟨after, hu⟩, (h.of_update hu).isEmpty_iff⟩
  | error missing =>
      rw [hu] at hok
      exact fun hp => nomatch hok.mpr hp

example :
    let long : Pattern := ⟨"a/+/c", by decide⟩
    let short : Pattern := ⟨"a", by decide⟩
    let tree := [Table.Change.add long 0, .add short 1, .update long fun _ => []].foldl
      Tree.change Tree.empty
    slot? short.segments tree = some [1] ∧
      (tree.update (fun _ => []) short.segments).toOption.map isEmpty = some true := by
  decide

end Tree

end ThingHub
