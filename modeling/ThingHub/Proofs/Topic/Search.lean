import Mathlib.Data.Set.List
import ThingHub.Proofs.Topic.Slots

/-! # The search in a tree agrees with the patterns

A search finds exactly the slots of the patterns that accept the topic, each once and
in a fixed order. The proof lets the search report the path of every slot it finds. -/

namespace ThingHub

open Segment

/-- Literals come before `+`, and `+` before `#`. -/
def Segment.rank : Segment → Nat
  | .literal _ => 0
  | .single => 1
  | .multi => 2

/-- Lexicographic order by rank; a path comes before every longer one that begins
with it. -/
def Segment.Precedes : List Segment → List Segment → Prop :=
  List.Lex fun s t => s.rank < t.rank

theorem Segment.not_precedes_self (path : List Segment) : ¬ Precedes path path := by
  intro h
  induction path with
  | nil => cases h
  | cons segment rest ih =>
      cases h with
      | cons h => exact ih h
      | rel h => exact absurd h (Nat.lt_irrefl _)

namespace Tree

variable {α : Type}

/-! ## Slots with the paths that lead to them -/

/-- Slots found behind one more segment. -/
def behind (segment : Segment) (hits : List (List Segment × List α)) :
    List (List Segment × List α) :=
  hits.map fun hit => (segment :: hit.1, hit.2)

/-- The search, with the path of every slot that it finds. -/
def located : List String → Tree α → List (List Segment × List α)
  | [], tree => tree.exact.toList.map (([], ·)) ++ tree.multi.toList.map (([.multi], ·))
  | segment :: rest, tree =>
    (Entries.get? segment tree.children).elim []
        (fun child => behind (.literal segment) (located rest child)) ++
      tree.single.elim [] (fun child => behind .single (located rest child)) ++
      tree.multi.toList.map (([.multi], ·))

theorem map_snd_found_behind {segment : Segment} {child : Option (Tree α)}
    {search : Tree α → List (List Segment × List α)} {collected : Tree α → List (List α)}
    (h : ∀ node, (search node).map Prod.snd = collected node) :
    (child.elim [] fun child => behind segment (search child)).map Prod.snd =
      child.elim [] collected := by
  cases child with
  | none => rfl
  | some node => simpa [behind, Function.comp_def] using h node

theorem mem_behind {segment : Segment} {hits : List (List Segment × List α)}
    {path : List Segment} {slot : List α} :
    (path, slot) ∈ behind segment hits ↔ ∃ rest, path = segment :: rest ∧ (rest, slot) ∈ hits := by
  simp only [behind, List.mem_map, Prod.exists, Prod.mk.injEq]
  constructor
  · rintro ⟨rest, found, hm, rfl, rfl⟩
    exact ⟨rest, rfl, hm⟩
  · rintro ⟨rest, rfl, hm⟩
    exact ⟨rest, slot, hm, rfl, rfl⟩

theorem mem_found_behind {segment : Segment} {child : Option (Tree α)}
    {search : Tree α → List (List Segment × List α)} {path : List Segment} {slot : List α} :
    (path, slot) ∈ child.elim [] (fun child => behind segment (search child)) ↔
      ∃ rest, path = segment :: rest ∧ ∃ node, child = some node ∧ (rest, slot) ∈ search node := by
  cases child <;> simp [mem_behind]

theorem map_snd_located (topic : List String) (tree : Tree α) :
    (located topic tree).map Prod.snd = collect topic tree := by
  induction topic generalizing tree with
  | nil => simp [located, collect, Function.comp_def]
  | cons segment rest ih =>
      simp [located, collect, map_snd_found_behind ih, Function.comp_def]

/-- Found are the slots whose path accepts the topic, and no others. -/
theorem mem_located {topic : List String} {tree : Tree α} {path : List Segment}
    {slot : List α} :
    (path, slot) ∈ located topic tree ↔
      accept path topic = true ∧ slot? path tree = some slot := by
  induction topic generalizing tree path with
  | nil =>
      rcases path with _ | ⟨text | _ | _, _ | ⟨next, rest⟩⟩ <;>
        simp [located, accept, slot?]
  | cons segment rest ih =>
      have hmem : (path, slot) ∈ located (segment :: rest) tree ↔
          (∃ p, path = .literal segment :: p ∧ ∃ node,
            Entries.get? segment tree.children = some node ∧ (p, slot) ∈ located rest node) ∨
          (∃ p, path = .single :: p ∧ ∃ node,
            tree.single = some node ∧ (p, slot) ∈ located rest node) ∨
          (path = [.multi] ∧ tree.multi = some slot) := by
        simp only [located, List.append_assoc, List.mem_append, mem_found_behind]
        simp [eq_comm, and_comm]
      have hbelow (p : List Segment) (child : Option (Tree α)) :
          (∃ node, child = some node ∧ accept p rest = true ∧ slot? p node = some slot) ↔
            accept p rest = true ∧ child.bind (slot? p) = some slot := by
        cases child <;> simp
      rw [hmem]
      simp only [ih, hbelow]
      rcases path with _ | ⟨text | _ | _, p⟩
      · simp [accept]
      · by_cases ht : text = segment
        · simp [accept, slot?, ht]
        · simp [accept, ht]
      · simp [accept, slot?]
      · cases p <;> simp [accept, slot?]

/-! ## The order of the slots -/

theorem pairwise_behind {segment : Segment} {hits : List (List Segment × List α)}
    (h : hits.Pairwise fun a b => Precedes a.1 b.1) :
    (behind segment hits).Pairwise fun a b => Precedes a.1 b.1 :=
  List.pairwise_map.mpr (h.imp fun hab => .cons hab)

theorem pairwise_found_behind {segment : Segment} {child : Option (Tree α)}
    {search : Tree α → List (List Segment × List α)}
    (h : ∀ node, (search node).Pairwise fun a b => Precedes a.1 b.1) :
    (child.elim [] fun child => behind segment (search child)).Pairwise
      fun a b => Precedes a.1 b.1 := by
  cases child with
  | none => exact .nil
  | some node => exact pairwise_behind (h node)

/-- Slots come in strictly ascending order of their paths: at every node the literal
branch first, then `+`, then `#`. -/
theorem pairwise_located (topic : List String) (tree : Tree α) :
    (located topic tree).Pairwise fun a b => Precedes a.1 b.1 := by
  induction topic generalizing tree with
  | nil =>
      have hend : Precedes [] [.multi] := .nil
      rw [located]
      cases tree.exact <;> cases tree.multi <;> simp [hend]
  | cons segment rest ih =>
      rw [located]
      simp only [List.pairwise_append, List.mem_append]
      refine ⟨⟨pairwise_found_behind ih, pairwise_found_behind ih, ?_⟩, ?_, ?_⟩
      · rintro ⟨p, slot⟩ hp ⟨q, slot'⟩ hq
        obtain ⟨p, rfl, -⟩ := mem_found_behind.mp hp
        obtain ⟨q, rfl, -⟩ := mem_found_behind.mp hq
        exact .rel (by simp [rank])
      · cases tree.multi <;> simp
      · rintro ⟨p, slot⟩ hp ⟨q, slot'⟩ hq
        have hq : q = [.multi] := by
          obtain ⟨found, -, hpair⟩ := List.mem_map.mp hq
          exact (Prod.mk.inj hpair).1.symm
        subst hq
        rcases hp with hp | hp
        · obtain ⟨p, rfl, -⟩ := mem_found_behind.mp hp
          exact .rel (by simp [rank])
        · obtain ⟨p, rfl, -⟩ := mem_found_behind.mp hp
          exact .rel (by simp [rank])

/-! ## Searching the whole tree -/

/-- Whether a path may be taken for a topic: the wildcards of the root do not reach the
topics of the broker itself. -/
def reaches (topic : String) (path : List Segment) : Bool :=
  !(Topic.isSystem topic && path.head?.any isWildcard)

/-- Of a topic of the broker itself, only the literal branch of the root is left. -/
theorem filter_located_of_isSystem {topic : String} (hsys : Topic.isSystem topic = true)
    (first : String) (rest : List String) (tree : Tree α) :
    ((located (first :: rest) tree).filter fun hit => reaches topic hit.1) =
      (Entries.get? first tree.children).elim []
        fun child => behind (.literal first) (located rest child) := by
  have hliteral : ∀ hit ∈ (Entries.get? first tree.children).elim []
      (fun child => behind (.literal first) (located rest child)),
      reaches topic hit.1 = true := by
    rintro ⟨path, slot⟩ hhit
    obtain ⟨path, rfl, -⟩ := mem_found_behind.mp hhit
    simp [reaches, isWildcard]
  have hsingle : ∀ hit ∈ tree.single.elim []
      (fun child => behind .single (located rest child)), ¬ reaches topic hit.1 = true := by
    rintro ⟨path, slot⟩ hhit
    obtain ⟨path, rfl, -⟩ := mem_found_behind.mp hhit
    simp [reaches, hsys, isWildcard]
  have hmulti : ∀ hit ∈ tree.multi.toList.map fun slot => ([Segment.multi], slot),
      ¬ reaches topic hit.1 = true := by
    intro hit hhit
    obtain ⟨slot, -, rfl⟩ := List.mem_map.mp hhit
    simp [reaches, hsys, isWildcard]
  rw [located, List.filter_append, List.filter_append, List.filter_eq_self.mpr hliteral,
    List.filter_eq_nil_iff.mpr hsingle, List.filter_eq_nil_iff.mpr hmulti, List.append_nil,
    List.append_nil]

theorem find_eq_located (topic : String) (tree : Tree α) :
    tree.find topic =
      ((located (Topic.segments topic) tree).filter fun hit => reaches topic hit.1).map
        Prod.snd := by
  cases hseg : Topic.segments topic with
  | nil => exact absurd hseg (Text.parts_ne_nil '/' topic)
  | cons first rest =>
      by_cases hsys : Topic.isSystem topic = true
      · rw [filter_located_of_isSystem hsys, map_snd_found_behind (map_snd_located rest)]
        simp only [find, hseg, hsys, if_true]
      · have hall : ∀ hit ∈ located (first :: rest) tree, reaches topic hit.1 = true := by
          intro hit _
          simp [reaches, hsys]
        rw [List.filter_eq_self.mpr hall, map_snd_located]
        simp only [find, hseg, if_neg hsys]

/-! ## Found patterns -/

/-- The slots that a search finds, with their paths. -/
def hits (topic : String) (tree : Tree α) : List (List Segment × List α) :=
  (located (Topic.segments topic) tree).filter fun hit => reaches topic hit.1

theorem mem_hits {topic : String} {tree : Tree α} {path : List Segment} {slot : List α} :
    (path, slot) ∈ hits topic tree ↔
      (accept path (Topic.segments topic) = true ∧ slot? path tree = some slot) ∧
        reaches topic path = true := by
  rw [hits, List.mem_filter, mem_located]

theorem mem_hits_segments {topic : String} {tree : Tree α} {p : Pattern} {slot : List α} :
    (p.segments, slot) ∈ hits topic tree ↔
      slot? p.segments tree = some slot ∧ p.accepts topic = true := by
  have haccepts : p.accepts topic = true ↔
      reaches topic p.segments = true ∧ accept p.segments (Topic.segments topic) = true := by
    rw [Pattern.accepts, Bool.and_eq_true]
    rfl
  rw [mem_hits, haccepts]
  exact ⟨fun h => ⟨h.1.2, h.2, h.1.1⟩, fun h => ⟨⟨h.2.2, h.1⟩, h.2.1⟩⟩

/-- Every path that leads to a hit is the reading of a pattern. -/
theorem exists_segments_eq_hits {tree : Tree α} (h : Spelled tree) (topic : String) :
    ∃ found : List Pattern,
      found.map Pattern.segments = (hits topic tree).map Prod.fst := by
  have hread : ∀ path ∈ (hits topic tree).map Prod.fst, path ∈ Set.range Pattern.segments := by
    intro path hp
    obtain ⟨⟨path, slot⟩, hhit, rfl⟩ := List.mem_map.mp hp
    obtain ⟨⟨haccept, hslot⟩, -⟩ := mem_hits.mp hhit
    obtain ⟨p, hp⟩ := h path (by simp [hslot])
    exact ⟨p, by rw [hp, address_of_accept haccept]⟩
  have hrange : (hits topic tree).map Prod.fst ∈ Set.range (List.map Pattern.segments) := by
    rw [Set.range_list_map]
    exact hread
  exact hrange

/-- The patterns whose slots a search finds, in the order of the slots. -/
structure Finds (topic : String) (tree : Tree α) (found : List Pattern) : Prop where
  mem_iff : ∀ p, p ∈ found ↔ (slot? p.segments tree).isSome ∧ p.accepts topic = true
  ascending : found.Pairwise fun p q => Precedes p.segments q.segments
  slots : (tree.find topic).map some = found.map fun p => slot? p.segments tree

theorem nodup_of_ascending {found : List Pattern}
    (h : found.Pairwise fun p q => Precedes p.segments q.segments) : found.Nodup := by
  apply h.imp
  rintro p q hpq rfl
  exact not_precedes_self _ hpq

theorem Finds.nodup {topic : String} {tree : Tree α} {found : List Pattern}
    (h : Finds topic tree found) : found.Nodup :=
  nodup_of_ascending h.ascending

theorem exists_finds {tree : Tree α} (h : Spelled tree) (topic : String) :
    ∃ found, Finds topic tree found := by
  obtain ⟨found, hfound⟩ := exists_segments_eq_hits h topic
  refine ⟨found, ?_, ?_, ?_⟩
  · intro p
    have hp : p ∈ found ↔ p.segments ∈ (hits topic tree).map Prod.fst := by
      rw [← hfound, List.mem_map]
      simp only [Pattern.segments_inj, exists_eq_right]
    rw [hp, List.mem_map, Option.isSome_iff_exists]
    constructor
    · rintro ⟨⟨path, slot⟩, hhit, rfl⟩
      obtain ⟨hslot, haccepts⟩ := mem_hits_segments.mp hhit
      exact ⟨⟨slot, hslot⟩, haccepts⟩
    · rintro ⟨⟨slot, hslot⟩, haccepts⟩
      exact ⟨(p.segments, slot), mem_hits_segments.mpr ⟨hslot, haccepts⟩, rfl⟩
  · have hpaths : ((hits topic tree).map Prod.fst).Pairwise Precedes :=
      List.pairwise_map.mpr ((pairwise_located _ tree).filter _)
    rw [← hfound] at hpaths
    exact List.pairwise_map.mp hpaths
  · calc
      (tree.find topic).map some = (hits topic tree).map fun hit => some hit.2 := by
        rw [find_eq_located, List.map_map]
        rfl
      _ = (hits topic tree).map fun hit => slot? hit.1 tree := by
        apply List.map_congr_left
        rintro ⟨path, slot⟩ hhit
        exact (mem_hits.mp hhit).1.2.symm
      _ = ((hits topic tree).map Prod.fst).map fun path => slot? path tree := by
        rw [List.map_map]
        rfl
      _ = found.map fun p => slot? p.segments tree := by
        rw [← hfound, List.map_map]
        rfl

/-- A search finds exactly the slots of the patterns that accept the topic, each once,
in strictly ascending order of the patterns. -/
theorem find_lists_accepting_slots {tree : Tree α} (h : Reachable tree) (topic : String) :
    ∃ found : List Pattern,
      (∀ p, p ∈ found ↔ (slot? p.segments tree).isSome ∧ p.accepts topic = true) ∧
      found.Nodup ∧
      found.Pairwise (fun p q => Precedes p.segments q.segments) ∧
      (tree.find topic).map some = found.map fun p => slot? p.segments tree := by
  obtain ⟨found, hfound⟩ := exists_finds h.spelled topic
  exact ⟨found, hfound.mem_iff, hfound.nodup, hfound.ascending, hfound.slots⟩

/-- The search on a tree with an entry behind a `#`, an empty slot at `+` and a `#` that
is no wildcard, for the level above the first `#`. -/
theorem find_lists_accepting_slots_above :
    let tree := (((empty : Tree Nat).alter (· ++ [1]) (Pattern.mk "a/#" (by decide)).segments).alter
      id (Pattern.mk "+" (by decide)).segments).alter (· ++ [2])
        (Pattern.mk "a/#/b" (by decide)).segments
    Reachable tree ∧ ∃ found : List Pattern,
      (∀ p, p ∈ found ↔ (slot? p.segments tree).isSome ∧ p.accepts "a" = true) ∧
      found.Nodup ∧
      found.Pairwise (fun p q => Precedes p.segments q.segments) ∧
      (tree.find "a").map some = found.map fun p => slot? p.segments tree := by
  have hreach := ((Reachable.empty.alter (α := Nat) (· ++ [1]) ⟨"a/#", by decide⟩).alter id
    ⟨"+", by decide⟩).alter (· ++ [2]) ⟨"a/#/b", by decide⟩
  exact ⟨hreach, find_lists_accepting_slots hreach "a"⟩

example :
    let tree := ((empty : Tree Nat).alter (· ++ [1]) [.literal "a", .multi]).alter
      (· ++ [2]) [.single]
    tree.find "a" = [[1], [2]] ∧ tree.find "$a" = [] := by decide

end Tree

end ThingHub
