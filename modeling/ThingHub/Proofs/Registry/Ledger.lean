import Mathlib.Data.List.Dedup
import ThingHub.Registry.Basic

/-! # A plain list of registrations

The ledger is the naive picture of a registry: one list of registrations, searched from
front to back. -/

namespace ThingHub

/-- One registration with the pattern it was made under. -/
structure Entry (η : Type) where
  id : HandlerId
  pattern : Pattern
  handler : η

def Entry.registration {η : Type} (entry : Entry η) : Registration η :=
  ⟨entry.id, entry.handler⟩

/-- All registrations, the oldest first, and the number of the next one. -/
structure Ledger (η : Type) where
  entries : List (Entry η)
  nextId : Nat

namespace Ledger

variable {η : Type}

def empty : Ledger η := ⟨[], 0⟩

def add (pattern : Pattern) (handler : η) (ledger : Ledger η) : Ledger η :=
  ⟨ledger.entries ++ [⟨⟨ledger.nextId⟩, pattern, handler⟩], ledger.nextId + 1⟩

/-- Deletes every entry of a pattern. -/
def remove (text : String) (ledger : Ledger η) : Ledger η :=
  { ledger with entries := ledger.entries.filter (·.pattern.text ≠ text) }

/-- The entries of a pattern. -/
def under (text : String) (ledger : Ledger η) : List (Entry η) :=
  ledger.entries.filter (·.pattern.text = text)

/-- Whether there is an entry of a pattern. -/
def holds (text : String) (ledger : Ledger η) : Bool :=
  ledger.entries.any (·.pattern.text = text)

/-- The entries whose pattern accepts a topic. -/
def matching (topic : String) (ledger : Ledger η) : List (Entry η) :=
  ledger.entries.filter (·.pattern.accepts topic)

/-- The patterns of the entries, sorted and without repetitions. -/
def patternTexts (ledger : Ledger η) : List String :=
  (ledger.entries.map (·.pattern.text)).dedup.mergeSort (· ≤ ·)

/-! ## The entries of a pattern -/

theorem holds_eq_true_iff {text : String} {ledger : Ledger η} :
    ledger.holds text = true ↔ ledger.under text ≠ [] := by
  simp [holds, under, List.filter_eq_nil_iff]

theorem under_add (p : Pattern) (handler : η) (ledger : Ledger η) (text : String) :
    (ledger.add p handler).under text =
      ledger.under text ++ if p.text = text then [⟨⟨ledger.nextId⟩, p, handler⟩] else [] := by
  by_cases h : p.text = text <;> simp [under, add, List.filter_append, h]

theorem under_remove (text other : String) (ledger : Ledger η) :
    (ledger.remove text).under other = if other = text then [] else ledger.under other := by
  simp only [under, remove, List.filter_filter]
  split
  · rename_i h
    simp [h]
  · rename_i h
    apply List.filter_congr
    intro entry _
    by_cases he : entry.pattern.text = other <;> simp [he, h]

theorem holds_add (p : Pattern) (handler : η) (ledger : Ledger η) (text : String) :
    (ledger.add p handler).holds text = (ledger.holds text || decide (p.text = text)) := by
  simp [holds, add]

theorem holds_remove (text other : String) (ledger : Ledger η) :
    (ledger.remove text).holds other = (ledger.holds other && decide (other ≠ text)) := by
  rw [Bool.eq_iff_iff, holds_eq_true_iff, under_remove, Bool.and_eq_true, holds_eq_true_iff]
  by_cases h : other = text <;> simp [h]

theorem remove_eq_self {text : String} {ledger : Ledger η} (h : ledger.holds text = false) :
    ledger.remove text = ledger := by
  have hall : ledger.entries.filter (fun entry => decide (entry.pattern.text ≠ text)) =
      ledger.entries := by
    apply List.filter_eq_self.mpr
    simpa [holds] using h
  rw [remove, hall]

theorem mem_under {text : String} {ledger : Ledger η} {entry : Entry η} :
    entry ∈ ledger.under text ↔ entry ∈ ledger.entries ∧ entry.pattern.text = text := by
  simp [under]

theorem mem_matching {topic : String} {ledger : Ledger η} {entry : Entry η} :
    entry ∈ ledger.matching topic ↔
      entry ∈ ledger.entries ∧ entry.pattern.accepts topic = true := by
  simp [matching]

/-! ## Numbering -/

/-- Entries are numbered in ascending order, below the number of the next one. -/
structure Numbered (ledger : Ledger η) : Prop where
  ascending : ledger.entries.Pairwise fun a b => a.id.index < b.id.index
  below : ∀ entry ∈ ledger.entries, entry.id.index < ledger.nextId

theorem numbered_empty : (empty : Ledger η).Numbered :=
  ⟨.nil, by simp [empty]⟩

theorem Numbered.add {ledger : Ledger η} (h : ledger.Numbered) (p : Pattern) (handler : η) :
    (ledger.add p handler).Numbered := by
  constructor
  · apply List.pairwise_append.mpr
    refine ⟨h.ascending, by simp, ?_⟩
    intro a ha b hb
    obtain rfl := List.mem_singleton.mp hb
    exact h.below a ha
  · intro entry hm
    rcases List.mem_append.mp hm with hm | hm
    · exact Nat.lt_succ_of_lt (h.below entry hm)
    · obtain rfl := List.mem_singleton.mp hm
      exact Nat.lt_succ_self _

theorem Numbered.remove {ledger : Ledger η} (h : ledger.Numbered) (text : String) :
    (ledger.remove text).Numbered :=
  ⟨h.ascending.filter _, fun entry hm => h.below entry (List.mem_filter.mp hm).1⟩

theorem Numbered.nodup {ledger : Ledger η} (h : ledger.Numbered) : ledger.entries.Nodup := by
  apply h.ascending.imp
  rintro a b hlt rfl
  exact Nat.lt_irrefl _ hlt

/-- Among the entries of a ledger, the number tells which one it is. -/
theorem Numbered.eq_of_index_eq {ledger : Ledger η} (h : ledger.Numbered)
    {a b : Entry η} (ha : a ∈ ledger.entries) (hb : b ∈ ledger.entries)
    (hid : a.id.index = b.id.index) : a = b := by
  have hnodup : (ledger.entries.map (·.id.index)).Nodup :=
    List.pairwise_map.mpr (h.ascending.imp Nat.ne_of_lt)
  exact List.inj_on_of_nodup_map hnodup ha hb hid

end Ledger

end ThingHub
