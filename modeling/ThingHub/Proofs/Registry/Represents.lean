import ThingHub.Proofs.Data.Entries
import ThingHub.Proofs.Data.Lists
import ThingHub.Proofs.Registry.Ledger
import ThingHub.Proofs.Topic.Search

/-! # Registries that represent a ledger

A registry represents a ledger when its tree and its table of patterns hold just what the
list holds. Registering and forgetting keep that, and all questions about registrations
then have the ledger's answer. -/

namespace ThingHub

namespace Registry

variable {η σ : Type}

/-- The tree and the table of patterns hold what the ledger holds. What is booked for
the broker plays no part in it. -/
structure Represents (ledger : Ledger η) (registry : Registry η) : Prop where
  reachable : registry.tree.Reachable
  slots : ∀ p : Pattern, registry.tree.slot? p.segments =
    Tree.keep ((ledger.under p.text).map Entry.registration)
  ordered : Entries.Ordered registry.patterns
  patterns : ∀ text p, Entries.get? text registry.patterns = some p ↔
    p.text = text ∧ ledger.holds text = true
  nextId : registry.nextId = ledger.nextId
  numbered : ledger.Numbered

/-! ## Operations keep the representation -/

theorem represents_empty : Represents (Ledger.empty : Ledger η) Registry.empty where
  reachable := .empty
  slots p := Tree.slot?_empty p.segments
  ordered := Entries.ordered_nil
  patterns text p := by simp [Registry.empty, Entries.get?, Ledger.holds, Ledger.empty]
  nextId := rfl
  numbered := Ledger.numbered_empty

/-- Bookings for the broker may change freely. -/
theorem Represents.of_table_eq {ledger : Ledger η} {registry after : Registry η}
    (h : Represents ledger registry) (htree : after.tree = registry.tree)
    (hpatterns : after.patterns = registry.patterns)
    (hnext : after.nextId = registry.nextId) : Represents ledger after where
  reachable := htree ▸ h.reachable
  slots p := htree ▸ h.slots p
  ordered := hpatterns ▸ h.ordered
  patterns text p := hpatterns ▸ h.patterns text p
  nextId := hnext.trans h.nextId
  numbered := h.numbered

theorem Represents.flush {ledger : Ledger η} {registry : Registry η}
    (h : Represents ledger registry) (link : Link σ) (s : σ) :
    Represents ledger (registry.flush link s).2.1 :=
  h.of_table_eq rfl rfl rfl

theorem Represents.register {ledger : Ledger η} {registry : Registry η}
    (h : Represents ledger registry) (p : Pattern) (handler : η) :
    Represents (ledger.add p handler) (registry.register p handler) where
  reachable := h.reachable.alter _ p
  slots q := by
    simp only [Registry.register, Tree.slot?_alter, Pattern.address_segments,
      Pattern.segments_inj, h.slots, Tree.keep_getD_nil, Ledger.under_add, h.nextId]
    by_cases hq : q = p
    · subst hq
      simp [Tree.keep, Entry.registration]
    · have htext : p.text ≠ q.text := fun e => hq (Pattern.ext_text e.symm)
      simp [hq, htext]
  ordered := Entries.ordered_insertNew _ _ h.ordered
  patterns text q := by
    rw [Registry.register, Entries.get?_insertNew, Ledger.holds_add]
    by_cases ht : text = p.text
    · subst ht
      have hvalue : (Entries.get? p.text registry.patterns).getD p = p := by
        cases hget : Entries.get? p.text registry.patterns with
        | none => rfl
        | some present => exact Pattern.ext_text ((h.patterns _ _).mp hget).1
      simp only [if_true, hvalue, Option.some.injEq, decide_true, Bool.or_true, and_true]
      exact ⟨fun e => e ▸ rfl, fun e => (Pattern.ext_text e).symm⟩
    · simp [ht, Ne.symm ht, h.patterns]
  nextId := by simp [Registry.register, Ledger.add, h.nextId]
  numbered := h.numbered.add p handler

/-- A registered pattern has a slot, so forgetting it succeeds in the tree as well. -/
theorem Represents.exists_update {ledger : Ledger η} {registry : Registry η}
    (h : Represents ledger registry) {p : Pattern} (hp : ledger.holds p.text = true) :
    ∃ after, registry.tree.update (fun _ => []) p.segments = .ok after := by
  apply (Tree.updateFrom_isOk_iff _ _ _ _).mpr
  rw [h.slots, Tree.keep]
  have hne : ledger.under p.text ≠ [] := Ledger.holds_eq_true_iff.mp hp
  simp [hne]

theorem Represents.forget {ledger : Ledger η} {registry : Registry η}
    (h : Represents ledger registry) {p : Pattern} (hp : ledger.holds p.text = true) :
    Represents (ledger.remove p.text) (registry.forget p) := by
  obtain ⟨after, hu⟩ := h.exists_update hp
  have htree : (registry.forget p).tree = after := by simp [Registry.forget, hu]
  constructor
  · rw [htree]
    exact h.reachable.update _ _ hu
  · intro q
    rw [htree, Ledger.under_remove]
    by_cases hq : q = p
    · subst hq
      obtain ⟨slot, -, hafter⟩ := Tree.slot?_updateFrom_self h.reachable.sorted hu
      simp [hafter, Tree.keep]
    · have htext : q.text ≠ p.text := fun e => hq (Pattern.ext_text e)
      have hother : Segment.address q.segments ≠ Segment.address p.segments := by
        simpa [Pattern.segments_inj] using hq
      have hpruned := Tree.pruned_slot?_updateFrom h.reachable.sorted hu hother
      have hkept : registry.tree.slot? q.segments ≠ some [] := by
        rw [h.slots]
        exact Tree.keep_ne_some_nil _
      rw [hpruned.eq_of_ne hkept, h.slots, if_neg htext]
  · exact Entries.ordered_erase _ h.ordered
  · intro text q
    rw [Registry.forget, Entries.get?_erase h.ordered, Ledger.holds_remove]
    by_cases ht : text = p.text <;> simp [ht, h.patterns]
  · exact h.nextId
  · exact h.numbered.remove p.text

/-! ## Questions have the ledger's answer -/

theorem Represents.get?_patterns_eq_none {ledger : Ledger η} {registry : Registry η}
    (h : Represents ledger registry) {text : String} (ht : ledger.holds text = false) :
    Entries.get? text registry.patterns = none := by
  cases hget : Entries.get? text registry.patterns with
  | none => rfl
  | some p => simp [((h.patterns text p).mp hget).2] at ht

theorem Represents.exists_pattern {ledger : Ledger η} {registry : Registry η}
    (h : Represents ledger registry) {text : String} (ht : ledger.holds text = true) :
    ∃ p : Pattern, p.text = text ∧ Entries.get? text registry.patterns = some p := by
  obtain ⟨entry, -, hentry⟩ := List.any_eq_true.mp ht
  have htext : entry.pattern.text = text := by simpa using hentry
  exact ⟨entry.pattern, htext, (h.patterns _ _).mpr ⟨htext, ht⟩⟩

theorem Represents.isSubscribed_eq {ledger : Ledger η} {registry : Registry η}
    (h : Represents ledger registry) (text : String) :
    registry.isSubscribed text = ledger.holds text := by
  rw [isSubscribed, Entries.contains]
  cases ht : ledger.holds text with
  | false => rw [h.get?_patterns_eq_none ht, Option.isSome_none]
  | true =>
      obtain ⟨p, -, hget⟩ := h.exists_pattern ht
      rw [hget, Option.isSome_some]

theorem Represents.handlerCount_eq {ledger : Ledger η} {registry : Registry η}
    (h : Represents ledger registry) (text : String) :
    registry.handlerCount text = (ledger.under text).length := by
  rw [handlerCount]
  cases ht : ledger.holds text with
  | false =>
      have hnil : ledger.under text = [] := by
        by_contra hne
        simp [Ledger.holds_eq_true_iff.mpr hne] at ht
      rw [h.get?_patterns_eq_none ht, hnil]
      rfl
  | true =>
      obtain ⟨p, rfl, hget⟩ := h.exists_pattern ht
      have hne : ledger.under p.text ≠ [] := Ledger.holds_eq_true_iff.mp ht
      rw [hget, Option.bind_some, h.slots, Tree.keep]
      simp [hne]

theorem Represents.mem_patternTexts {ledger : Ledger η} {registry : Registry η}
    (h : Represents ledger registry) (text : String) :
    text ∈ registry.patternTexts ↔ ledger.holds text = true := by
  rw [patternTexts, ← Entries.contains_iff_mem_keys]
  exact h.isSubscribed_eq text ▸ Iff.rfl

theorem Represents.patternTexts_eq {ledger : Ledger η} {registry : Registry η}
    (h : Represents ledger registry) : registry.patternTexts = ledger.patternTexts := by
  have hmem (text : String) : text ∈ (ledger.entries.map (·.pattern.text)).dedup ↔
      text ∈ registry.patternTexts := by
    rw [h.mem_patternTexts, List.mem_dedup, Ledger.holds]
    simp
  have hperm : (ledger.entries.map (·.pattern.text)).dedup.Perm registry.patternTexts :=
    (List.perm_ext_iff_of_nodup (List.nodup_dedup _) (Entries.nodup_keys h.ordered)).mpr hmem
  symm
  apply mergeSort_eq_of_perm _ _ hperm
  · apply List.Pairwise.imp _ h.ordered
    intro a b hlt
    simpa using Std.le_of_lt hlt
  · intro a _ b _ hab hba
    exact Std.le_antisymm (by simpa using hab) (by simpa using hba)
  · intro a b c hab hbc
    simpa using Std.le_trans (by simpa using hab) (by simpa using hbc)
  · intro a b
    simpa using Std.le_total

/-- A search collects the entries of the patterns that it finds. -/
theorem Represents.find_eq {ledger : Ledger η} {registry : Registry η}
    (h : Represents ledger registry) {topic : String} {found : List Pattern}
    (hfound : Tree.Finds topic registry.tree found) :
    registry.tree.find topic =
      found.map fun p => (ledger.under p.text).map Entry.registration := by
  have hslots : (registry.tree.find topic).map some =
      (found.map fun p => (ledger.under p.text).map Entry.registration).map some := by
    rw [hfound.slots, List.map_map]
    apply List.map_congr_left
    intro p hp
    have hsome := ((hfound.mem_iff p).mp hp).1
    rw [h.slots, Tree.keep] at hsome ⊢
    split at hsome
    · simp at hsome
    · rename_i hne
      simp [hne]
  exact (List.map_inj_right fun _ _ => Option.some.inj).mp hslots

/-- The found patterns have just the matching entries, pattern by pattern. -/
theorem Represents.flatMap_under_perm {ledger : Ledger η} {registry : Registry η}
    (h : Represents ledger registry) {topic : String} {found : List Pattern}
    (hfound : Tree.Finds topic registry.tree found) :
    (found.flatMap fun p => ledger.under p.text).Perm (ledger.matching topic) := by
  have hnodup : (found.flatMap fun p => ledger.under p.text).Nodup := by
    apply List.nodup_flatMap.mpr
    refine ⟨fun p _ => h.numbered.nodup.filter _, hfound.nodup.imp ?_⟩
    intro p q hne entry hp hq
    have hp := (Ledger.mem_under.mp hp).2
    have hq := (Ledger.mem_under.mp hq).2
    exact hne (Pattern.ext_text (hp.symm.trans hq))
  have hmatching : (ledger.matching topic).Nodup := h.numbered.nodup.filter _
  apply (List.perm_ext_iff_of_nodup hnodup hmatching).mpr
  intro entry
  rw [List.mem_flatMap, Ledger.mem_matching]
  constructor
  · rintro ⟨p, hp, hentry⟩
    obtain ⟨hentry, htext⟩ := Ledger.mem_under.mp hentry
    rw [Pattern.ext_text htext]
    exact ⟨hentry, ((hfound.mem_iff p).mp hp).2⟩
  · rintro ⟨hentry, haccepts⟩
    have hunder : entry ∈ ledger.under entry.pattern.text := Ledger.mem_under.mpr ⟨hentry, rfl⟩
    have hslot : (registry.tree.slot? entry.pattern.segments).isSome := by
      rw [h.slots, Tree.keep]
      simp [List.ne_nil_of_mem hunder]
    exact ⟨entry.pattern, (hfound.mem_iff _).mpr ⟨hslot, haccepts⟩, hunder⟩

/-- A message reaches the matching entries, in the order of the ledger. -/
theorem Represents.recipients_eq {ledger : Ledger η} {registry : Registry η}
    (h : Represents ledger registry) (topic : String) :
    registry.recipients topic = (ledger.matching topic).map Entry.registration := by
  obtain ⟨found, hfound⟩ := Tree.exists_finds h.reachable.spelled topic
  have hperm : (registry.tree.find topic).flatten.Perm
      ((ledger.matching topic).map Entry.registration) := by
    rw [h.find_eq hfound, ← List.flatMap_def, ← List.map_flatMap]
    exact (h.flatMap_under_perm hfound).map _
  apply mergeSort_eq_of_perm _ _ hperm
  · apply List.pairwise_map.mpr
    apply (h.numbered.ascending.filter _).imp
    intro a b hlt
    exact decide_eq_true (Nat.le_of_lt hlt)
  · intro a ha b hb hab hba
    obtain ⟨entry, hentry, rfl⟩ := List.mem_map.mp ha
    obtain ⟨other, hother, rfl⟩ := List.mem_map.mp hb
    have hid : entry.id.index = other.id.index :=
      Nat.le_antisymm (of_decide_eq_true hab) (of_decide_eq_true hba)
    rw [h.numbered.eq_of_index_eq (Ledger.mem_matching.mp hentry).1
      (Ledger.mem_matching.mp hother).1 hid]
  · intro a b c hab hbc
    simpa using Nat.le_trans (by simpa using hab) (by simpa using hbc)
  · intro a b
    simpa using Nat.le_total _ _

end Registry

end ThingHub
