import Mathlib.Order.BooleanAlgebra.Set
import ThingHub.Proofs.Registry.Operations

/-! # What a registry books for the broker

A registry books a pattern as carried by the broker or as owed to it. Each operation changes
the booked patterns in one way, whatever the link answers, and no pattern is ever booked both
ways. -/

namespace ThingHub.Registry

variable {η σ : Type} {registry after : Registry η}

/-- The patterns with a handler. -/
def registered (registry : Registry η) : Set String :=
  {pattern | pattern ∈ Entries.keys registry.patterns}

/-- The patterns that are booked as carried by the broker or as owed to it. -/
def booked (registry : Registry η) : Set String :=
  {pattern | pattern ∈ registry.onBroker ∨ pattern ∈ Entries.keys registry.pending}

theorem isSubscribed_iff_mem_registered {pattern : String} :
    registry.isSubscribed pattern = true ↔ pattern ∈ registry.registered :=
  Entries.contains_iff_mem_keys _ _

theorem registered_eq_empty_iff :
    registry.registered = ∅ ↔ ∀ pattern, registry.isSubscribed pattern = false := by
  rw [Set.eq_empty_iff_forall_notMem]
  refine forall_congr' fun pattern => ?_
  rw [← isSubscribed_iff_mem_registered, Bool.not_eq_true]

theorem registered_empty : (Registry.empty : Registry η).registered = ∅ := by
  simp [registered, Registry.empty, Entries.keys]

theorem booked_eq_empty_iff :
    registry.booked = ∅ ↔ registry.onBroker = [] ∧ registry.pending = [] := by
  constructor
  · intro h
    have hnone (pattern : String) : ¬(pattern ∈ registry.onBroker ∨
        pattern ∈ Entries.keys registry.pending) := by
      intro hp
      have hm : pattern ∈ registry.booked := hp
      rw [h] at hm
      exact hm
    refine ⟨List.eq_nil_iff_forall_not_mem.mpr fun pattern hp => hnone pattern (.inl hp), ?_⟩
    have hkeys : Entries.keys registry.pending = [] :=
      List.eq_nil_iff_forall_not_mem.mpr fun pattern hp => hnone pattern (.inr hp)
    exact List.map_eq_nil_iff.mp hkeys
  · rintro ⟨hon, hpending⟩
    ext pattern
    simp [booked, hon, hpending, Entries.keys]

/-! ## Flushing, replaying, clearing -/

/-- A flush moves patterns from owed to carried. -/
theorem booked_flush (link : Link σ) (registry : Registry η) (s : σ) :
    (registry.flush link s).2.1.booked = registry.booked := by
  have hkeys := (link.flushes_flush registry.pending s).sent_append_keys_owed
  ext pattern
  have hpending : pattern ∈ Entries.keys registry.pending ↔
      pattern ∈ (link.flush registry.pending s).sent ∨
        pattern ∈ Entries.keys (registry.flush link s).2.1.pending := by
    rw [← hkeys]
    exact List.mem_append
  calc
    pattern ∈ (registry.flush link s).2.1.booked
      ↔ (pattern ∈ (link.flush registry.pending s).sent ∨ pattern ∈ registry.onBroker) ∨
          pattern ∈ Entries.keys (registry.flush link s).2.1.pending :=
        or_congr_left mem_onBroker_flush
    _ ↔ pattern ∈ registry.onBroker ∨ pattern ∈ Entries.keys registry.pending := by
        rw [hpending]
        tauto

theorem registered_flush (link : Link σ) (registry : Registry η) (s : σ) :
    (registry.flush link s).2.1.registered = registry.registered := rfl

theorem booked_flushPending (link : Link σ) (registry : Registry η) (s : σ) :
    (registry.flushPending link s).2.1.booked = registry.booked :=
  booked_flush link registry s

theorem registered_flushPending (link : Link σ) (registry : Registry η) (s : σ) :
    (registry.flushPending link s).2.1.registered = registry.registered := rfl

theorem booked_renewed (registry : Registry η) :
    registry.renewed.booked = registry.registered := by
  ext pattern
  show pattern ∈ [] ∨ pattern ∈ Entries.keys registry.renewed.pending ↔ _
  rw [keys_pending_renewed]
  exact or_iff_right List.not_mem_nil

/-- A replay books just what is registered, whatever was booked before. -/
theorem booked_replayAll (link : Link σ) (registry : Registry η) (s : σ) :
    (registry.replayAll link s).2.1.booked = registry.registered := by
  rw [replayAll_eq_flush_renewed, booked_flush, booked_renewed]

theorem registered_replayAll (link : Link σ) (registry : Registry η) (s : σ) :
    (registry.replayAll link s).2.1.registered = registry.registered := rfl

theorem booked_clearBroker (registry : Registry η) : registry.clearBroker.booked = ∅ :=
  booked_eq_empty_iff.mpr ⟨rfl, rfl⟩

theorem registered_clearBroker (registry : Registry η) :
    registry.clearBroker.registered = registry.registered := rfl

/-! ## Subscribing and unsubscribing -/

theorem registered_register (p : Pattern) (handler : η) (registry : Registry η) :
    (registry.register p handler).registered = insert p.text registry.registered := by
  ext pattern
  exact Entries.mem_keys_insertNew

theorem registered_owing (p : Pattern) (handler : η) (registry : Registry η) :
    (registry.owing p handler).registered = insert p.text registry.registered :=
  registered_register p handler registry

theorem booked_owing (p : Pattern) (handler : η) (registry : Registry η) :
    (registry.owing p handler).booked = insert p.text registry.booked := by
  ext pattern
  refine (or_congr_right Entries.mem_keys_insertNew).trans ?_
  exact or_left_comm

theorem registered_subscribed (link : Option (Link σ)) (p : Pattern) (handler : η)
    (registry : Registry η) (s : σ) :
    (registry.subscribed link p handler s).1.registered = insert p.text registry.registered := by
  rw [registered, subscribed_patterns]
  exact registered_register p handler registry

/-- Without a link nothing is booked. -/
theorem booked_subscribed_none (p : Pattern) (handler : η) (registry : Registry η) (s : σ) :
    (registry.subscribed none p handler s).1.booked = registry.booked := rfl

/-- With a link the pattern is booked, one way or the other. -/
theorem booked_subscribed_some (link : Link σ) (p : Pattern) (handler : η)
    (registry : Registry η) (s : σ) :
    (registry.subscribed (some link) p handler s).1.booked = insert p.text registry.booked := by
  simp only [subscribed]
  split
  · rename_i hon
    have hm : p.text ∈ registry.booked := .inl hon
    exact (Set.insert_eq_of_mem hm).symm
  · rw [booked_flush, booked_owing]

theorem exists_pattern_of_subscribe {link : Option (Link σ)} {text : String} {handler : η}
    {s s' : σ} {id : HandlerId} (h : registry.subscribe link text handler s = .ok (id, after, s')) :
    ∃ p : Pattern, p.text = text ∧ registry.subscribed link p handler s = (after, s') := by
  rcases eq_empty_or_exists_pattern text with rfl | ⟨p, rfl⟩
  · rw [subscribe_empty] at h
    cases h
  · rw [subscribe_pattern] at h
    exact ⟨p, rfl, (Prod.mk.inj (Except.ok.inj h)).2⟩

theorem registered_of_subscribe {link : Option (Link σ)} {text : String} {handler : η}
    {s s' : σ} {id : HandlerId} (h : registry.subscribe link text handler s = .ok (id, after, s')) :
    after.registered = insert text registry.registered := by
  obtain ⟨p, rfl, hafter⟩ := exists_pattern_of_subscribe h
  have hregistered := registered_subscribed link p handler registry s
  rwa [hafter] at hregistered

/-- Subscribing books the pattern just when a link is passed. -/
theorem booked_of_subscribe {link : Option (Link σ)} {text : String} {handler : η}
    {s s' : σ} {id : HandlerId} (h : registry.subscribe link text handler s = .ok (id, after, s')) :
    after.booked = if link.isSome then insert text registry.booked else registry.booked := by
  obtain ⟨p, rfl, hafter⟩ := exists_pattern_of_subscribe h
  cases link with
  | none =>
      have hbooked := booked_subscribed_none (σ := σ) p handler registry s
      rwa [hafter] at hbooked
  | some link =>
      have hbooked := booked_subscribed_some link p handler registry s
      rwa [hafter] at hbooked

theorem registered_forget (h : Keyed registry) (p : Pattern) :
    (registry.forget p).registered = registry.registered \ {p.text} := by
  ext pattern
  exact (Entries.mem_keys_erase h.ordered).trans and_comm

theorem booked_forget (h : Entries.Ordered registry.pending) (p : Pattern) :
    (registry.forget p).booked = registry.booked \ {p.text} := by
  ext pattern
  have hon : pattern ∈ (registry.forget p).onBroker ↔
      pattern ∈ registry.onBroker ∧ pattern ≠ p.text := by
    simp [forget]
  have hpending : pattern ∈ Entries.keys (registry.forget p).pending ↔
      pattern ≠ p.text ∧ pattern ∈ Entries.keys registry.pending :=
    Entries.mem_keys_erase h
  refine (or_congr hon (hpending.trans and_comm)).trans ?_
  exact or_and_right.symm

/-! ## Tidy registries -/

/-- Nothing is booked twice, and nothing but what is registered. -/
structure Tidy (registry : Registry η) : Prop where
  keyed : Keyed registry
  ordered : Entries.Ordered registry.pending
  apart : ∀ pattern ∈ registry.onBroker, pattern ∉ Entries.keys registry.pending
  booked_subset : registry.booked ⊆ registry.registered

theorem tidy_empty : Tidy (Registry.empty : Registry η) where
  keyed := keyed_empty
  ordered := Entries.ordered_nil
  apart := by simp [Registry.empty]
  booked_subset := by
    rw [booked_eq_empty_iff.mpr ⟨rfl, rfl⟩]
    exact Set.empty_subset _

theorem Tidy.flush (h : Tidy registry) (link : Link σ) (s : σ) :
    Tidy (registry.flush link s).2.1 := by
  have hkeys := (link.flushes_flush registry.pending s).sent_append_keys_owed
  have hordered : (Entries.keys registry.pending).Pairwise (· < ·) := h.ordered
  have hnodup := Entries.nodup_keys h.ordered
  rw [← hkeys] at hordered hnodup
  refine ⟨h.keyed.of_patterns_eq rfl, (List.pairwise_append.mp hordered).2.1, ?_, ?_⟩
  · intro pattern hp howed
    rcases mem_onBroker_flush.mp hp with hsent | hon
    · exact (List.nodup_append.mp hnodup).2.2 pattern hsent pattern howed rfl
    · apply h.apart pattern hon
      rw [← hkeys]
      exact List.mem_append_right _ howed
  · rw [booked_flush]
    exact h.booked_subset

theorem Keyed.tidy_renewed (h : Keyed registry) : Tidy registry.renewed := by
  have hkeys := keys_pending_renewed registry
  refine ⟨h.of_patterns_eq rfl, ?_, ?_, ?_⟩
  · rw [Entries.Ordered, hkeys]
    exact h.ordered
  · exact fun pattern hp => absurd hp List.not_mem_nil
  · rintro pattern (hon | howed)
    · cases hon
    · rwa [hkeys] at howed

theorem Tidy.register (h : Tidy registry) (p : Pattern) (handler : η) :
    Tidy (registry.register p handler) := by
  refine ⟨h.keyed.register p handler, h.ordered, h.apart, ?_⟩
  rw [registered_register]
  exact h.booked_subset.trans (Set.subset_insert _ _)

theorem Tidy.owing (h : Tidy registry) {p : Pattern} (handler : η)
    (hp : p.text ∉ registry.onBroker) : Tidy (registry.owing p handler) := by
  refine ⟨(h.keyed.register p handler).of_patterns_eq rfl,
    Entries.ordered_insertNew _ _ h.ordered, ?_, ?_⟩
  · intro pattern hon howed
    rcases Entries.mem_keys_insertNew.mp howed with rfl | howed
    · exact hp hon
    · exact h.apart pattern hon howed
  · rw [booked_owing, registered_owing]
    exact Set.insert_subset_insert h.booked_subset

theorem Tidy.subscribed (h : Tidy registry) (link : Option (Link σ)) (p : Pattern) (handler : η)
    (s : σ) : Tidy (registry.subscribed link p handler s).1 := by
  unfold Registry.subscribed
  split
  · exact h.register p handler
  · split
    · exact h.register p handler
    · rename_i hoff
      exact (h.owing handler hoff).flush _ s

theorem Tidy.forget (h : Tidy registry) (p : Pattern) : Tidy (registry.forget p) := by
  refine ⟨h.keyed.forget p, Entries.ordered_erase _ h.ordered, ?_, ?_⟩
  · intro pattern hon howed
    have hon : pattern ∈ registry.onBroker := (List.mem_filter.mp hon).1
    exact h.apart pattern hon ((Entries.mem_keys_erase h.ordered).mp howed).2
  · rw [booked_forget h.ordered, registered_forget h.keyed]
    exact Set.sdiff_subset_sdiff_left h.booked_subset

theorem Tidy.unsubscribe (h : Tidy registry) (link : Option (Link σ)) (text : String) (s : σ) :
    Tidy (registry.unsubscribe link text s).2.1 := by
  cases hget : Entries.get? text registry.patterns with
  | none =>
      rw [unsubscribe_unknown link hget]
      exact h
  | some p =>
      rw [unsubscribe_known link hget]
      exact h.forget p

theorem Tidy.clearBroker (h : Tidy registry) : Tidy registry.clearBroker := by
  refine ⟨h.keyed.of_patterns_eq rfl, Entries.ordered_nil, ?_, ?_⟩
  · exact fun pattern hp => absurd hp List.not_mem_nil
  · rw [booked_clearBroker]
    exact Set.empty_subset _

theorem Reachable.tidy (h : Reachable registry) : Tidy registry := by
  induction h with
  | empty => exact tidy_empty
  | @subscribe σ registry after link text handler s s' id _ hs ih =>
      obtain ⟨p, -, hafter⟩ := exists_pattern_of_subscribe hs
      have htidy := ih.subscribed link p handler s
      rwa [hafter] at htidy
  | unsubscribe link text s _ ih => exact ih.unsubscribe link text s
  | replayAll link s _ ih => exact ih.keyed.tidy_renewed.flush link s
  | flushPending link s _ ih => exact ih.flush link s
  | clearBroker _ ih => exact ih.clearBroker

/-- Whatever is unsubscribed is registered and booked no more; all else stays. -/
theorem Tidy.unsubscribe_eq (h : Tidy registry) (link : Option (Link σ)) (text : String) (s : σ) :
    (registry.unsubscribe link text s).2.1.registered = registry.registered \ {text} ∧
      (registry.unsubscribe link text s).2.1.booked = registry.booked \ {text} := by
  cases hget : Entries.get? text registry.patterns with
  | none =>
      have hout : text ∉ registry.registered := by
        intro hm
        have hsome := Entries.isSome_get?_iff.mpr hm
        rw [hget] at hsome
        cases hsome
      rw [unsubscribe_unknown link hget]
      exact ⟨(Set.sdiff_singleton_eq_self hout).symm,
        (Set.sdiff_singleton_eq_self fun hm => hout (h.booked_subset hm)).symm⟩
  | some p =>
      obtain rfl : p.text = text := h.keyed.own text p hget
      rw [unsubscribe_known link hget]
      exact ⟨registered_forget h.keyed p, booked_forget h.ordered p⟩

/-- Where all that is registered is booked, each registered pattern is booked one way, and
one way only. -/
theorem Tidy.xor_of_booked_eq (h : Tidy registry) (hall : registry.booked = registry.registered)
    {pattern : String} (hp : registry.isSubscribed pattern = true) :
    (pattern ∈ registry.onBroker ∧ pattern ∉ Entries.keys registry.pending) ∨
      (pattern ∈ Entries.keys registry.pending ∧ pattern ∉ registry.onBroker) := by
  have hm : pattern ∈ registry.booked := by
    rw [hall]
    exact isSubscribed_iff_mem_registered.mp hp
  rcases hm with hon | howed
  · exact .inl ⟨hon, h.apart pattern hon⟩
  · exact .inr ⟨howed, fun hon => h.apart pattern hon howed⟩

end ThingHub.Registry
