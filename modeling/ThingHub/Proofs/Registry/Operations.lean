import ThingHub.Proofs.Data.Entries
import ThingHub.Registry.Basic

/-! # What the operations of a registry leave behind

One equation for each way an operation can go, and the registries that operations reach.
A flush works through a front part of what is owed and leaves the rest. -/

namespace ThingHub

variable {η σ : Type}

/-! ## Flushing -/

/-- The ways a flush can go. What owes a resubscribe owes a subscribe as soon as its
unsubscribe is taken, and the first refusal ends the flush. -/
inductive Link.Flushes (link : Link σ) : Entries Owed → σ → Flushed σ → Prop
  | done (s : σ) : Flushes link [] s ⟨[], [], s⟩
  | cleared {pattern : String} {rest : Entries Owed} {s s' : σ} {result : Flushed σ} :
      link.ask (.unsubscribe pattern) s = (true, s') →
      Flushes link ((pattern, .subscribe) :: rest) s' result →
      Flushes link ((pattern, .resubscribe) :: rest) s result
  | clearRefused {pattern : String} {rest : Entries Owed} {s s' : σ} :
      link.ask (.unsubscribe pattern) s = (false, s') →
      Flushes link ((pattern, .resubscribe) :: rest) s ⟨[], (pattern, .resubscribe) :: rest, s'⟩
  | sent {pattern : String} {rest : Entries Owed} {s s' : σ} {result : Flushed σ} :
      link.ask (.subscribe pattern) s = (true, s') → Flushes link rest s' result →
      Flushes link ((pattern, .subscribe) :: rest) s
        { result with sent := pattern :: result.sent }
  | refused {pattern : String} {rest : Entries Owed} {s s' : σ} :
      link.ask (.subscribe pattern) s = (false, s') →
      Flushes link ((pattern, .subscribe) :: rest) s ⟨[], (pattern, .subscribe) :: rest, s'⟩

theorem Link.flushes_flush (link : Link σ) (owed : Entries Owed) (s : σ) :
    link.Flushes owed s (link.flush owed s) := by
  induction owed generalizing s with
  | nil => exact .done s
  | cons entry rest ih =>
      have hsubscribe (pattern : String) (s : σ) : link.Flushes ((pattern, .subscribe) :: rest) s
          (link.flush ((pattern, .subscribe) :: rest) s) := by
        obtain ⟨taken, s', hask⟩ : ∃ taken s', link.ask (.subscribe pattern) s = (taken, s') :=
          ⟨_, _, rfl⟩
        cases taken with
        | false => simpa [Link.flush, hask] using Flushes.refused hask
        | true => simpa [Link.flush, hask] using Flushes.sent hask (ih s')
      obtain ⟨pattern, _ | _⟩ := entry
      · obtain ⟨taken, s', hask⟩ : ∃ taken s', link.ask (.unsubscribe pattern) s = (taken, s') :=
          ⟨_, _, rfl⟩
        cases taken with
        | false => simpa [Link.flush, hask] using Flushes.clearRefused hask
        | true => simpa [Link.flush, hask] using Flushes.cleared hask (hsubscribe pattern s')
      · exact hsubscribe pattern s

/-- What went through and what is still owed are what was owed, in the same order. -/
theorem Link.Flushes.sent_append_keys_owed {link : Link σ} {owed : Entries Owed} {s : σ}
    {result : Flushed σ} (h : link.Flushes owed s result) :
    result.sent ++ Entries.keys result.owed = Entries.keys owed := by
  induction h with
  | done s => rfl
  | cleared _ _ ih => exact ih
  | clearRefused _ => rfl
  | sent _ _ ih => exact congrArg (_ :: ·) ih
  | refused _ => rfl

namespace Registry

theorem mem_foldl_insert (sent : List String) (carried : List String) (pattern : String) :
    pattern ∈ sent.foldl (fun carried pattern => carried.insert pattern) carried ↔
      pattern ∈ sent ∨ pattern ∈ carried := by
  induction sent generalizing carried with
  | nil => simp
  | cons first rest ih =>
      rw [List.foldl_cons, ih, List.mem_insert_iff, List.mem_cons, or_assoc]
      exact or_left_comm

theorem mem_onBroker_flush {link : Link σ} {registry : Registry η} {s : σ} {pattern : String} :
    pattern ∈ (registry.flush link s).2.1.onBroker ↔
      pattern ∈ (link.flush registry.pending s).sent ∨ pattern ∈ registry.onBroker :=
  mem_foldl_insert _ _ _

/-! ## Subscribing -/

/-- A registration together with the request that the broker is owed for it. -/
def owing (pattern : Pattern) (handler : η) (registry : Registry η) : Registry η :=
  { registry.register pattern handler with
    pending := Entries.insertNew pattern.text .subscribe registry.pending }

/-- What subscribing to a pattern leaves behind. -/
def subscribed (link : Option (Link σ)) (pattern : Pattern) (handler : η)
    (registry : Registry η) (s : σ) : Registry η × σ :=
  match link with
  | none => (registry.register pattern handler, s)
  | some link =>
    if pattern.text ∈ registry.onBroker then (registry.register pattern handler, s)
    else ((registry.owing pattern handler).flush link s).2

theorem subscribe_empty (link : Option (Link σ)) (handler : η) (registry : Registry η) (s : σ) :
    registry.subscribe link "" handler s = .error (.invalidPattern .empty) := rfl

theorem subscribe_pattern (link : Option (Link σ)) (p : Pattern) (handler : η)
    (registry : Registry η) (s : σ) :
    registry.subscribe link p.text handler s =
      .ok (⟨registry.nextId⟩, registry.subscribed link p handler s) := by
  unfold subscribe
  rw [Pattern.parse_text]
  cases link with
  | none => rfl
  | some link =>
      by_cases h : p.text ∈ registry.onBroker
      · have hadded : p.text ∈ (registry.register p handler).onBroker := h
        simp [subscribed, h, hadded]
      · simp [subscribed, h, owing, register]

/-- A text is empty or a pattern, which decides how subscribing to it goes. -/
theorem eq_empty_or_exists_pattern (text : String) : text = "" ∨ ∃ p : Pattern, p.text = text := by
  by_cases h : text = ""
  · exact .inl h
  · exact .inr ⟨⟨text, h⟩, rfl⟩

theorem subscribed_tree (link : Option (Link σ)) (p : Pattern) (handler : η)
    (registry : Registry η) (s : σ) :
    (registry.subscribed link p handler s).1.tree = (registry.register p handler).tree := by
  unfold subscribed
  split
  · rfl
  · split <;> rfl

theorem subscribed_patterns (link : Option (Link σ)) (p : Pattern) (handler : η)
    (registry : Registry η) (s : σ) :
    (registry.subscribed link p handler s).1.patterns =
      (registry.register p handler).patterns := by
  unfold subscribed
  split
  · rfl
  · split <;> rfl

theorem subscribed_nextId (link : Option (Link σ)) (p : Pattern) (handler : η)
    (registry : Registry η) (s : σ) :
    (registry.subscribed link p handler s).1.nextId = registry.nextId + 1 := by
  unfold subscribed
  split
  · rfl
  · split <;> rfl

/-! ## Unsubscribing -/

/-- The link after telling the broker about a pattern that is given up. -/
def told (link : Option (Link σ)) (pattern : String) (registry : Registry η) (s : σ) : σ :=
  match link with
  | some link =>
    if pattern ∈ registry.onBroker then (link.ask (.unsubscribe pattern) s).2 else s
  | none => s

theorem unsubscribe_unknown (link : Option (Link σ)) {text : String} {registry : Registry η}
    (h : Entries.get? text registry.patterns = none) (s : σ) :
    registry.unsubscribe link text s = (false, registry, s) := by
  unfold unsubscribe
  rw [h]

theorem unsubscribe_known (link : Option (Link σ)) {text : String} {registry : Registry η}
    {p : Pattern} (h : Entries.get? text registry.patterns = some p) (s : σ) :
    registry.unsubscribe link text s =
      (true, registry.forget p, registry.told link text s) := by
  unfold unsubscribe
  rw [h]
  rfl

/-! ## Replaying -/

/-- The registry that owes the broker every registered pattern anew. -/
def renewed (registry : Registry η) : Registry η :=
  { registry with
    onBroker := []
    pending := registry.patterns.map fun entry => (entry.1, Owed.resubscribe) }

theorem replayAll_eq_flush_renewed (link : Link σ) (registry : Registry η) (s : σ) :
    registry.replayAll link s = registry.renewed.flush link s := rfl

theorem keys_pending_renewed (registry : Registry η) :
    Entries.keys registry.renewed.pending = Entries.keys registry.patterns :=
  Entries.keys_map (fun _ => Owed.resubscribe) registry.patterns

/-! ## Registries that operations reach -/

/-- The registries that operations reach from the empty one, with any links. -/
inductive Reachable : Registry η → Prop
  | empty : Reachable Registry.empty
  | subscribe {σ : Type} {registry after : Registry η} {link : Option (Link σ)}
      {text : String} {handler : η} {s s' : σ} {id : HandlerId} :
      Reachable registry → registry.subscribe link text handler s = .ok (id, after, s') →
      Reachable after
  | unsubscribe {σ : Type} {registry : Registry η} (link : Option (Link σ))
      (text : String) (s : σ) :
      Reachable registry → Reachable (registry.unsubscribe link text s).2.1
  | replayAll {σ : Type} {registry : Registry η} (link : Link σ) (s : σ) :
      Reachable registry → Reachable (registry.replayAll link s).2.1
  | flushPending {σ : Type} {registry : Registry η} (link : Link σ) (s : σ) :
      Reachable registry → Reachable (registry.flushPending link s).2.1
  | clearBroker {registry : Registry η} : Reachable registry → Reachable registry.clearBroker

theorem Reachable.register {registry : Registry η} (h : Reachable registry) (p : Pattern)
    (handler : η) : Reachable (registry.register p handler) :=
  .subscribe h (subscribe_pattern (none : Option (Link Unit)) p handler registry ())

/-- The table of patterns is in order, and every pattern stands under its own text. -/
structure Keyed (registry : Registry η) : Prop where
  ordered : Entries.Ordered registry.patterns
  own : ∀ text p, Entries.get? text registry.patterns = some p → p.text = text

theorem keyed_empty : Keyed (Registry.empty : Registry η) :=
  ⟨Entries.ordered_nil, by simp [Registry.empty, Entries.get?]⟩

theorem Keyed.of_patterns_eq {registry after : Registry η} (h : Keyed registry)
    (he : after.patterns = registry.patterns) : Keyed after :=
  ⟨he ▸ h.ordered, fun text p hp => h.own text p (he ▸ hp)⟩

theorem Keyed.register {registry : Registry η} (h : Keyed registry) (p : Pattern)
    (handler : η) : Keyed (registry.register p handler) := by
  refine ⟨Entries.ordered_insertNew _ _ h.ordered, ?_⟩
  intro text q hq
  rw [Registry.register, Entries.get?_insertNew] at hq
  split at hq
  · rename_i ht
    subst ht
    cases hget : Entries.get? p.text registry.patterns with
    | none =>
        rw [hget] at hq
        cases hq
        rfl
    | some present =>
        rw [hget] at hq
        cases hq
        exact h.own _ _ hget
  · exact h.own text q hq

theorem Keyed.subscribed {registry : Registry η} (h : Keyed registry) (link : Option (Link σ))
    (p : Pattern) (handler : η) (s : σ) : Keyed (registry.subscribed link p handler s).1 :=
  (h.register p handler).of_patterns_eq (subscribed_patterns link p handler registry s)

theorem Keyed.forget {registry : Registry η} (h : Keyed registry) (p : Pattern) :
    Keyed (registry.forget p) := by
  refine ⟨Entries.ordered_erase _ h.ordered, ?_⟩
  intro text q hq
  rw [Registry.forget, Entries.get?_erase h.ordered] at hq
  split at hq
  · cases hq
  · exact h.own text q hq

theorem Keyed.unsubscribe {registry : Registry η} (h : Keyed registry)
    (link : Option (Link σ)) (text : String) (s : σ) :
    Keyed (registry.unsubscribe link text s).2.1 := by
  cases hget : Entries.get? text registry.patterns with
  | none =>
      rw [unsubscribe_unknown link hget]
      exact h
  | some p =>
      rw [unsubscribe_known link hget]
      exact h.forget p

theorem Reachable.keyed {registry : Registry η} (h : Reachable registry) : Keyed registry := by
  induction h with
  | empty => exact keyed_empty
  | @subscribe σ registry after link text handler s s' id _ hs ih =>
      rcases eq_empty_or_exists_pattern text with rfl | ⟨p, rfl⟩
      · rw [subscribe_empty] at hs
        cases hs
      · rw [subscribe_pattern] at hs
        obtain ⟨-, hafter⟩ := Prod.mk.inj (Except.ok.inj hs)
        have hk := ih.subscribed link p handler s
        rw [hafter] at hk
        exact hk
  | unsubscribe link text s _ ih => exact ih.unsubscribe link text s
  | replayAll link s _ ih => exact ih.of_patterns_eq rfl
  | flushPending link s _ ih => exact ih.of_patterns_eq rfl
  | clearBroker _ ih => exact ih.of_patterns_eq rfl

end Registry

end ThingHub
