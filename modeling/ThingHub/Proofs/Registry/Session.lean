import ThingHub.Proofs.Registry.Bookings
import ThingHub.Proofs.Registry.Run
import ThingHub.Registry.Scripted

/-! # Broker sessions

What the broker carries follows from the requests that were taken. A registry that begins
with a replay stays in step with it: each registered pattern is either booked as carried,
and then the broker has it, or still owed. -/

namespace ThingHub

variable {η σ : Type}

/-! ## What the broker carries -/

/-- What the broker carries after an event. -/
def Event.served : Event η → Set String → Set String
  | .asked (.subscribe pattern) true, carried => insert pattern carried
  | .asked (.unsubscribe pattern) true, carried => carried \ {pattern}
  | _, carried => carried

/-- What the broker carries after a log, the latest event first, if it held some patterns
before. -/
def carried (held : Set String) (log : List (Event η)) : Set String :=
  log.foldr Event.served held

theorem mem_served_of_ne {pattern : String} {request : Request}
    (h : pattern ≠ request.pattern) (taken : Bool) (carried : Set String) :
    pattern ∈ (Event.asked request taken : Event η).served carried ↔ pattern ∈ carried := by
  cases request with
  | subscribe other =>
      cases taken with
      | false => exact Iff.rfl
      | true => exact Set.mem_insert_iff.trans (or_iff_right h)
  | unsubscribe other =>
      cases taken with
      | false => exact Iff.rfl
      | true => exact Set.mem_sdiff_singleton.trans (and_iff_left h)

/-- A set that is told about requests one by one, and to which a request matters only for
its own pattern, does not change on a pattern that nothing was asked about. -/
theorem Asks.mem_foldr_iff {patterns : List String} {before after : List (Event η)}
    (h : Asks patterns before after) {change : Event η → Set String → Set String}
    {pattern : String} (hp : pattern ∉ patterns)
    (hchange : ∀ {request : Request}, pattern ≠ request.pattern → ∀ taken members,
      pattern ∈ change (.asked request taken) members ↔ pattern ∈ members)
    (members : Set String) :
    pattern ∈ after.foldr change members ↔ pattern ∈ before.foldr change members := by
  induction h with
  | refl => exact Iff.rfl
  | ask hm _ ih =>
      refine Iff.trans (hchange ?_ _ _) ih
      rintro rfl
      exact hp hm

theorem Asks.mem_carried_iff {held : Set String} {patterns : List String}
    {before after : List (Event η)} (h : Asks patterns before after) {pattern : String}
    (hp : pattern ∉ patterns) : pattern ∈ carried held after ↔ pattern ∈ carried held before :=
  h.mem_foldr_iff hp mem_served_of_ne held

/-- What a flush got through is carried: later requests of the same flush are about other
patterns. -/
theorem Link.Flushes.sent_carried {held : Set String} {link : Link σ} {owed : Entries Owed}
    {state : σ × List (Event η)} {result : Flushed (σ × List (Event η))}
    (h : (link.recorded η).Flushes owed state result) (hn : (Entries.keys owed).Nodup) :
    ∀ pattern ∈ result.sent, pattern ∈ carried held result.link.2 := by
  induction h with
  | done _ => simp
  | cleared _ _ ih => exact ih hn
  | clearRefused _ => simp
  | @sent pattern rest _ _ _ hask hrest ih =>
      obtain ⟨hfirst, hn⟩ : pattern ∉ Entries.keys rest ∧ (Entries.keys rest).Nodup :=
        List.nodup_cons.mp hn
      intro other ho
      rcases List.mem_cons.mp ho with rfl | ho
      · rw [hrest.asks.mem_carried_iff hfirst, Link.log_of_recorded_ask hask]
        exact Set.mem_insert _ _
      · exact ih hn other ho
  | refused _ => simp

namespace Registry

/-! ## In step with the broker -/

/-- A registry in step with a broker that held some patterns before the log began. -/
structure InStep (held : Set String) (registry : Registry η) (log : List (Event η)) : Prop where
  keyed : Keyed registry
  ordered : Entries.Ordered registry.pending
  registered : ∀ pattern, pattern ∈ Entries.keys registry.patterns ↔
    pattern ∈ registry.onBroker ∨ pattern ∈ Entries.keys registry.pending
  apart : ∀ pattern ∈ registry.onBroker, pattern ∉ Entries.keys registry.pending
  backed : ∀ pattern ∈ registry.onBroker, pattern ∈ carried held log

variable {held : Set String} {registry : Registry η} {log : List (Event η)}

theorem InStep.booked_eq (h : InStep held registry log) :
    registry.booked = registry.registered :=
  Set.ext fun pattern => (h.registered pattern).symm

theorem InStep.tidy (h : InStep held registry log) : Tidy registry :=
  ⟨h.keyed, h.ordered, h.apart, h.booked_eq.le⟩

/-- A tidy registry is in step if all that is registered is booked, and the broker has what
is booked as carried. -/
theorem Tidy.inStep (h : Tidy registry) (hall : registry.booked = registry.registered)
    (hbacked : ∀ pattern ∈ registry.onBroker, pattern ∈ carried held log) :
    InStep held registry log :=
  ⟨h.keyed, h.ordered, fun _ => (Set.ext_iff.mp hall _).symm, h.apart, hbacked⟩

theorem InStep.flush (link : Link σ) (state : σ × List (Event η))
    (h : InStep held registry state.2) :
    InStep held (registry.flush (link.recorded η) state).2.1
      (registry.flush (link.recorded η) state).2.2.2 := by
  have hflush := (link.recorded η).flushes_flush registry.pending state
  refine (h.tidy.flush (link.recorded η) state).inStep ?_ ?_
  · rw [booked_flush, registered_flush, h.booked_eq]
  · intro pattern hp
    rcases mem_onBroker_flush.mp hp with hsent | hon
    · exact hflush.sent_carried (Entries.nodup_keys h.ordered) pattern hsent
    · exact (hflush.asks.mem_carried_iff (h.apart pattern hon)).mpr (h.backed pattern hon)

theorem InStep.register (h : InStep held registry log) {p : Pattern} (handler : η)
    (hp : p.text ∈ registry.onBroker) : InStep held (registry.register p handler) log := by
  refine (h.tidy.register p handler).inStep ?_ h.backed
  have hm : p.text ∈ registry.booked := .inl hp
  rw [registered_register, ← h.booked_eq]
  exact (Set.insert_eq_of_mem hm).symm

theorem InStep.owing (h : InStep held registry log) {p : Pattern} (handler : η)
    (hp : p.text ∉ registry.onBroker) : InStep held (registry.owing p handler) log := by
  refine (h.tidy.owing handler hp).inStep ?_ h.backed
  rw [booked_owing, registered_owing, h.booked_eq]

theorem InStep.subscribed (link : Link σ) (state : σ × List (Event η))
    (h : InStep held registry state.2) (p : Pattern) (handler : η) :
    InStep held (registry.subscribed (link.passed η true) p handler state).1
      (registry.subscribed (link.passed η true) p handler state).2.2 := by
  simp only [Registry.subscribed, Link.passed, if_true]
  split
  · rename_i hon
    exact h.register handler hon
  · rename_i hoff
    exact (h.owing handler hoff).flush link state

/-- Forgetting a pattern keeps the registry in step, whatever was asked about that pattern. -/
theorem InStep.forget {after : List (Event η)} (h : InStep held registry log) {p : Pattern}
    (ha : Asks [p.text] log after) : InStep held (registry.forget p) after := by
  refine (h.tidy.forget p).inStep ?_ ?_
  · rw [booked_forget h.ordered, registered_forget h.keyed, h.booked_eq]
  · intro pattern hp
    obtain ⟨hon, hne⟩ : pattern ∈ registry.onBroker ∧ pattern ≠ p.text := by
      simpa [Registry.forget] using hp
    have hother : pattern ∉ [p.text] := by simpa using hne
    exact (ha.mem_carried_iff hother).mpr (h.backed pattern hon)

theorem isOnBroker_iff {pattern : String} :
    registry.isOnBroker pattern = true ↔ pattern ∈ registry.onBroker :=
  List.contains_iff_mem

theorem InStep.isSubscribed_iff (h : InStep held registry log) (pattern : String) :
    registry.isSubscribed pattern = true ↔
      registry.isOnBroker pattern = true ∨ pattern ∈ Entries.keys registry.pending := by
  rw [isOnBroker_iff, ← h.registered pattern]
  exact Entries.contains_iff_mem_keys _ _

theorem InStep.carried_of_pendingCount_eq_zero (h : InStep held registry log)
    (hzero : registry.pendingCount = 0) (pattern : String)
    (hp : registry.isSubscribed pattern = true) : pattern ∈ carried held log := by
  have hpending : registry.pending = [] := List.eq_nil_of_length_eq_zero hzero
  rcases (h.isSubscribed_iff pattern).mp hp with hon | howed
  · exact h.backed pattern (isOnBroker_iff.mp hon)
  · rw [hpending] at howed
    cases howed

/-- What owes everything is in step, whatever the broker held. -/
theorem Keyed.inStep_renewed (h : Keyed registry) (held : Set String) (log : List (Event η)) :
    InStep held registry.renewed log :=
  h.tidy_renewed.inStep (booked_renewed registry) fun _ hp => absurd hp List.not_mem_nil

/-- A replay puts any registry in step, whatever the broker held. -/
theorem Keyed.inStep_replayAll (h : Keyed registry) (held : Set String) (link : Link σ)
    (state : σ × List (Event η)) :
    InStep held (registry.replayAll (link.recorded η) state).2.1
      (registry.replayAll (link.recorded η) state).2.2.2 := by
  rw [replayAll_eq_flush_renewed]
  exact (h.inStep_renewed held state.2).flush link state

end Registry

/-! ## Sessions -/

/-- The steps of a session: the link is always passed, and what is booked is never given up. -/
inductive Step.Attached : Step η σ → Prop
  | subscribe (pattern : String) (handler : η) : Attached (.subscribe pattern handler true)
  | unsubscribe (pattern : String) : Attached (.unsubscribe pattern true)
  | replay : Attached .replay
  | flush : Attached .flush
  | tune (change : σ → σ) : Attached (.tune change)
  | query (pattern : String) : Attached (.query pattern)

namespace World

/-- What an attached step can do to a world. -/
inductive Turns (link : Link σ) (world : World η σ) : Step η σ → World η σ → Prop
  | rejected (handler : η) : Turns link world (.subscribe "" handler true) world
  | subscribed (p : Pattern) (handler : η) : Turns link world (.subscribe p.text handler true) <|
      let done := world.registry.subscribed (link.passed η true) p handler (world.link, world.log)
      world.settle done.1 done.2
  | unknown {text : String} : Entries.get? text world.registry.patterns = none →
      Turns link world (.unsubscribe text true) world
  | unsubscribed {text : String} {p : Pattern} :
      Entries.get? text world.registry.patterns = some p →
      Turns link world (.unsubscribe text true) (world.settle (world.registry.forget p)
        (world.registry.told (link.passed η true) text (world.link, world.log)))
  | replayed : Turns link world .replay <|
      let done := world.registry.replayAll (link.recorded η) (world.link, world.log)
      world.settle done.2.1 done.2.2
  | flushed : Turns link world .flush <|
      let done := world.registry.flushPending (link.recorded η) (world.link, world.log)
      world.settle done.2.1 done.2.2
  | tuned (change : σ → σ) :
      Turns link world (.tune change) { world with link := change world.link }
  | asked (pattern : String) : Turns link world (.query pattern) world

variable {held : Set String}

theorem exists_turns {step : Step η σ} (ha : step.Attached) (link : Link σ)
    (react : η → Call → Reaction η σ) (depth : Nat) (world : World η σ) :
    ∃ answer next, World.perform link react depth step world = some (answer, next) ∧
      Turns link world step next := by
  cases ha with
  | subscribe pattern handler =>
      rcases Registry.eq_empty_or_exists_pattern pattern with rfl | ⟨p, rfl⟩
      · exact ⟨_, _, perform_subscribe_empty handler true world, .rejected handler⟩
      · exact ⟨_, _, perform_subscribe_pattern p handler true world, .subscribed p handler⟩
  | unsubscribe pattern =>
      cases hget : Entries.get? pattern world.registry.patterns with
      | none => exact ⟨_, _, perform_unsubscribe_unknown hget true, .unknown hget⟩
      | some p => exact ⟨_, _, perform_unsubscribe_known hget true, .unsubscribed hget⟩
  | replay => exact ⟨_, _, perform_replay world, .replayed⟩
  | flush => exact ⟨_, _, perform_flush world, .flushed⟩
  | tune change => exact ⟨_, _, perform_tune change world, .tuned change⟩
  | query pattern => exact ⟨_, _, perform_query pattern world, .asked pattern⟩

/-- What every turn of an allowed step keeps, a run of allowed steps keeps. -/
theorem exists_performEach_of_turns (Kept : World η σ → Prop) (Allowed : Step η σ → Prop)
    (hattached : ∀ step, Allowed step → step.Attached)
    (hkeeps : ∀ {link step world next}, Allowed step → Turns link world step next →
      Kept world → Kept next)
    {uses : List (Link σ × Step η σ)} (hallowed : ∀ use ∈ uses, Allowed use.2)
    (react : η → Call → Reaction η σ) (depth : Nat) {world : World η σ} (hkept : Kept world) :
    ∃ answers last, World.performEach react depth uses world = some (answers, last) ∧
      Kept last := by
  refine exists_performEach Kept (fun _ step => Allowed step) ?_ hallowed hkept
  intro link step world ha hk
  obtain ⟨answer, next, hperform, hturns⟩ :=
    exists_turns (hattached step ha) link react depth world
  exact ⟨answer, next, hperform, hkeeps ha hturns hk⟩

theorem Turns.inStep {link : Link σ} {step : Step η σ} {world next : World η σ}
    (ht : Turns link world step next) (h : Registry.InStep held world.registry world.log) :
    Registry.InStep held next.registry next.log := by
  cases ht with
  | rejected handler => exact h
  | subscribed p handler => exact h.subscribed link (world.link, world.log) p handler
  | unknown hget => exact h
  | @unsubscribed text p hget =>
      obtain rfl : p.text = text := h.keyed.own text p hget
      exact h.forget (Registry.asks_told link true p.text world.registry (world.link, world.log))
  | replayed => exact h.keyed.inStep_replayAll held link (world.link, world.log)
  | flushed => exact h.flush link (world.link, world.log)
  | tuned change => exact h
  | asked pattern => exact h

/-- No subscription is lost in a session. Whatever the broker held before, after a replay
and any attached steps each registered pattern is either booked or owed, what is booked is
carried, and nothing is missing once nothing is owed. -/
theorem performEach_replay_loses_none (held : Set String) {registry : Registry η}
    (hr : registry.Reachable) {uses : List (Link σ × Step η σ)}
    (ha : ∀ use ∈ uses, use.2.Attached) (link : Link σ) (react : η → Call → Reaction η σ)
    (depth : Nat) (s : σ) (runs : HandlerId → Nat) :
    ∃ answers world, performEach react depth ((link, .replay) :: uses) ⟨registry, s, runs, []⟩ =
        some (answers, world) ∧
      (∀ pattern, world.registry.isSubscribed pattern = true ↔
        world.registry.isOnBroker pattern = true ∨
          pattern ∈ Entries.keys world.registry.pending) ∧
      (∀ pattern, world.registry.isOnBroker pattern = true →
        pattern ∉ Entries.keys world.registry.pending) ∧
      (∀ pattern, world.registry.isOnBroker pattern = true → pattern ∈ carried held world.log) ∧
      (world.registry.pendingCount = 0 →
        ∀ pattern, world.registry.isSubscribed pattern = true →
          pattern ∈ carried held world.log) := by
  obtain ⟨answer, next, hreplay, hnext⟩ : ∃ answer next,
      World.perform link react depth .replay ⟨registry, s, runs, []⟩ = some (answer, next) ∧
        Registry.InStep held next.registry next.log :=
    ⟨_, _, perform_replay _, hr.keyed.inStep_replayAll held link (s, [])⟩
  obtain ⟨answers, world, hrest, hworld⟩ :=
    exists_performEach_of_turns (fun world => Registry.InStep held world.registry world.log)
      Step.Attached (fun _ ha => ha) (fun _ ht h => ht.inStep h) ha react depth hnext
  refine ⟨_, world, performEach_cons_eq_some hreplay hrest, ?_⟩
  refine ⟨hworld.isSubscribed_iff, ?_, ?_, hworld.carried_of_pendingCount_eq_zero⟩
  · intro pattern hon
    exact hworld.apart pattern (Registry.isOnBroker_iff.mp hon)
  · intro pattern hon
    exact hworld.backed pattern (Registry.isOnBroker_iff.mp hon)

/-- A session whose replay stops between the two requests of its only pattern and whose
next subscription gets everything through. -/
theorem performEach_replay_loses_none_half_sent :
    let registry : Registry Nat := Registry.empty.register ⟨"a", by decide⟩ 0
    let uses : List (Link Room × Step Nat Room) :=
      [(Room.link, .tune fun _ => some 2), (Room.link, .subscribe "b" 1 true)]
    registry.Reachable ∧ (∀ use ∈ uses, use.2.Attached) ∧
      ∃ answers world, performEach (quiet fun _ _ => false) 0 ((Room.link, .replay) :: uses)
          ⟨registry, some 1, fun _ => 0, []⟩ = some (answers, world) ∧
        answers = [.count 0, .done, .registered ⟨1⟩] ∧ world.registry.pendingCount = 0 ∧
        ∀ pattern ∈ ["a", "b"], pattern ∈ carried {"a", "c"} world.log := by
  intro registry uses
  have hr : registry.Reachable := .subscribe .empty
    (Registry.subscribe_pattern (none : Option (Link Unit)) ⟨"a", by decide⟩ 0 .empty ())
  have ha : ∀ use ∈ uses, use.2.Attached := by
    simp only [uses, List.forall_mem_cons]
    exact ⟨.tune _, .subscribe _ _, by simp⟩
  obtain ⟨answers, world, hrun, -, -, -, hnone⟩ := performEach_replay_loses_none {"a", "c"} hr ha
    Room.link (quiet fun _ _ => false) 0 (some 1) fun _ => 0
  have hlast := Option.some.inj hrun
  have hanswers : answers = [.count 0, .done, .registered ⟨1⟩] := (congrArg Prod.fst hlast).symm
  have hzero : world.registry.pendingCount = 0 :=
    (congrArg (fun last => last.2.registry.pendingCount) hlast).symm
  have hsubscribed : world.registry.patternTexts = ["a", "b"] :=
    (congrArg (fun last => last.2.registry.patternTexts) hlast).symm
  refine ⟨hr, ha, answers, world, hrun, hanswers, hzero, ?_⟩
  intro pattern hp
  rw [← hsubscribed] at hp
  exact hnone hzero pattern ((Entries.contains_iff_mem_keys _ _).mpr hp)

end World

end ThingHub
