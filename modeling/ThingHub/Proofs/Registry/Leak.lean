import ThingHub.Proofs.Registry.Session

/-! # What stays behind at the broker

The request that gives a pattern up is sent once. When the link refuses it, the registry
forgets the pattern all the same and the broker keeps it; nothing else leaves a pattern
behind. -/

namespace ThingHub

variable {η σ : Type}

/-! ## Refused unsubscribe requests -/

/-- What an event does to the set of patterns whose latest unsubscribe request was refused. -/
def Event.spurned : Event η → Set String → Set String
  | .asked (.unsubscribe pattern) true, refused => refused \ {pattern}
  | .asked (.unsubscribe pattern) false, refused => insert pattern refused
  | _, refused => refused

/-- The patterns whose latest unsubscribe request the link refused, for a log with the
latest event first. -/
def refusals (log : List (Event η)) : Set String :=
  log.foldr Event.spurned ∅

theorem mem_spurned_of_ne {pattern : String} {request : Request}
    (h : pattern ≠ request.pattern) (taken : Bool) (refused : Set String) :
    pattern ∈ (Event.asked request taken : Event η).spurned refused ↔ pattern ∈ refused := by
  cases request with
  | subscribe other => exact Iff.rfl
  | unsubscribe other =>
      cases taken with
      | false => exact Set.mem_insert_iff.trans (or_iff_right h)
      | true => exact Set.mem_sdiff_singleton.trans (and_iff_left h)

theorem Asks.mem_refusals_iff {patterns : List String} {before after : List (Event η)}
    (h : Asks patterns before after) {pattern : String} (hp : pattern ∉ patterns) :
    pattern ∈ refusals after ↔ pattern ∈ refusals before :=
  h.mem_foldr_iff hp mem_spurned_of_ne ∅

/-- After its unsubscribe request a pattern is carried just when the request was refused,
if it was carried before. -/
theorem mem_carried_unsubscribe_iff {held : Set String} {log : List (Event η)}
    {pattern : String} (h : pattern ∈ carried held log) (taken : Bool) :
    pattern ∈ carried held (.asked (.unsubscribe pattern) taken :: log) ↔
      pattern ∈ refusals (.asked (.unsubscribe pattern) taken :: log) := by
  cases taken with
  | false => exact iff_of_true h (Set.mem_insert _ _)
  | true => exact iff_of_false (fun hp => hp.2 rfl) (fun hp => hp.2 rfl)

/-! ## Plain requests -/

/-- Nothing but subscribe requests is owed. -/
def Plain (owed : Entries Owed) : Prop :=
  ∀ entry ∈ owed, entry.2 = .subscribe

theorem Plain.insertNew {owed : Entries Owed} (h : Plain owed) (pattern : String) :
    Plain (Entries.insertNew pattern .subscribe owed) := by
  intro entry he
  rcases Entries.eq_or_mem_of_mem_insertNew he with rfl | he
  · rfl
  · exact h entry he

theorem Plain.erase {owed : Entries Owed} (h : Plain owed) (pattern : String) :
    Plain (Entries.erase pattern owed) :=
  fun entry he => h entry (Entries.mem_of_mem_erase he)

theorem Plain.tail {entry : String × Owed} {owed : Entries Owed} (h : Plain (entry :: owed)) :
    Plain owed :=
  fun other ho => h other (List.mem_cons_of_mem _ ho)

theorem not_plain_resubscribe {pattern : String} {rest : Entries Owed} :
    ¬Plain ((pattern, .resubscribe) :: rest) :=
  fun h => nomatch h _ List.mem_cons_self

theorem Link.Flushes.plain {link : Link σ} {owed : Entries Owed} {s : σ} {result : Flushed σ}
    (h : link.Flushes owed s result) (hp : Plain owed) : Plain result.owed := by
  induction h with
  | done _ => exact hp
  | cleared _ _ _ => exact absurd hp not_plain_resubscribe
  | clearRefused _ => exact hp
  | sent _ _ ih => exact ih hp.tail
  | refused _ => exact hp

/-- A flush of plain requests unsubscribes from nothing. -/
theorem Link.Flushes.refusals_eq {link : Link σ} {owed : Entries Owed}
    {state : σ × List (Event η)} {result : Flushed (σ × List (Event η))}
    (h : (link.recorded η).Flushes owed state result) (hp : Plain owed) :
    refusals result.link.2 = refusals state.2 := by
  induction h with
  | done _ => rfl
  | cleared _ _ _ => exact absurd hp not_plain_resubscribe
  | clearRefused _ => exact absurd hp not_plain_resubscribe
  | sent hask _ ih =>
      rw [ih hp.tail, Link.log_of_recorded_ask hask]
      rfl
  | refused hask =>
      rw [Link.log_of_recorded_ask hask]
      rfl

/-- A flush of plain requests puts on the broker what got through, and no more. -/
theorem Link.Flushes.mem_carried_iff {held : Set String} {link : Link σ} {owed : Entries Owed}
    {state : σ × List (Event η)} {result : Flushed (σ × List (Event η))}
    (h : (link.recorded η).Flushes owed state result) (hp : Plain owed) {pattern : String}
    (hn : pattern ∉ result.sent) :
    pattern ∈ carried held result.link.2 ↔ pattern ∈ carried held state.2 := by
  induction h with
  | done _ => exact Iff.rfl
  | cleared _ _ _ => exact absurd hp not_plain_resubscribe
  | clearRefused _ => exact absurd hp not_plain_resubscribe
  | sent hask _ ih =>
      obtain ⟨hne, hn⟩ := not_or.mp (mt List.mem_cons.mpr hn)
      rw [ih hp.tail hn, Link.log_of_recorded_ask hask]
      exact Set.mem_insert_iff.trans (or_iff_right hne)
  | refused hask =>
      rw [Link.log_of_recorded_ask hask]
      exact Iff.rfl

namespace Registry

/-! ## What is left over -/

/-- A registry in step with a broker that was empty at first, owing subscribe requests only,
when the broker has nothing beyond what is booked but the refused unsubscribe requests. -/
structure Traced (registry : Registry η) (log : List (Event η)) : Prop
    extends InStep ∅ registry log where
  plain : Plain registry.pending
  leftover : ∀ pattern ∉ registry.onBroker, pattern ∈ carried ∅ log ↔ pattern ∈ refusals log

variable {registry : Registry η} {log : List (Event η)}

theorem traced_empty : Traced (Registry.empty : Registry η) [] where
  keyed := keyed_empty
  ordered := Entries.ordered_nil
  registered := by simp [Registry.empty, Entries.keys]
  apart := by simp [Registry.empty]
  backed := by simp [Registry.empty]
  plain := by simp [Plain, Registry.empty]
  leftover := fun _ _ => Iff.rfl

theorem Traced.flush (link : Link σ) (state : σ × List (Event η))
    (h : Traced registry state.2) :
    Traced (registry.flush (link.recorded η) state).2.1
      (registry.flush (link.recorded η) state).2.2.2 := by
  have hflush := (link.recorded η).flushes_flush registry.pending state
  refine ⟨h.toInStep.flush link state, hflush.plain h.plain, ?_⟩
  intro pattern hp
  have hsent : pattern ∉ ((link.recorded η).flush registry.pending state).sent :=
    fun hs => hp (mem_onBroker_flush.mpr (.inl hs))
  have hoff : pattern ∉ registry.onBroker := fun hon => hp (mem_onBroker_flush.mpr (.inr hon))
  calc
    pattern ∈ carried ∅ ((link.recorded η).flush registry.pending state).link.2
      ↔ pattern ∈ carried ∅ state.2 := hflush.mem_carried_iff h.plain hsent
    _ ↔ pattern ∈ refusals state.2 := h.leftover pattern hoff
    _ ↔ pattern ∈ refusals ((link.recorded η).flush registry.pending state).link.2 := by
      rw [hflush.refusals_eq h.plain]

theorem Traced.subscribed (link : Link σ) (state : σ × List (Event η))
    (h : Traced registry state.2) (p : Pattern) (handler : η) :
    Traced (registry.subscribed (link.passed η true) p handler state).1
      (registry.subscribed (link.passed η true) p handler state).2.2 := by
  simp only [Registry.subscribed, Link.passed, if_true]
  split
  · rename_i hon
    exact ⟨h.register handler hon, h.plain, h.leftover⟩
  · rename_i hoff
    have howing : Traced (registry.owing p handler) state.2 :=
      ⟨h.owing handler hoff, h.plain.insertNew p.text, h.leftover⟩
    exact howing.flush link state

/-- Giving a pattern up leaves it at the broker just when the broker carries it and its
unsubscribe request is refused. -/
theorem Traced.unsubscribed (link : Link σ) (state : σ × List (Event η))
    (h : Traced registry state.2) (p : Pattern) :
    Traced (registry.forget p) (registry.told (link.passed η true) p.text state).2 := by
  have hasks := asks_told link true p.text registry state
  refine ⟨h.toInStep.forget hasks, h.plain.erase p.text, ?_⟩
  intro pattern hp
  by_cases he : pattern = p.text
  · subst he
    simp only [told, Link.passed, if_true]
    split
    · rename_i hon
      exact mem_carried_unsubscribe_iff (h.backed _ hon) _
    · rename_i hoff
      exact h.leftover _ hoff
  · have hother : pattern ∉ [p.text] := by simpa using he
    have hoff : pattern ∉ registry.onBroker := by
      intro hon
      exact hp (List.mem_filter.mpr ⟨hon, by simpa using he⟩)
    rw [hasks.mem_carried_iff hother, hasks.mem_refusals_iff hother]
    exact h.leftover pattern hoff

theorem Traced.leaks_iff (h : Traced registry log) (pattern : String)
    (hp : registry.isSubscribed pattern = false) :
    pattern ∈ carried ∅ log ↔ pattern ∈ refusals log := by
  apply h.leftover
  intro hon
  have hsubscribed := (h.isSubscribed_iff pattern).mpr (.inl (isOnBroker_iff.mpr hon))
  rw [hp] at hsubscribed
  cases hsubscribed

end Registry

/-! ## Sessions without a replay -/

namespace World

theorem Turns.traced {link : Link σ} {step : Step η σ} {world next : World η σ}
    (ht : Turns link world step next) (hr : step ≠ .replay)
    (h : Registry.Traced world.registry world.log) :
    Registry.Traced next.registry next.log := by
  cases ht with
  | rejected handler => exact h
  | subscribed p handler => exact h.subscribed link (world.link, world.log) p handler
  | unknown hget => exact h
  | @unsubscribed text p hget =>
      obtain rfl : p.text = text := h.keyed.own text p hget
      exact h.unsubscribed link (world.link, world.log) p
  | replayed => exact absurd rfl hr
  | flushed => exact h.flush link (world.link, world.log)
  | tuned change => exact h
  | asked pattern => exact h

/-- A registry that begins with an empty broker and never replays leaves behind exactly
the patterns whose latest unsubscribe request was refused. So the broker has registered
patterns only, in any state of the run, just when each such pattern is registered again. -/
theorem performEach_leaks_refusals_only {uses : List (Link σ × Step η σ)}
    (ha : ∀ use ∈ uses, use.2.Attached ∧ use.2 ≠ .replay) (react : η → Call → Reaction η σ)
    (depth : Nat) (s : σ) :
    ∃ answers world, performEach react depth uses (.start s) = some (answers, world) ∧
      (∀ pattern, world.registry.isSubscribed pattern = false →
        (pattern ∈ carried ∅ world.log ↔ pattern ∈ refusals world.log)) ∧
      ((∀ pattern ∈ carried ∅ world.log, world.registry.isSubscribed pattern = true) ↔
        ∀ pattern ∈ refusals world.log, world.registry.isSubscribed pattern = true) := by
  have hstart : Registry.Traced (World.start s : World η σ).registry (World.start s).log :=
    Registry.traced_empty
  obtain ⟨answers, world, hrun, hworld⟩ :=
    exists_performEach_of_turns (fun world => Registry.Traced world.registry world.log)
      (fun step => step.Attached ∧ step ≠ .replay) (fun _ ha => ha.1)
      (fun ha ht h => ht.traced ha.2 h) ha react depth hstart
  refine ⟨answers, world, hrun, hworld.leaks_iff, ?_⟩
  refine forall_congr' fun pattern => ?_
  cases hp : world.registry.isSubscribed pattern with
  | true => simp
  | false => exact imp_congr_left (hworld.leaks_iff pattern hp)

/-- A pattern left behind by a refused request is no leak once it is registered again. -/
theorem performEach_leaks_refusals_only_registered_again :
    let uses : List (Link Room × Step Nat Room) :=
      [(Room.link, .subscribe "a" 0 true), (Room.link, .unsubscribe "a" true),
        (Room.link, .subscribe "a" 1 true)]
    (∀ use ∈ uses, use.2.Attached ∧ use.2 ≠ .replay) ∧
      ∃ answers world, performEach (quiet fun _ _ => false) 0 uses (.start (some 1)) =
          some (answers, world) ∧
        "a" ∈ refusals world.log ∧
        ∀ pattern ∈ carried ∅ world.log, world.registry.isSubscribed pattern = true := by
  intro uses
  have ha : ∀ use ∈ uses, use.2.Attached ∧ use.2 ≠ .replay := by
    simp only [uses, List.forall_mem_cons]
    exact ⟨⟨.subscribe _ _, nofun⟩, ⟨.unsubscribe _, nofun⟩, ⟨.subscribe _ _, nofun⟩, by simp⟩
  obtain ⟨answers, world, hrun, -, hiff⟩ :=
    performEach_leaks_refusals_only ha (quiet fun _ _ => false) 0 (some 1)
  have hlast := congrArg Prod.snd (Option.some.inj hrun)
  have hrefused : refusals world.log = {"a"} :=
    (congrArg (fun last => refusals last.log) hlast).symm.trans (insert_empty_eq "a")
  have hsubscribed : world.registry.isSubscribed "a" = true :=
    (congrArg (fun last => last.registry.isSubscribed "a") hlast).symm
  refine ⟨ha, answers, world, hrun, hrefused ▸ rfl, hiff.mpr ?_⟩
  rw [hrefused]
  rintro pattern rfl
  exact hsubscribed

/-- A subscription that is taken, given up with a refused request: nothing is registered
or owed any more, and the broker still carries the pattern. -/
theorem unsubscribe_refused_leaks :
    ∃ answers world, performEach (quiet fun _ _ => false) 0
        [(Room.link, .subscribe "a" 0 true), (Room.link, .unsubscribe "a" true)]
        (.start (some 1) : World Nat Room) = some (answers, world) ∧
      answers = [.registered ⟨0⟩, .removed true] ∧ world.registry.pendingCount = 0 ∧
      world.registry.isSubscribed "a" = false ∧ "a" ∈ carried ∅ world.log :=
  ⟨_, _, rfl, rfl, rfl, rfl, Set.mem_insert "a" ∅⟩

end World

end ThingHub
