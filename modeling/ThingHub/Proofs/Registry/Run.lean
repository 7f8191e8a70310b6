import ThingHub.Proofs.Registry.Operations
import ThingHub.Registry.Dispatch

/-! # Runs of a registry at work

A run performs steps one after the other, each with a link of its own, so that nothing is
assumed about which link is passed when. The log tells what a run asked of the links and
which handlers it called. -/

namespace ThingHub

variable {η σ : Type}

/-! ## Logs -/

/-- The handler call that an event is: the handler with the topic and the payload. -/
def Event.call? : Event η → Option (η × String × Bytes)
  | .called handler topic payload => some (handler, topic, payload)
  | _ => none

/-- The handler calls in a log, in the order in which they were made. -/
def World.calls (world : World η σ) : List (η × String × Bytes) :=
  (world.log.filterMap Event.call?).reverse

theorem World.calls_note (event : Event η) (world : World η σ) :
    (world.note event).calls = world.calls ++ event.call?.toList := by
  cases h : event.call? <;> simp [calls, note, h]

def Request.pattern : Request → String
  | .subscribe pattern => pattern
  | .unsubscribe pattern => pattern

/-- A log that grew by answered requests about some patterns, and by nothing else. -/
inductive Asks (patterns : List String) (before : List (Event η)) : List (Event η) → Prop
  | refl : Asks patterns before before
  | ask {after : List (Event η)} {request : Request} {taken : Bool} :
      request.pattern ∈ patterns → Asks patterns before after →
      Asks patterns before (.asked request taken :: after)

theorem Asks.trans {patterns : List String} {a b c : List (Event η)} (hab : Asks patterns a b)
    (hbc : Asks patterns b c) : Asks patterns a c := by
  induction hbc with
  | refl => exact hab
  | ask hm _ ih => exact .ask hm ih

theorem Asks.mono {few many : List String} {a b : List (Event η)} (h : Asks few a b)
    (hsub : ∀ pattern ∈ few, pattern ∈ many) : Asks many a b := by
  induction h with
  | refl => exact .refl
  | ask hm _ ih => exact .ask (hsub _ hm) ih

theorem Asks.filterMap_call?_eq {patterns : List String} {before after : List (Event η)}
    (h : Asks patterns before after) :
    after.filterMap Event.call? = before.filterMap Event.call? := by
  induction h with
  | refl => rfl
  | ask _ _ ih => exact (List.filterMap_cons_none rfl).trans ih

theorem Link.log_of_recorded_ask {link : Link σ} {request : Request}
    {state state' : σ × List (Event η)} {taken : Bool}
    (h : (link.recorded η).ask request state = (taken, state')) :
    state'.2 = .asked request taken :: state.2 := by
  cases h
  rfl

theorem Link.Flushes.asks {link : Link σ} {owed : Entries Owed} {state : σ × List (Event η)}
    {result : Flushed (σ × List (Event η))} (h : (link.recorded η).Flushes owed state result) :
    Asks (Entries.keys owed) state.2 result.link.2 := by
  induction h with
  | done state => exact .refl
  | cleared hask _ ih =>
      rw [Link.log_of_recorded_ask hask] at ih
      refine .trans (.ask ?_ .refl) ih
      exact List.mem_cons_self
  | clearRefused hask =>
      rw [Link.log_of_recorded_ask hask]
      exact .ask List.mem_cons_self .refl
  | sent hask _ ih =>
      rw [Link.log_of_recorded_ask hask] at ih
      refine .trans (.ask ?_ .refl) (ih.mono fun _ hm => List.mem_cons_of_mem _ hm)
      exact List.mem_cons_self
  | refused hask =>
      rw [Link.log_of_recorded_ask hask]
      exact .ask List.mem_cons_self .refl

/-! ## Steps -/

/-- The link that a step passes on, or none. -/
def Link.passed (link : Link σ) (η : Type) (linked : Bool) : Option (Link (σ × List (Event η))) :=
  if linked then some (link.recorded η) else none

/-- Of all steps only a dispatch calls handlers. -/
theorem Step.eq_dispatch_or (step : Step η σ) :
    (∃ topic payload, step = .dispatch topic payload) ∨
      ∀ topic payload, step ≠ .dispatch topic payload := by
  by_cases h : ∃ topic payload, step = .dispatch topic payload
  · exact .inl h
  · exact .inr fun topic payload heq => h ⟨topic, payload, heq⟩

theorem Registry.asks_subscribed (link : Link σ) (linked : Bool) (p : Pattern) (handler : η)
    (registry : Registry η) (state : σ × List (Event η)) :
    Asks (Entries.keys (Entries.insertNew p.text Owed.subscribe registry.pending)) state.2
      (registry.subscribed (link.passed η linked) p handler state).2.2 := by
  cases linked with
  | false => exact .refl
  | true =>
      simp only [subscribed, Link.passed, if_true]
      split
      · exact .refl
      · exact (Link.flushes_flush _ _ state).asks

theorem Registry.asks_told (link : Link σ) (linked : Bool) (text : String)
    (registry : Registry η) (state : σ × List (Event η)) :
    Asks [text] state.2 (registry.told (link.passed η linked) text state).2 := by
  cases linked with
  | false => exact .refl
  | true =>
      simp only [told, Link.passed, if_true]
      split
      · exact .ask List.mem_cons_self .refl
      · exact .refl

theorem Registry.asks_flushPending (link : Link σ) (registry : Registry η)
    (state : σ × List (Event η)) :
    Asks (Entries.keys registry.pending) state.2
      (registry.flushPending (link.recorded η) state).2.2.2 :=
  (Link.flushes_flush _ _ state).asks

theorem Registry.asks_replayAll (link : Link σ) (registry : Registry η)
    (state : σ × List (Event η)) :
    Asks (Entries.keys registry.patterns) state.2
      (registry.replayAll (link.recorded η) state).2.2.2 := by
  have hasks := (Link.flushes_flush (link.recorded η)
    (registry.patterns.map fun entry => (entry.1, Owed.resubscribe)) state).asks
  rw [Entries.keys_map] at hasks
  exact hasks

namespace World

variable {link : Link σ} {react : η → Call → Reaction η σ} {depth : Nat}

theorem perform_subscribe_empty (handler : η) (linked : Bool) (world : World η σ) :
    World.perform link react depth (.subscribe "" handler linked) world =
      some (.rejected (.invalidPattern .empty), world) := by
  cases depth <;> rfl

theorem perform_subscribe_pattern (p : Pattern) (handler : η) (linked : Bool)
    (world : World η σ) :
    World.perform link react depth (.subscribe p.text handler linked) world =
      let done := world.registry.subscribed (link.passed η linked) p handler
        (world.link, world.log)
      some (.registered ⟨world.registry.nextId⟩, world.settle done.1 done.2) := by
  cases depth <;> simp [World.perform, Link.passed, Registry.subscribe_pattern]

theorem perform_unsubscribe_unknown {text : String} {world : World η σ}
    (h : Entries.get? text world.registry.patterns = none) (linked : Bool) :
    World.perform link react depth (.unsubscribe text linked) world =
      some (.removed false, world) := by
  cases depth <;> simp [World.perform, Registry.unsubscribe_unknown _ h, settle]

theorem perform_unsubscribe_known {text : String} {world : World η σ} {p : Pattern}
    (h : Entries.get? text world.registry.patterns = some p) (linked : Bool) :
    World.perform link react depth (.unsubscribe text linked) world =
      some (.removed true, world.settle (world.registry.forget p)
        (world.registry.told (link.passed η linked) text (world.link, world.log))) := by
  cases depth <;> simp [World.perform, Registry.unsubscribe_known _ h, Link.passed]

theorem perform_replay (world : World η σ) :
    World.perform link react depth .replay world =
      let done := world.registry.replayAll (link.recorded η) (world.link, world.log)
      some (.count done.1, world.settle done.2.1 done.2.2) := by
  cases depth <;> rfl

theorem perform_flush (world : World η σ) :
    World.perform link react depth .flush world =
      let done := world.registry.flushPending (link.recorded η) (world.link, world.log)
      some (.count done.1, world.settle done.2.1 done.2.2) := by
  cases depth <;> rfl

theorem perform_clear (world : World η σ) :
    World.perform link react depth .clear world =
      some (.done, { world with registry := world.registry.clearBroker }) := by
  cases depth <;> rfl

theorem perform_tune (change : σ → σ) (world : World η σ) :
    World.perform link react depth (.tune change) world =
      some (.done, { world with link := change world.link }) := by
  cases depth <;> rfl

theorem perform_query (text : String) (world : World η σ) :
    World.perform link react depth (.query text) world =
      some (.status (world.registry.isSubscribed text) (world.registry.isOnBroker text)
        (world.registry.handlerCount text), world) := by
  cases depth <;> rfl

theorem perform_dispatch (topic : String) (payload : Bytes) (world : World η σ) :
    World.perform link react (depth + 1) (.dispatch topic payload) world =
      (deliver react (World.perform link react depth) topic payload
        (world.registry.recipients topic) world).map
          fun after => (.count (world.registry.recipients topic).length, after) := by
  rw [World.perform]
  cases deliver react (World.perform link react depth) topic payload
    (world.registry.recipients topic) world <;> rfl

end World

/-! ## Runs -/

/-- Performs steps one after the other, each with its own link; the answers in order. -/
def World.performEach (react : η → Call → Reaction η σ) (depth : Nat) :
    List (Link σ × Step η σ) → World η σ → Option (List Answer × World η σ)
  | [], world => some ([], world)
  | (link, step) :: uses, world => do
    let (answer, next) ← World.perform link react depth step world
    let (answers, last) ← performEach react depth uses next
    some (answer :: answers, last)

theorem World.performEach_cons_eq_some {react : η → Call → Reaction η σ} {depth : Nat}
    {link : Link σ} {step : Step η σ} {uses : List (Link σ × Step η σ)}
    {world next last : World η σ} {answer : Answer} {answers : List Answer}
    (hstep : World.perform link react depth step world = some (answer, next))
    (hrest : World.performEach react depth uses next = some (answers, last)) :
    World.performEach react depth ((link, step) :: uses) world =
      some (answer :: answers, last) := by
  simp [World.performEach, hstep, hrest]

theorem World.performEach_append_eq_some {react : η → Call → Reaction η σ} {depth : Nat}
    {uses more : List (Link σ × Step η σ)} {world next last : World η σ}
    {answers rest : List Answer}
    (hrun : World.performEach react depth uses world = some (answers, next))
    (hrest : World.performEach react depth more next = some (rest, last)) :
    World.performEach react depth (uses ++ more) world = some (answers ++ rest, last) := by
  induction uses generalizing world answers with
  | nil =>
      obtain ⟨rfl, rfl⟩ := Prod.mk.inj (Option.some.inj hrun)
      exact hrest
  | cons use uses ih =>
      obtain ⟨first, hfirst, hrun⟩ := Option.bind_eq_some_iff.mp hrun
      obtain ⟨after, hafter, hrun⟩ := Option.bind_eq_some_iff.mp hrun
      obtain ⟨rfl, rfl⟩ := Prod.mk.inj (Option.some.inj hrun)
      exact performEach_cons_eq_some hfirst (ih hafter)

/-- What every allowed use keeps, a run of allowed uses keeps. -/
theorem World.exists_performEach {react : η → Call → Reaction η σ} {depth : Nat}
    (Kept : World η σ → Prop) (Allowed : Link σ → Step η σ → Prop)
    (hkeeps : ∀ link step world, Allowed link step → Kept world →
      ∃ answer next, World.perform link react depth step world = some (answer, next) ∧ Kept next)
    {uses : List (Link σ × Step η σ)} (hallowed : ∀ use ∈ uses, Allowed use.1 use.2)
    {world : World η σ} (hkept : Kept world) :
    ∃ answers last, World.performEach react depth uses world = some (answers, last) ∧
      Kept last := by
  induction uses generalizing world with
  | nil => exact ⟨[], world, rfl, hkept⟩
  | cons use uses ih =>
      obtain ⟨link, step⟩ := use
      have hstep : Allowed link step := hallowed _ List.mem_cons_self
      obtain ⟨answer, next, hperform, hnext⟩ := hkeeps link step world hstep hkept
      obtain ⟨answers, last, hrest, hlast⟩ :=
        ih (fun use hu => hallowed use (List.mem_cons_of_mem _ hu)) hnext
      exact ⟨_, last, performEach_cons_eq_some hperform hrest, hlast⟩

/-- Handlers that leave the registry alone; a call may still fail. -/
def quiet (fails : η → Call → Bool) : η → Call → Reaction η σ :=
  fun handler call => ⟨[], fails handler call⟩

/-- Delivery to quiet handlers calls the recipients, in order, and changes no more. -/
theorem World.exists_deliver_quiet (fails : η → Call → Bool)
    (perform : Step η σ → World η σ → Option (Answer × World η σ)) (topic : String)
    (payload : Bytes) (recipients : List (Registration η)) (world : World η σ) :
    ∃ after, deliver (quiet fails) perform topic payload recipients world = some after ∧
      after.registry = world.registry ∧ after.link = world.link ∧
      after.calls = world.calls ++ recipients.map fun r => (r.handler, topic, payload) := by
  induction recipients generalizing world with
  | nil => exact ⟨world, rfl, rfl, rfl, by simp⟩
  | cons r rest ih =>
      let called := (world.countRun r.id).note (.called r.handler topic payload)
      let ended := if fails r.handler ⟨r.id, topic, payload, world.runs r.id⟩
        then called.note (.failed r.handler) else called
      obtain ⟨after, hafter, hregistry, hlink, hcalls⟩ := ih ended
      refine ⟨after, ?_, ?_, ?_, ?_⟩
      · exact hafter
      · rw [hregistry]
        dsimp only [ended]
        split <;> rfl
      · rw [hlink]
        dsimp only [ended]
        split <;> rfl
      · have hcalled : called.calls = world.calls ++ [(r.handler, topic, payload)] :=
          calls_note _ _
        have hended : ended.calls = called.calls := by
          dsimp only [ended]
          split
          · rw [calls_note]
            exact List.append_nil _
          · rfl
        rw [hcalls, hended, hcalled]
        simp

end ThingHub
