import ThingHub.Proofs.Registry.Represents
import ThingHub.Proofs.Registry.Run

/-! # A registry behaves like a plain list of registrations

The ledger accounts for every run of a registry: it explains each answer and each call of
a handler. Which links the steps pass, and what the links answer, makes no difference. -/

namespace ThingHub

variable {η σ : Type}

namespace Ledger

/-! ## Steps on a ledger -/

/-- Only subscribing and unsubscribing change the list. -/
def after (ledger : Ledger η) : Step η σ → Ledger η
  | .subscribe text handler _ =>
    if h : text = "" then ledger else ledger.add ⟨text, h⟩ handler
  | .unsubscribe text _ => ledger.remove text
  | _ => ledger

/-- The answers that a ledger explains. It knows nothing of what the broker carries. -/
def Answers (ledger : Ledger η) : Step η σ → Answer → Prop
  | .subscribe text _ _, answer =>
    answer = if text = "" then .rejected (.invalidPattern .empty)
      else .registered ⟨ledger.nextId⟩
  | .unsubscribe text _, answer => answer = .removed (ledger.holds text)
  | .replay, answer => ∃ n, answer = .count n
  | .flush, answer => ∃ n, answer = .count n
  | .clear, answer => answer = .done
  | .tune _, answer => answer = .done
  | .dispatch topic _, answer => answer = .count (ledger.matching topic).length
  | .query text, answer =>
    ∃ onBroker, answer = .status (ledger.holds text) onBroker (ledger.under text).length

/-- A dispatch calls the matching entries, each once, in the order of the list. -/
def calls (ledger : Ledger η) : Step η σ → List (η × String × Bytes)
  | .dispatch topic payload =>
    (ledger.matching topic).map fun entry => (entry.handler, topic, payload)
  | _ => []

/-- A ledger accounts for the answers to a run of steps and for the calls made in it,
and becomes another ledger on the way. -/
inductive Accounts : Ledger η → List (Step η σ) → List Answer →
    List (η × String × Bytes) → Ledger η → Prop
  | nil (ledger : Ledger η) : Accounts ledger [] [] [] ledger
  | cons {ledger last : Ledger η} {step : Step η σ} {steps : List (Step η σ)}
      {answer : Answer} {answers : List Answer} {more : List (η × String × Bytes)} :
      ledger.Answers step answer → Accounts (ledger.after step) steps answers more last →
      Accounts ledger (step :: steps) (answer :: answers) (ledger.calls step ++ more) last

end Ledger

/-- The number that an answer gives to a new registration. -/
def Answer.registered? : Answer → Option HandlerId
  | .registered id => some id
  | _ => none

/-- A step gives out the next number and moves on to the one behind it, or neither. -/
theorem Ledger.Answers.registered?_eq {ledger : Ledger η} {step : Step η σ} {answer : Answer}
    (h : ledger.Answers step answer) :
    (ledger.after step).nextId = ledger.nextId + 1 ∧
        answer.registered? = some ⟨ledger.nextId⟩ ∨
      (ledger.after step).nextId = ledger.nextId ∧ answer.registered? = none := by
  cases step with
  | subscribe text handler linked =>
      cases h
      by_cases ht : text = ""
      · exact .inr ⟨by simp [after, ht], by simp [ht, Answer.registered?]⟩
      · exact .inl ⟨by simp [after, ht, add], by simp [ht, Answer.registered?]⟩
  | query text =>
      obtain ⟨onBroker, rfl⟩ := h
      exact .inr ⟨rfl, rfl⟩
  | replay =>
      obtain ⟨n, rfl⟩ := h
      exact .inr ⟨rfl, rfl⟩
  | flush =>
      obtain ⟨n, rfl⟩ := h
      exact .inr ⟨rfl, rfl⟩
  | unsubscribe text linked =>
      cases h
      exact .inr ⟨rfl, rfl⟩
  | clear =>
      cases h
      exact .inr ⟨rfl, rfl⟩
  | tune change =>
      cases h
      exact .inr ⟨rfl, rfl⟩
  | dispatch topic payload =>
      cases h
      exact .inr ⟨rfl, rfl⟩

/-- The numbers given out in a run are those from the first free one on, without gaps. -/
theorem Ledger.Accounts.registered_eq {ledger last : Ledger η} {steps : List (Step η σ)}
    {answers : List Answer} {calls : List (η × String × Bytes)}
    (h : Ledger.Accounts ledger steps answers calls last) :
    ∃ n, last.nextId = ledger.nextId + n ∧
      answers.filterMap Answer.registered? = (List.range' ledger.nextId n).map HandlerId.mk := by
  induction h with
  | nil ledger => exact ⟨0, rfl, rfl⟩
  | @cons ledger last step steps answer answers more hanswer _ ih =>
      obtain ⟨n, hn, hids⟩ := ih
      rcases hanswer.registered?_eq with ⟨hnext, hid⟩ | ⟨hnext, hid⟩
      · refine ⟨n + 1, by omega, ?_⟩
        rw [List.filterMap_cons_some hid, List.range'_succ, List.map_cons, ← hnext, hids]
      · refine ⟨n, by omega, ?_⟩
        rw [List.filterMap_cons_none hid, hids, hnext]

/-- All questions about registrations have the ledger's answer. -/
structure Registry.Agrees (ledger : Ledger η) (registry : Registry η) : Prop where
  isSubscribed : ∀ text, registry.isSubscribed text = ledger.holds text
  handlerCount : ∀ text, registry.handlerCount text = (ledger.under text).length
  patternTexts : registry.patternTexts = ledger.patternTexts
  recipients : ∀ topic, registry.recipients topic =
    (ledger.matching topic).map Entry.registration

theorem Registry.Represents.agrees {ledger : Ledger η} {registry : Registry η}
    (h : Represents ledger registry) : Agrees ledger registry :=
  ⟨h.isSubscribed_eq, h.handlerCount_eq, h.patternTexts_eq, h.recipients_eq⟩

/-! ## Registries that operations reach -/

theorem Registry.Represents.subscribed {ledger : Ledger η} {registry : Registry η}
    (h : Represents ledger registry) (link : Option (Link σ)) (p : Pattern) (handler : η) (s : σ) :
    Represents (ledger.add p handler) (registry.subscribed link p handler s).1 :=
  (h.register p handler).of_table_eq (subscribed_tree link p handler registry s)
    (subscribed_patterns link p handler registry s) (subscribed_nextId link p handler registry s)

theorem Registry.Represents.unsubscribe {ledger : Ledger η} {registry : Registry η}
    (h : Represents ledger registry) (link : Option (Link σ)) (text : String) (s : σ) :
    Represents (ledger.remove text) (registry.unsubscribe link text s).2.1 := by
  cases ht : ledger.holds text with
  | false =>
      rw [unsubscribe_unknown link (h.get?_patterns_eq_none ht), Ledger.remove_eq_self ht]
      exact h
  | true =>
      obtain ⟨p, rfl, hget⟩ := h.exists_pattern ht
      rw [unsubscribe_known link hget]
      exact h.forget ht

theorem Registry.Reachable.exists_represents {registry : Registry η} (h : Reachable registry) :
    ∃ ledger, Represents ledger registry := by
  induction h with
  | empty => exact ⟨_, represents_empty⟩
  | @subscribe σ registry after link text handler s s' id _ hs ih =>
      obtain ⟨ledger, hledger⟩ := ih
      rcases eq_empty_or_exists_pattern text with rfl | ⟨p, rfl⟩
      · rw [subscribe_empty] at hs
        cases hs
      · rw [subscribe_pattern] at hs
        obtain ⟨-, hafter⟩ := Prod.mk.inj (Except.ok.inj hs)
        have hadded := hledger.subscribed link p handler s
        rw [hafter] at hadded
        exact ⟨_, hadded⟩
  | unsubscribe link text s _ ih =>
      obtain ⟨ledger, hledger⟩ := ih
      exact ⟨_, hledger.unsubscribe link text s⟩
  | replayAll link s _ ih =>
      obtain ⟨ledger, hledger⟩ := ih
      exact ⟨ledger, hledger.of_table_eq rfl rfl rfl⟩
  | flushPending link s _ ih =>
      obtain ⟨ledger, hledger⟩ := ih
      exact ⟨ledger, hledger.flush link s⟩
  | clearBroker _ ih =>
      obtain ⟨ledger, hledger⟩ := ih
      exact ⟨ledger, hledger.of_table_eq rfl rfl rfl⟩

namespace World

/-! ## One step -/

/-- What a step does to a world whose registry represents a ledger: the ledger explains
the answer and the calls, and the registry represents the next ledger. -/
def Follows (ledger : Ledger η) (step : Step η σ) (world : World η σ) (answer : Answer)
    (next : World η σ) : Prop :=
  ledger.Answers step answer ∧ Registry.Represents (ledger.after step) next.registry ∧
    next.calls = world.calls ++ ledger.calls step

variable {link : Link σ} {react : η → Call → Reaction η σ} {depth : Nat}
  {ledger : Ledger η} {world : World η σ}

theorem calls_settle {patterns : List String} {registry : Registry η}
    {state : σ × List (Event η)} (h : Asks patterns world.log state.2) :
    (world.settle registry state).calls = world.calls := by
  simp only [calls, settle, h.filterMap_call?_eq]

theorem perform_subscribe_follows (h : Registry.Represents ledger world.registry)
    (text : String) (handler : η) (linked : Bool) :
    ∃ answer next, World.perform link react depth (.subscribe text handler linked) world =
        some (answer, next) ∧
      Follows ledger (.subscribe text handler linked) world answer next := by
  rcases Registry.eq_empty_or_exists_pattern text with rfl | ⟨p, rfl⟩
  · refine ⟨_, _, perform_subscribe_empty handler linked world, ?_, ?_, ?_⟩
    · simp [Ledger.Answers]
    · simpa [Ledger.after] using h
    · simp [Ledger.calls]
  · refine ⟨_, _, perform_subscribe_pattern p handler linked world, ?_, ?_, ?_⟩
    · simp [Ledger.Answers, p.ne_empty, h.nextId]
    · have hafter : ledger.after (.subscribe p.text handler linked : Step η σ) =
          ledger.add p handler := dif_neg p.ne_empty
      rw [hafter]
      exact h.subscribed _ p handler _
    · rw [calls_settle (Registry.asks_subscribed link linked p handler _ (world.link, world.log))]
      simp [Ledger.calls]

theorem perform_unsubscribe_follows (h : Registry.Represents ledger world.registry)
    (text : String) (linked : Bool) :
    ∃ answer next, World.perform link react depth (.unsubscribe text linked) world =
        some (answer, next) ∧
      Follows ledger (.unsubscribe text linked) world answer next := by
  cases ht : ledger.holds text with
  | false =>
      have hget := h.get?_patterns_eq_none ht
      refine ⟨_, _, perform_unsubscribe_unknown hget linked, ?_, ?_, ?_⟩
      · simp [Ledger.Answers, ht]
      · rw [Ledger.after, Ledger.remove_eq_self ht]
        exact h
      · simp [Ledger.calls]
  | true =>
      obtain ⟨p, rfl, hget⟩ := h.exists_pattern ht
      refine ⟨_, _, perform_unsubscribe_known hget linked, ?_, ?_, ?_⟩
      · simp [Ledger.Answers, ht]
      · exact h.forget ht
      · rw [calls_settle (Registry.asks_told link linked p.text _ (world.link, world.log))]
        simp [Ledger.calls]

theorem perform_dispatch_follows (h : Registry.Represents ledger world.registry)
    (fails : η → Call → Bool) (topic : String) (payload : Bytes) :
    ∃ answer next, World.perform link (quiet fails) (depth + 1) (.dispatch topic payload) world =
        some (answer, next) ∧
      Follows ledger (.dispatch topic payload) world answer next := by
  obtain ⟨next, hnext, hregistry, -, hcalls⟩ := exists_deliver_quiet fails
    (World.perform link (quiet fails) depth) topic payload (world.registry.recipients topic) world
  refine ⟨_, next, by rw [perform_dispatch, hnext]; rfl, ?_, ?_, ?_⟩
  · simp [Ledger.Answers, h.recipients_eq]
  · rw [hregistry]
    exact h
  · rw [hcalls, h.recipients_eq, List.map_map]
    rfl

/-- Whatever the handlers do, a ledger explains the steps that call none of them. -/
theorem perform_follows_of_ne_dispatch (h : Registry.Represents ledger world.registry)
    (link : Link σ) (react : η → Call → Reaction η σ) (depth : Nat) {step : Step η σ}
    (hstep : ∀ topic payload, step ≠ .dispatch topic payload) :
    ∃ answer next, World.perform link react depth step world = some (answer, next) ∧
      Follows ledger step world answer next := by
  cases step with
  | subscribe text handler linked => exact perform_subscribe_follows h text handler linked
  | unsubscribe text linked => exact perform_unsubscribe_follows h text linked
  | replay =>
      refine ⟨_, _, perform_replay world, ⟨_, rfl⟩, h.of_table_eq rfl rfl rfl, ?_⟩
      rw [calls_settle (Registry.asks_replayAll link _ (world.link, world.log))]
      simp [Ledger.calls]
  | flush =>
      refine ⟨_, _, perform_flush world, ⟨_, rfl⟩, h.flush _ _, ?_⟩
      rw [calls_settle (Registry.asks_flushPending link _ (world.link, world.log))]
      simp [Ledger.calls]
  | clear =>
      refine ⟨_, _, perform_clear world, rfl, h.of_table_eq rfl rfl rfl, ?_⟩
      simp [Ledger.calls, World.calls]
  | tune change =>
      refine ⟨_, _, perform_tune change world, rfl, h, ?_⟩
      simp [Ledger.calls, World.calls]
  | dispatch topic payload => exact absurd rfl (hstep topic payload)
  | query text =>
      refine ⟨_, _, perform_query text world, ⟨world.registry.isOnBroker text, ?_⟩, h, ?_⟩
      · rw [h.isSubscribed_eq, h.handlerCount_eq]
      · simp [Ledger.calls]

/-- Whatever the step and the link, the ledger explains what happens. -/
theorem perform_follows (h : Registry.Represents ledger world.registry)
    (fails : η → Call → Bool) (depth : Nat) (link : Link σ) (step : Step η σ) :
    ∃ answer next, World.perform link (quiet fails) (depth + 1) step world =
        some (answer, next) ∧ Follows ledger step world answer next := by
  rcases step.eq_dispatch_or with ⟨topic, payload, rfl⟩ | hstep
  · exact perform_dispatch_follows h fails topic payload
  · exact perform_follows_of_ne_dispatch h link _ _ hstep

/-! ## Runs -/

/-- A run from a world whose registry represents a ledger is accounted for. -/
theorem performEach_accounts (fails : η → Call → Bool) (depth : Nat)
    (uses : List (Link σ × Step η σ)) (world : World η σ)
    (h : Registry.Represents ledger world.registry) :
    ∃ answers last made after, performEach (quiet fails) (depth + 1) uses world =
        some (answers, last) ∧
      Ledger.Accounts ledger (uses.map Prod.snd) answers made after ∧
      last.calls = world.calls ++ made ∧ Registry.Represents after last.registry := by
  induction uses generalizing ledger world with
  | nil => exact ⟨[], world, [], ledger, rfl, .nil ledger, by simp, h⟩
  | cons use uses ih =>
      obtain ⟨link, step⟩ := use
      obtain ⟨answer, next, hstep, hanswer, hnext, hcalls⟩ :=
        perform_follows h fails depth link step
      obtain ⟨answers, last, made, after, hrest, haccounts, hmore, hlast⟩ := ih next hnext
      refine ⟨answer :: answers, last, ledger.calls step ++ made, after,
        performEach_cons_eq_some hstep hrest, .cons hanswer haccounts, ?_, hlast⟩
      rw [hmore, hcalls, List.append_assoc]

/-- Every run from a new registry, with any links, ends; a ledger that was empty at the
start accounts for all its answers and handler calls, registrations are numbered from
zero, and all questions about the registry have the ledger's answer. -/
theorem performEach_refines_ledger (fails : η → Call → Bool) (depth : Nat)
    (uses : List (Link σ × Step η σ)) (s : σ) :
    ∃ answers world ledger, performEach (quiet fails) (depth + 1) uses (.start s) =
        some (answers, world) ∧
      Ledger.Accounts .empty (uses.map Prod.snd) answers world.calls ledger ∧
      answers.filterMap Answer.registered? =
        (List.range ledger.nextId).map HandlerId.mk ∧
      Registry.Agrees ledger world.registry := by
  obtain ⟨answers, world, made, ledger, hrun, haccounts, hcalls, hrep⟩ :=
    performEach_accounts fails depth uses (.start s) Registry.represents_empty
  have hmade : world.calls = made := hcalls
  refine ⟨answers, world, ledger, hrun, hmade ▸ haccounts, ?_, hrep.agrees⟩
  obtain ⟨n, hn, hids⟩ := haccounts.registered_eq
  have hzero : (Ledger.empty : Ledger η).nextId = 0 := rfl
  rw [hids, hn, hzero, Nat.zero_add, List.range_eq_range']

end World

end ThingHub
