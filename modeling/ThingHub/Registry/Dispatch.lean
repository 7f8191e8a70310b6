import ThingHub.Data.Bytes
import ThingHub.Registry.Basic

/-! Delivery to handlers that use the registry while they run. A dispatch works on the
list of recipients taken when it begins; what handlers do meanwhile changes the registry
and not that list. -/

namespace ThingHub

/-- One use of a registry. The link is passed only where `linked` says so; `tune` lets
the state of the link change on its own. -/
inductive Step (η σ : Type)
  | subscribe (pattern : String) (handler : η) (linked : Bool)
  | unsubscribe (pattern : String) (linked : Bool)
  | replay
  | flush
  | clear
  | tune (change : σ → σ)
  | dispatch (topic : String) (payload : Bytes)
  | query (pattern : String)

instance {η σ : Type} : Inhabited (Step η σ) := ⟨.clear⟩

/-- What a step answers. -/
inductive Answer
  | registered (id : HandlerId)
  | rejected (reason : SubscriptionError)
  | removed (found : Bool)
  | count (n : Nat)
  | status (subscribed onBroker : Bool) (handlers : Nat)
  | done
  deriving DecidableEq, Repr

/-- What happens during a step. -/
inductive Event (η : Type)
  | asked (request : Request) (taken : Bool)
  | called (handler : η) (topic : String) (payload : Bytes)
  /-- A step that a running handler performed has come to its end. -/
  | performed (handler : η) (answer : Answer)
  | failed (handler : η)

/-- One call of a handler: the message, and how often that registration ran before. -/
structure Call where
  id : HandlerId
  topic : String
  payload : Bytes
  run : Nat

/-- What a handler does with a call: steps on the registry, and whether it then fails. -/
structure Reaction (η σ : Type) where
  steps : List (Step η σ)
  fails : Bool

/-- A registry at work, with the state of its link, how often each registration ran,
and what happened so far, the latest first. -/
structure World (η σ : Type) where
  registry : Registry η
  link : σ
  runs : HandlerId → Nat
  log : List (Event η)

/-- The link that also writes down every request and its answer. -/
def Link.recorded {σ : Type} (link : Link σ) (η : Type) : Link (σ × List (Event η)) where
  ask request state :=
    let answer := link.ask request state.1
    (answer.1, answer.2, .asked request answer.1 :: state.2)

namespace World

variable {η σ : Type}

def start (link : σ) : World η σ := ⟨.empty, link, fun _ => 0, []⟩

def note (event : Event η) (world : World η σ) : World η σ :=
  { world with log := event :: world.log }

/-- Takes over the registry and the link that an operation leaves behind. -/
def settle (world : World η σ) (registry : Registry η) (link : σ × List (Event η)) :
    World η σ :=
  { world with registry := registry, link := link.1, log := link.2 }

/-- Books one more run of a registration. -/
def countRun (id : HandlerId) (world : World η σ) : World η σ :=
  { world with runs := fun other => if other = id then world.runs id + 1 else world.runs other }

/-- Performs the steps of a running handler in order. -/
def performAll (perform : Step η σ → World η σ → Option (Answer × World η σ))
    (handler : η) : List (Step η σ) → World η σ → Option (World η σ)
  | [], world => some world
  | step :: steps, world =>
    match perform step world with
    | none => none
    | some (answer, world) =>
      performAll perform handler steps (world.note (.performed handler answer))

/-- Calls the recipients one after the other. A failure ends its own call only. -/
def deliver (react : η → Call → Reaction η σ)
    (perform : Step η σ → World η σ → Option (Answer × World η σ))
    (topic : String) (payload : Bytes) :
    List (Registration η) → World η σ → Option (World η σ)
  | [], world => some world
  | r :: rest, world =>
    let reaction := react r.handler ⟨r.id, topic, payload, world.runs r.id⟩
    let called := (world.countRun r.id).note (.called r.handler topic payload)
    match performAll perform r.handler reaction.steps called with
    | none => none
    | some world =>
      deliver react perform topic payload rest
        (if reaction.fails then world.note (.failed r.handler) else world)

/-- Performs one step, with at most `depth` dispatches inside one another; none if the
handlers nest deeper. -/
def perform (link : Link σ) (react : η → Call → Reaction η σ) :
    (depth : Nat) → Step η σ → World η σ → Option (Answer × World η σ)
  | _, .subscribe pattern handler linked, world =>
    let recorded := if linked then some (link.recorded η) else none
    match world.registry.subscribe recorded pattern handler (world.link, world.log) with
    | .error reason => some (.rejected reason, world)
    | .ok (id, registry, state) => some (.registered id, world.settle registry state)
  | _, .unsubscribe pattern linked, world =>
    let recorded := if linked then some (link.recorded η) else none
    let (found, registry, state) :=
      world.registry.unsubscribe recorded pattern (world.link, world.log)
    some (.removed found, world.settle registry state)
  | _, .replay, world =>
    let (n, registry, state) :=
      world.registry.replayAll (link.recorded η) (world.link, world.log)
    some (.count n, world.settle registry state)
  | _, .flush, world =>
    let (n, registry, state) :=
      world.registry.flushPending (link.recorded η) (world.link, world.log)
    some (.count n, world.settle registry state)
  | _, .clear, world =>
    some (.done, { world with registry := world.registry.clearBroker })
  | _, .tune change, world => some (.done, { world with link := change world.link })
  | _, .query pattern, world =>
    some (.status (world.registry.isSubscribed pattern) (world.registry.isOnBroker pattern)
      (world.registry.handlerCount pattern), world)
  | 0, .dispatch _ _, _ => none
  | depth + 1, .dispatch topic payload, world =>
    let recipients := world.registry.recipients topic
    match deliver react (perform link react depth) topic payload recipients world with
    | none => none
    | some world => some (.count recipients.length, world)

end World

end ThingHub
