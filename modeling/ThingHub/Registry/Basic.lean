import ThingHub.Registry.Link
import ThingHub.Topic.Tree

/-! The logical subscriptions of a client, by exact pattern text. Registrations outlive
any broker session; a replay puts them back onto the broker after every connect, and
what the link refuses stays owed until a later flush gets it through. -/

namespace ThingHub

/-- The number of a registration, counted from zero. -/
structure HandlerId where
  index : Nat
  deriving DecidableEq, Repr

def HandlerId.text (id : HandlerId) : String :=
  "HandlerId(" ++ id.index.repr ++ ")"

/-- Why a subscription is not taken. -/
inductive SubscriptionError
  | invalidPattern (reason : PatternError)
  deriving DecidableEq, Repr

def SubscriptionError.message : SubscriptionError → String
  | .invalidPattern reason => "Invalid subscription pattern: " ++ reason.message

structure Registration (η : Type) where
  id : HandlerId
  handler : η

/-- What the current broker session is still owed for a pattern. -/
inductive Owed
  /-- An unsubscribe request, then a subscribe request. -/
  | resubscribe
  | subscribe
  deriving DecidableEq, Repr

structure Registry (η : Type) where
  tree : Tree (Registration η)
  patterns : Entries Pattern
  /-- Patterns that the current broker session is known to carry. -/
  onBroker : List String
  /-- Requests that the link refused so far, in pattern order. -/
  pending : Entries Owed
  nextId : Nat

/-- What a flush leaves behind: the patterns that went through, the ones still owed,
and the state of the link. -/
structure Flushed (σ : Type) where
  sent : List String
  owed : Entries Owed
  link : σ

/-- Sends what is owed, in order, until the link refuses a request. A pattern whose
unsubscribe went through and whose subscribe did not owes the subscribe only. -/
def Link.flush {σ : Type} (link : Link σ) : Entries Owed → σ → Flushed σ
  | [], s => ⟨[], [], s⟩
  | (pattern, owed) :: rest, s =>
    let cleared : Bool × σ := match owed with
      | .resubscribe => link.ask (.unsubscribe pattern) s
      | .subscribe => (true, s)
    if cleared.1 then
      let taken := link.ask (.subscribe pattern) cleared.2
      if taken.1 then
        let after := flush link rest taken.2
        { after with sent := pattern :: after.sent }
      else ⟨[], (pattern, .subscribe) :: rest, taken.2⟩
    else ⟨[], (pattern, owed) :: rest, cleared.2⟩

namespace Registry

variable {η σ : Type}

def empty : Registry η := ⟨.empty, [], [], [], 0⟩

/-- Sends what is owed and books what went through. The count is that of patterns. -/
def flush (link : Link σ) (registry : Registry η) (s : σ) : Nat × Registry η × σ :=
  let done := link.flush registry.pending s
  (done.sent.length,
    { registry with
      onBroker := done.sent.foldl (fun carried pattern => carried.insert pattern) registry.onBroker
      pending := done.owed },
    done.link)

/-- Adds a registration to the table, without a word to the broker. -/
def register (pattern : Pattern) (handler : η) (registry : Registry η) : Registry η :=
  { registry with
    tree := registry.tree.alter (· ++ [⟨⟨registry.nextId⟩, handler⟩]) pattern.segments
    patterns := Entries.insertNew pattern.text pattern registry.patterns
    nextId := registry.nextId + 1 }

/-- Registers a handler. With a link, a pattern that the broker does not carry yet is
owed to it from now on, and everything owed is tried. -/
def subscribe (link : Option (Link σ)) (pattern : String) (handler : η)
    (registry : Registry η) (s : σ) : Except SubscriptionError (HandlerId × Registry η × σ) :=
  match Pattern.parse pattern with
  | .error reason => .error (.invalidPattern reason)
  | .ok parsed =>
    let id : HandlerId := ⟨registry.nextId⟩
    let added := registry.register parsed handler
    match link with
    | none => .ok (id, added, s)
    | some link =>
      if pattern ∈ added.onBroker then .ok (id, added, s)
      else
        let owing := { added with pending := Entries.insertNew pattern .subscribe added.pending }
        .ok (id, (owing.flush link s).2)

/-- Forgets every registration of a pattern and what is booked for it. -/
def forget (pattern : Pattern) (registry : Registry η) : Registry η :=
  { registry with
    tree := match registry.tree.update (fun _ => []) pattern.segments with
      | .ok tree => tree
      | .error _ => registry.tree
    patterns := Entries.erase pattern.text registry.patterns
    pending := Entries.erase pattern.text registry.pending
    onBroker := registry.onBroker.filter (· ≠ pattern.text) }

/-- Removes every handler of a pattern; false if there was none. With a link, the
broker is told when it carries the pattern, and its refusal changes nothing. -/
def unsubscribe (link : Option (Link σ)) (pattern : String) (registry : Registry η) (s : σ) :
    Bool × Registry η × σ :=
  match Entries.get? pattern registry.patterns with
  | none => (false, registry, s)
  | some parsed =>
    let s := match link with
      | some link =>
        if pattern ∈ registry.onBroker then (link.ask (.unsubscribe pattern) s).2 else s
      | none => s
    (true, registry.forget parsed, s)

/-- Owes the broker every registered pattern anew, and tries. A stale entry at the
broker never hides a missing one, since each pattern is first unsubscribed. -/
def replayAll (link : Link σ) (registry : Registry η) (s : σ) : Nat × Registry η × σ :=
  flush link
    { registry with
      onBroker := []
      pending := registry.patterns.map fun entry => (entry.1, Owed.resubscribe) }
    s

/-- Tries again what is still owed. -/
def flushPending (link : Link σ) (registry : Registry η) (s : σ) : Nat × Registry η × σ :=
  flush link registry s

/-- Forgets what the broker carries and is owed; registrations stay. -/
def clearBroker (registry : Registry η) : Registry η :=
  { registry with onBroker := [], pending := [] }

/-- The registrations that a message on a topic reaches, in registration order. -/
def recipients (topic : String) (registry : Registry η) : List (Registration η) :=
  (registry.tree.find topic).flatten.mergeSort fun a b => a.id.index ≤ b.id.index

/-- Registered patterns in ascending order. -/
def patternTexts (registry : Registry η) : List String :=
  registry.patterns.keys

def isSubscribed (pattern : String) (registry : Registry η) : Bool :=
  Entries.contains pattern registry.patterns

def isOnBroker (pattern : String) (registry : Registry η) : Bool :=
  registry.onBroker.contains pattern

def pendingCount (registry : Registry η) : Nat :=
  registry.pending.length

def handlerCount (pattern : String) (registry : Registry η) : Nat :=
  match (Entries.get? pattern registry.patterns).bind fun p => registry.tree.slot? p.segments with
  | some slot => slot.length
  | none => 0

end Registry

end ThingHub
