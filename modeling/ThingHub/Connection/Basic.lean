import ThingHub.Connection.Channel
import ThingHub.Connection.ClientId
import ThingHub.Connection.Retry
import ThingHub.Connection.State
import ThingHub.Credential.Basic
import ThingHub.Registry.Basic

/-! The one connection of a client. Registrations belong to the client and outlive any
session; a session begins with a connect and ends with a close. Connecting and closing
are made of small steps, since calls on one connection may overlap between them. How long a
close waits for the loop, and what it sends meanwhile, is not part of the model. -/

namespace ThingHub

/-- The life of a connection between connect and close. -/
structure Session where
  generation : Nat
  /-- The loop that drives the connection runs. -/
  running : Bool
  deriving DecidableEq, Repr

structure Connection (η : Type) where
  settings : ConnectionSettings
  registry : Registry η
  state : StateTracker
  /-- The name at the broker, of the latest connect. -/
  clientId : Option String
  /-- There is a queue to send requests to. -/
  hasClient : Bool
  session : Option Session
  /-- The number of the latest session. -/
  generation : Nat

namespace Connection

variable {η σ : Type}

def new (settings : ConnectionSettings) : Connection η :=
  ⟨settings, .empty, .new, none, false, none, 0⟩

def setState (state : ConnectionState) (c : Connection η) : Connection η :=
  { c with state := c.state.set state }

def isConnected (c : Connection η) : Bool := c.state.isConnected

/-- Requests can be sent. -/
def isUsable (c : Connection η) : Bool := c.isConnected && c.hasClient

/-- The link for requests, while there is a connection. -/
def link? (link : Link σ) (c : Connection η) : Option (Link σ) :=
  if c.isUsable then some link else none

/-! Closing. -/

/-- Takes the session away. -/
def takeSession (c : Connection η) : Option Session × Connection η :=
  (c.session, { c with session := none, hasClient := false })

/-- The loop of a session comes to its end. -/
def endLoop (session : Session) (c : Connection η) : Connection η :=
  if session.running then c.setState .disconnected else c

def clearBroker (c : Connection η) : Connection η :=
  { c with registry := c.registry.clearBroker }

/-- Ends the connection. Registrations stay; without a session nothing happens. -/
def close (c : Connection η) : Connection η :=
  match c.takeSession with
  | (none, c) => c
  | (some session, c) => ((c.endLoop session).clearBroker).setState .disconnected

/-! Connecting. -/

/-- Begins a new session under a name, in place of one that an overlapping connect may
have left. The number of the session comes first. -/
def install (clientId : String) (c : Connection η) : Nat × Connection η :=
  let generation := c.generation + 1
  (generation,
    { c with
      clientId := some clientId
      hasClient := true
      session := some ⟨generation, false⟩
      generation := generation })

def owns (generation : Nat) (c : Connection η) : Bool :=
  c.session.any (·.generation == generation)

/-- Drops a session that never came about, unless another one took its place. -/
def abandon (generation : Nat) (c : Connection η) : Connection η :=
  if c.owns generation then
    { c with session := none, hasClient := false }.setState .disconnected
  else c

/-- The broker accepted: the session is connected and its loop runs, unless another
session took its place. -/
def confirm (generation : Nat) (c : Connection η) : Except ConnectError (Connection η) :=
  if c.owns generation then
    .ok ({ c with session := some ⟨generation, true⟩ }.setState .connected)
  else .error .cancelled

def replayAll (link : Link σ) (c : Connection η) (s : σ) : Connection η × σ :=
  let (_, registry, s) := c.registry.replayAll link s
  ({ c with registry := registry }, s)

/-- What a connect leads to. -/
inductive Connected (η σ : Type)
  | settled (result : Except ConnectError Unit) (connection : Connection η) (link : σ)
  /-- The attempts looked at are used up before the connect comes to an end. -/
  | unfinished

/-- Closes what is open, then tries to connect for as long as the window allows. The
transport is settled before anything is tried. -/
def connect (link : Link σ) (folder : Folder) (host : String) (millis turns : Nat)
    (attempts : Nat → Attempt) (credential : Credential) (window : Duration)
    (c : Connection η) (s : σ) : Connected η σ :=
  let c := c.close
  match credential.transport folder c.settings with
  | .error reason => .settled (.error (.credential reason)) c s
  | .ok _ =>
    let (generation, c) := c.install (ThingHub.clientId host credential.identity millis)
    let c := c.setState .connecting
    match retry window attempts turns 1 .zero with
    | .unfinished _ _ => .unfinished
    | .gaveUp reason _ _ => .settled (.error reason) (c.abandon generation) s
    | .connected _ _ =>
      match c.confirm generation with
      | .error reason => .settled (.error reason) c s
      | .ok c =>
        let (c, s) := c.replayAll link s
        .settled (.ok ()) c s

/-! Use. -/

/-- Registers a handler. While connected the broker hears of it at once, otherwise with
the next connect. -/
def subscribe (link : Link σ) (pattern : String) (handler : η) (c : Connection η) (s : σ) :
    Except SubscriptionError (HandlerId × Connection η × σ) :=
  match c.registry.subscribe (c.link? link) pattern handler s with
  | .error reason => .error reason
  | .ok (id, registry, s) => .ok (id, { c with registry := registry }, s)

/-- Removes every handler of a pattern. -/
def unsubscribe (link : Link σ) (pattern : String) (c : Connection η) (s : σ) :
    Bool × Connection η × σ :=
  let (found, registry, s) := c.registry.unsubscribe (c.link? link) pattern s
  (found, { c with registry := registry }, s)

/-- Sends a message, waiting for room in the queue. Without a connection it fails at
once; nothing is kept for later. -/
def publish (topic : String) (payload : Bytes) (c : Connection η) (channel : Channel) :
    Except PublishError Channel :=
  if c.isUsable then .ok { channel with waiting := channel.waiting ++ [.publish topic payload] }
  else .error .notConnected

/-- Sends a message without waiting, for use inside a handler. -/
def tryPublish (topic : String) (payload : Bytes) (c : Connection η) (channel : Channel) :
    Except PublishError Channel :=
  if c.isUsable then
    if Channel.isConcrete topic then
      match channel.offer (.publish topic payload) with
      | (true, channel) => .ok channel
      | (false, _) => .error .client
    else .error .client
  else .error .notConnected

end Connection

end ThingHub
