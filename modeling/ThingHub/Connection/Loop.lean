import ThingHub.Connection.Basic

/-! The loop that drives a connection. It looks at what the network brings, one piece at
a time; after a failure it waits and connects again, and every accepted connect puts
the registrations back onto the broker. -/

namespace ThingHub

/-- What the network brings. -/
inductive Polled
  | message (topic : String) (payload : Bytes)
  /-- The broker answers a connect. -/
  | answered (code : ReturnCode)
  | disconnectSent
  | other
  | failed
  deriving DecidableEq, Repr

/-- The loop goes on with so many failures in a row, or it is over. -/
inductive LoopState
  | running (failures : Nat)
  | over
  deriving DecidableEq, Repr

namespace Connection

variable {η σ : Type}

def flushPending (link : Link σ) (c : Connection η) (s : σ) : Connection η × σ :=
  let (_, registry, s) := c.registry.flushPending link s
  ({ c with registry := registry }, s)

/-- The connection is lost: the broker's session is forgotten. -/
def lose (c : Connection η) : Connection η :=
  (c.setState .disconnected).clearBroker

/-- The wait after so many failures in a row. -/
def reconnectWait (failures : Nat) (c : Connection η) : Duration :=
  reconnectDelay failures c.settings.maxReconnectInterval

/-- One turn of the loop. Delivering a message is left to `deliver`, since handlers may
use the connection. A failure ends the loop if the session is to stop, also while it
waits before it connects again. -/
def turn (link : Link σ)
    (deliver : String → Bytes → Connection η → σ → Connection η × σ)
    (stopping stoppedWaiting : Bool) (polled : Polled) (failures : Nat)
    (c : Connection η) (s : σ) : LoopState × Connection η × σ :=
  match polled with
  | .message topic payload =>
    let (c, s) := deliver topic payload c s
    let (c, s) := c.flushPending link s
    (.running 0, c, s)
  | .answered .success =>
    let (c, s) := (c.setState .connected).replayAll link s
    let (c, s) := c.flushPending link s
    (.running 0, c, s)
  | .answered _ =>
    let (c, s) := c.flushPending link s
    (.running 0, c, s)
  | .other =>
    let (c, s) := c.flushPending link s
    (.running failures, c, s)
  | .disconnectSent => (.over, c.setState .disconnected, s)
  | .failed =>
    if stopping then (.over, c.setState .disconnected, s)
    else
      let c := c.lose
      if stoppedWaiting then (.over, c.setState .disconnected, s)
      else (.running (failures + 1), c.setState .connecting, s)

end Connection

end ThingHub
