import ThingHub.Message.Basic
import ThingHub.Topic.Thing

/-! What reaches an application when a message arrives. A subscription takes the thing
from the topic, reads the payload as it needs it, and stays silent about a message
that it cannot read. -/

namespace ThingHub

/-- How an application listens: to whole documents of a kind, to each requested action,
to every kind of message unread, or to a topic as it is. -/
inductive Subscription
  | typed (kind : Kind)
  | actions
  | catchAll
  | raw
  deriving DecidableEq, Repr

/-- One call to an application. -/
inductive Delivery
  | document (thing : String) (message : Message)
  | action (thing : String) (request : ActionRequest)
  | unread (thing kind : String) (payload : Bytes)
  | raw (topic : String) (payload : Bytes)

/-- The calls that a message leads to, in order. -/
def Subscription.deliver (subscription : Subscription) (topic : String) (payload : Bytes) :
    List Delivery :=
  match subscription, Thing.splitTopic? topic with
  | .raw, _ => [.raw topic payload]
  | _, none => []
  | .typed kind, some (thing, _) =>
    match Message.decode kind payload with
    | .ok message => [.document thing message]
    | .error _ => []
  | .actions, some (thing, _) =>
    match Message.decode .action payload with
    | .ok message => message.requests.map (.action thing)
    | .error _ => []
  | .catchAll, some (thing, kind) => [.unread thing kind payload]

end ThingHub
