import ThingHub.Data.Bytes
import ThingHub.Registry.Link

/-! The queue between a client and its connection. Requests wait in it until the
connection sends them; it holds only so many. How they leave it is not part of the model, nor
is the goodbye of a close. -/

namespace ThingHub

/-- What a client asks the connection to send. -/
inductive Packet
  | request (request : Request)
  | publish (topic : String) (payload : Bytes)
  deriving DecidableEq, Repr

structure Channel where
  capacity : Nat
  waiting : List Packet
  deriving DecidableEq, Repr

namespace Channel

def new (capacity : Nat) : Channel := ⟨capacity, []⟩

/-- Takes a packet if there is room for it. -/
def offer (packet : Packet) (channel : Channel) : Bool × Channel :=
  if channel.waiting.length < channel.capacity then
    (true, { channel with waiting := channel.waiting ++ [packet] })
  else (false, channel)

/-- Subscriptions go through the same queue as messages. -/
def link : Link Channel where
  ask request channel := channel.offer (.request request)

/-- A message is for one concrete topic. -/
def isConcrete (topic : String) : Bool :=
  topic.toList.all fun c => c ≠ '+' && c ≠ '#'

end Channel

end ThingHub
