/-! The broker side of subscriptions: requests, and a link that takes or refuses each. -/

namespace ThingHub

/-- A request to the broker about one pattern. -/
inductive Request
  | subscribe (pattern : String)
  | unsubscribe (pattern : String)
  deriving DecidableEq, Repr

/-- A link answers each request at once, by its own state: it takes the request or
refuses it, for instance because its queue is full. -/
structure Link (σ : Type) where
  ask : Request → σ → Bool × σ

end ThingHub
