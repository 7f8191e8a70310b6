import ThingHub.Time.Duration

/-! How long to wait before trying again. -/

namespace ThingHub

/-- The wait after the first failed attempt to connect, which grows by itself. -/
def connectRetryStep : Duration := .ofSecs 1

def maxConnectRetryDelay : Duration := .ofSecs 120

/-- The wait after the `attempt`-th failed attempt to connect: one second, two seconds
and so on, at most two minutes. -/
def connectRetryDelay (attempt : Nat) : Duration :=
  (connectRetryStep.scale attempt).min maxConnectRetryDelay

def initialReconnectDelay : Duration := .ofMillis 100

/-- How often the wait before a reconnect doubles at most. -/
def maxDoublings : Nat := 16

/-- The wait after the `errors`-th connection error in a row: a tenth of a second,
doubled with every further error, at most `limit`. -/
def reconnectDelay (errors : Nat) (limit : Duration) : Duration :=
  (initialReconnectDelay.scale (Nat.pow 2 (Nat.min (errors - 1) maxDoublings))).min limit

end ThingHub
