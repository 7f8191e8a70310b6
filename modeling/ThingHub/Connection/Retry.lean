import ThingHub.Connection.Delay
import ThingHub.Connection.Error

/-! Attempts to connect, one after the other, until one succeeds or the time is up. -/

namespace ThingHub

/-- One attempt: how long it took and how it ended. -/
structure Attempt where
  took : Duration
  outcome : Except ConnectError Unit

/-- How a series of attempts ends. -/
inductive Series
  | connected (attempts : Nat) (elapsed : Duration)
  | gaveUp (reason : ConnectError) (attempts : Nat) (elapsed : Duration)
  /-- The attempts looked at are used up and the series goes on. -/
  | unfinished (attempts : Nat) (elapsed : Duration)

/-- Looks at no more than `turns` attempts, the first of them numbered `attempt`. After
a failure the series goes on if the wait for the next attempt ends within the window;
an empty window is no limit. -/
def retry (window : Duration) (attempts : Nat → Attempt) :
    (turns attempt : Nat) → (elapsed : Duration) → Series
  | 0, attempt, elapsed => .unfinished (attempt - 1) elapsed
  | turns + 1, attempt, elapsed =>
    let tried := attempts attempt
    let elapsed := elapsed.add tried.took
    match tried.outcome with
    | .ok () => .connected attempt elapsed
    | .error reason =>
      let next := elapsed.add (connectRetryDelay attempt)
      if window ≠ .zero ∧ window < next then .gaveUp reason attempt elapsed
      else retry window attempts turns (attempt + 1) next

/-- Every failure is followed by a second or more, so a window holds no more attempts
than it has seconds, and one. -/
def mostAttempts (window : Duration) : Nat := window.secs + 1

/-- Attempts at a broker that cannot be reached fail at once. -/
def unreachable (_ : Nat) : Attempt := ⟨.zero, .error .network⟩

end ThingHub
