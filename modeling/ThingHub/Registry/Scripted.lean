import ThingHub.Registry.Dispatch

/-! Handlers given as data, and a link with limited room, so that a run of a registry
can be written down and repeated. -/

namespace ThingHub

/-- Room for that many more requests, or for any number. -/
abbrev Room := Option Nat

namespace Room

/-- Every request that is taken uses up one place. -/
def link : Link Room where
  ask _ room :=
    match room with
    | none => (true, none)
    | some 0 => (false, some 0)
    | some (n + 1) => (true, some n)

end Room

/-- A handler that performs its steps the first `times` times it runs. -/
inductive Scripted
  | mk (label : String) (fails : Bool) (times : Nat) (steps : List (Step Scripted Room))

namespace Scripted

def label : Scripted → String
  | mk label _ _ _ => label

def react : Scripted → Call → Reaction Scripted Room
  | mk _ fails times steps, call => ⟨if call.run < times then steps else [], fails⟩

mutual

/-- How many runs with steps a handler can cause, by itself and by the handlers that
its steps register. -/
def weight : Scripted → Nat
  | mk _ _ times steps => times * (1 + weightAll steps)

def weightOf : Step Scripted Room → Nat
  | .subscribe _ handler _ => weight handler
  | _ => 0

def weightAll : List (Step Scripted Room) → Nat
  | [] => 0
  | step :: steps => weightOf step + weightAll steps

end

/-- The answer, and all that happened, in order, at every step of a run. Dispatches
nest at most once for each run with steps, so the depth allowed is never used up. -/
def trace (depth : Nat) : List (Step Scripted Room) → World Scripted Room →
    List (Answer × World Scripted Room)
  | [], _ => []
  | step :: steps, world =>
    match World.perform Room.link react depth step { world with log := [] } with
    | none => []
    | some (answer, world) =>
      (answer, { world with log := world.log.reverse }) :: trace depth steps world

/-- Runs steps on a new registry. -/
def runAll (room : Room) (steps : List (Step Scripted Room)) :
    List (Answer × World Scripted Room) :=
  trace (weightAll steps + 1) steps (.start room)

end Scripted

end ThingHub
