import ThingHub.Connection.Watch

/-! The state of a connection, and watchers that are told when it changes. -/

namespace ThingHub

inductive ConnectionState
  | disconnected
  | connecting
  | connected
  deriving DecidableEq, Repr

def ConnectionState.name : ConnectionState → String
  | .disconnected => "disconnected"
  | .connecting => "connecting"
  | .connected => "connected"

/-- The state, in a channel that its watchers receive from. -/
structure StateTracker (χ : Type := Watched ConnectionState) where
  channel : χ
  deriving DecidableEq, Repr

namespace StateTracker

variable {χ : Type} [WatchChannel χ ConnectionState]

def new : StateTracker χ := ⟨WatchChannel.start .disconnected⟩

def current (tracker : StateTracker χ) : ConnectionState := WatchChannel.value tracker.channel

def isConnected (tracker : StateTracker χ) : Bool :=
  tracker.current = .connected

/-- Puts a state in place of the current one. The state that was there already is no change. -/
def replace (state current : ConnectionState) : Bool × ConnectionState :=
  if current = state then (false, current) else (true, state)

theorem replace_fst (state current : ConnectionState) :
    (replace state current).1 = decide (state ≠ current) := by
  by_cases h : current = state
  · simp [replace, h]
  · simp [replace, h, Ne.symm h]

theorem replace_snd (state current : ConnectionState) : (replace state current).2 = state := by
  unfold replace
  split
  · assumption
  · rfl

/-- Records a state. -/
def set (state : ConnectionState) (tracker : StateTracker χ) : StateTracker χ :=
  ⟨WatchChannel.update (replace state) tracker.channel⟩

theorem current_set [LawfulWatchChannel χ ConnectionState] (state : ConnectionState)
    (tracker : StateTracker χ) : (tracker.set state).current = state :=
  (LawfulWatchChannel.value_update _ _).trans (replace_snd state tracker.current)

/-- How many watchers there are. -/
def watchers (tracker : StateTracker χ) : Nat := WatchChannel.receivers tracker.channel

/-- Adds a watcher, which has seen all changes so far. Its number comes first. -/
def watch (tracker : StateTracker χ) : Nat × StateTracker χ :=
  (tracker.watchers, ⟨WatchChannel.join tracker.channel⟩)

/-- Whether the state changed since a watcher looked. -/
def hasChanged (watcher : Nat) (tracker : StateTracker χ) : Bool :=
  watcher < tracker.watchers && WatchChannel.hasChanged watcher tracker.channel

/-- A watcher looks: it has now seen all changes. -/
def take (watcher : Nat) (tracker : StateTracker χ) : StateTracker χ :=
  if watcher < tracker.watchers then ⟨WatchChannel.look watcher tracker.channel⟩ else tracker

end StateTracker

end ThingHub
