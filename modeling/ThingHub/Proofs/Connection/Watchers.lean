import Mathlib.Data.List.Basic
import ThingHub.Connection.State

/-! # What watchers are told

Calls set the state, add watchers, and let watchers look. Whether a watcher is told of a change is
read off the whole history of these calls. The state that it saw last and the state there is now
do not tell: they may be the same with changes in between. -/

namespace ThingHub

namespace StateTracker

variable {χ : Type} [WatchChannel χ ConnectionState] {tracker : StateTracker χ}

/-! ## Calls -/

/-- A call on a tracker, or by one of its watchers. -/
inductive Call
  | set (state : ConnectionState)
  | watch
  | take (watcher : Nat)
  deriving DecidableEq

def perform (call : Call) (tracker : StateTracker χ) : StateTracker χ :=
  match call with
  | .set state => tracker.set state
  | .watch => tracker.watch.2
  | .take watcher => tracker.take watcher

/-- Calls one after the other. -/
def performAll : List Call → StateTracker χ → StateTracker χ
  | [], tracker => tracker
  | call :: calls, tracker => (tracker.perform call).performAll calls

/-! ## Histories -/

def Call.state? : Call → Option ConnectionState
  | set state => some state
  | watch => none
  | take _ => none

/-- The state that was set last. -/
def lastSet (calls : List Call) : ConnectionState :=
  (calls.filterMap Call.state?).getLastD .disconnected

/-- A watcher has missed a change: a state was set that was not the state at that time, the
watcher was there already, and it did not look since. -/
def Missed (watcher : Nat) (calls : List Call) : Prop :=
  ∃ before state after, calls = before ++ .set state :: after ∧
    state ≠ lastSet before ∧ watcher < before.count .watch ∧ .take watcher ∉ after

/-- A tracker is as its history says. -/
structure Follows (calls : List Call) (tracker : StateTracker χ) : Prop where
  current : tracker.current = lastSet calls
  watchers : tracker.watchers = calls.count .watch
  hasChanged (watcher : Nat) : tracker.hasChanged watcher = true ↔ Missed watcher calls

theorem lastSet_concat (calls : List Call) (call : Call) :
    lastSet (calls ++ [call]) = call.state?.getD (lastSet calls) := by
  cases call <;> simp [lastSet, Call.state?]

theorem not_missed_nil (watcher : Nat) : ¬ Missed watcher [] := by
  rintro ⟨before, state, after, hcalls, -⟩
  simp at hcalls

/-- What was missed before one more call is still missed, unless the watcher looks now. And the
call may itself be a change that is missed. -/
theorem missed_concat {watcher : Nat} {calls : List Call} {call : Call} :
    Missed watcher (calls ++ [call]) ↔
      (Missed watcher calls ∧ call ≠ .take watcher) ∨
        ∃ state, call = .set state ∧ state ≠ lastSet calls ∧ watcher < calls.count .watch := by
  constructor
  · rintro ⟨before, state, after, hcalls, hreal, hthere, hunseen⟩
    rcases List.eq_nil_or_concat' after with rfl | ⟨after, last, rfl⟩
    · obtain ⟨rfl, rfl⟩ := List.append_singleton_inj.mp hcalls
      exact .inr ⟨state, rfl, hreal, hthere⟩
    · rw [← List.cons_append, ← List.append_assoc] at hcalls
      obtain ⟨rfl, rfl⟩ := List.append_singleton_inj.mp hcalls
      rw [List.mem_append, List.mem_singleton, not_or] at hunseen
      exact .inl ⟨⟨before, state, after, rfl, hreal, hthere, hunseen.1⟩, Ne.symm hunseen.2⟩
  · rintro (⟨⟨before, state, after, rfl, hreal, hthere, hunseen⟩, hcall⟩ |
      ⟨state, rfl, hreal, hthere⟩)
    · refine ⟨before, state, after ++ [call], by simp, hreal, hthere, ?_⟩
      rw [List.mem_append, List.mem_singleton, not_or]
      exact ⟨hunseen, hcall.symm⟩
    · exact ⟨calls, state, [], rfl, hreal, hthere, List.not_mem_nil⟩

/-! ## One call -/

theorem hasChanged_iff {watcher : Nat} :
    tracker.hasChanged watcher = true ↔
      watcher < tracker.watchers ∧ WatchChannel.hasChanged watcher tracker.channel = true := by
  simp [hasChanged]

theorem lt_watchers_of_hasChanged {watcher : Nat} (h : tracker.hasChanged watcher = true) :
    watcher < tracker.watchers :=
  (hasChanged_iff.mp h).1

theorem take_of_lt {watcher : Nat} (h : watcher < tracker.watchers) :
    tracker.take watcher = ⟨WatchChannel.look watcher tracker.channel⟩ :=
  if_pos h

theorem take_of_not_lt {watcher : Nat} (h : ¬ watcher < tracker.watchers) :
    tracker.take watcher = tracker :=
  if_neg h

variable [LawfulWatchChannel χ ConnectionState] {calls : List Call}

theorem current_new : (new : StateTracker χ).current = .disconnected :=
  LawfulWatchChannel.value_start _

theorem watchers_new : (new : StateTracker χ).watchers = 0 :=
  LawfulWatchChannel.receivers_start _

theorem watchers_set (state : ConnectionState) (tracker : StateTracker χ) :
    (tracker.set state).watchers = tracker.watchers :=
  LawfulWatchChannel.receivers_update _ _

theorem hasChanged_set {state : ConnectionState} {watcher : Nat} :
    (tracker.set state).hasChanged watcher = true ↔
      tracker.hasChanged watcher = true ∨
        state ≠ tracker.current ∧ watcher < tracker.watchers := by
  rw [hasChanged_iff, hasChanged_iff, watchers_set]
  by_cases h : watcher < tracker.watchers
  · have hmarked : WatchChannel.hasChanged watcher (tracker.set state).channel =
        (WatchChannel.hasChanged watcher tracker.channel || decide (state ≠ tracker.current)) :=
      (LawfulWatchChannel.hasChanged_update _ h).trans
        (congrArg _ (replace_fst state tracker.current))
    simp [h, hmarked]
  · simp [h]

theorem current_watch (tracker : StateTracker χ) : tracker.watch.2.current = tracker.current :=
  LawfulWatchChannel.value_join _

theorem watchers_watch (tracker : StateTracker χ) :
    tracker.watch.2.watchers = tracker.watchers + 1 :=
  LawfulWatchChannel.receivers_join _

theorem hasChanged_watch {watcher : Nat} :
    tracker.watch.2.hasChanged watcher = true ↔ tracker.hasChanged watcher = true := by
  rw [hasChanged_iff, hasChanged_iff, watchers_watch]
  by_cases h : watcher < tracker.watchers
  · have hold : WatchChannel.hasChanged watcher tracker.watch.2.channel =
        WatchChannel.hasChanged watcher tracker.channel :=
      LawfulWatchChannel.hasChanged_join h
    simp [h, Nat.lt_succ_of_lt h, hold]
  · -- Either this is the new watcher, which has seen everything, or there is none of that number.
    refine iff_of_false ?_ (fun hchanged => h hchanged.1)
    rintro ⟨hlt, hchanged⟩
    obtain rfl : watcher = tracker.watchers := by omega
    have hnew : WatchChannel.hasChanged tracker.watchers tracker.watch.2.channel = false :=
      LawfulWatchChannel.hasChanged_join_new tracker.channel
    exact Bool.false_ne_true (hnew.symm.trans hchanged)

theorem current_take (watcher : Nat) (tracker : StateTracker χ) :
    (tracker.take watcher).current = tracker.current := by
  by_cases h : watcher < tracker.watchers
  · rw [take_of_lt h]
    exact LawfulWatchChannel.value_look h
  · rw [take_of_not_lt h]

theorem watchers_take (watcher : Nat) (tracker : StateTracker χ) :
    (tracker.take watcher).watchers = tracker.watchers := by
  by_cases h : watcher < tracker.watchers
  · rw [take_of_lt h]
    exact LawfulWatchChannel.receivers_look h
  · rw [take_of_not_lt h]

theorem hasChanged_take {taker watcher : Nat} :
    (tracker.take taker).hasChanged watcher = true ↔
      tracker.hasChanged watcher = true ∧ taker ≠ watcher := by
  by_cases htaker : taker < tracker.watchers
  · rw [hasChanged_iff, hasChanged_iff, watchers_take, take_of_lt htaker]
    by_cases h : taker = watcher
    · subst h
      simp [LawfulWatchChannel.hasChanged_look htaker]
    · by_cases hwatcher : watcher < tracker.watchers
      · simp [h, hwatcher,
          LawfulWatchChannel.hasChanged_look_of_ne htaker hwatcher (Ne.symm h)]
      · simp [hwatcher]
  · rw [take_of_not_lt htaker]
    refine ⟨fun h => ⟨h, ?_⟩, And.left⟩
    rintro rfl
    exact htaker (lt_watchers_of_hasChanged h)

/-! ## Runs -/

theorem follows_new : Follows [] (new : StateTracker χ) where
  current := current_new
  watchers := watchers_new
  hasChanged watcher := by
    refine iff_of_false (fun h => ?_) (not_missed_nil watcher)
    have hlt := lt_watchers_of_hasChanged h
    rw [watchers_new] at hlt
    exact Nat.not_lt_zero watcher hlt

theorem Follows.set (h : Follows calls tracker) (state : ConnectionState) :
    Follows (calls ++ [.set state]) (tracker.set state) where
  current := by rw [current_set, lastSet_concat, Call.state?, Option.getD_some]
  watchers := by simp [watchers_set, h.watchers]
  hasChanged watcher := by
    rw [hasChanged_set, missed_concat, h.hasChanged, h.current, h.watchers]
    simp

theorem Follows.watch (h : Follows calls tracker) :
    Follows (calls ++ [.watch]) tracker.watch.2 where
  current := by rw [current_watch, lastSet_concat, h.current, Call.state?, Option.getD_none]
  watchers := by simp [watchers_watch, h.watchers]
  hasChanged watcher := by
    rw [hasChanged_watch, missed_concat, h.hasChanged]
    simp

theorem Follows.take (h : Follows calls tracker) (taker : Nat) :
    Follows (calls ++ [.take taker]) (tracker.take taker) where
  current := by rw [current_take, lastSet_concat, h.current, Call.state?, Option.getD_none]
  watchers := by simp [watchers_take, h.watchers]
  hasChanged watcher := by
    rw [hasChanged_take, missed_concat, h.hasChanged]
    simp

theorem Follows.perform (h : Follows calls tracker) (call : Call) :
    Follows (calls ++ [call]) (tracker.perform call) := by
  cases call with
  | set state => exact h.set state
  | watch => exact h.watch
  | take watcher => exact h.take watcher

theorem Follows.performAll {past : List Call} (h : Follows past tracker) (calls : List Call) :
    Follows (past ++ calls) (tracker.performAll calls) := by
  induction calls generalizing past tracker with
  | nil => rwa [List.append_nil]
  | cons call calls ih =>
      rw [List.append_cons]
      exact ih (h.perform call)

/-- After any calls in any order the state is the one that was set last, disconnected if none was,
and watchers have been numbered as they came. A watcher is told of a change just if a state was
set that was not the state at that time, since the watcher came and since it last looked: a state
set again is no change, and a change that was taken back is one. This holds for whatever channel
the state is kept in, if the channel keeps its promises. -/
theorem watchers_see_real_transitions (χ : Type) [WatchChannel χ ConnectionState]
    [LawfulWatchChannel χ ConnectionState] (calls : List Call) :
    let tracker : StateTracker χ := new.performAll calls
    tracker.current = lastSet calls ∧
    tracker.watch.1 = calls.count .watch ∧
    ∀ watcher, tracker.hasChanged watcher = true ↔ Missed watcher calls := by
  intro tracker
  have hfollows : Follows calls tracker := follows_new.performAll calls
  exact ⟨hfollows.current, hfollows.watchers, hfollows.hasChanged⟩

/-- The first watcher is told of a change although the state is what it was when the watcher came.
The second has looked since, and then the same state was set again. -/
theorem watchers_see_real_transitions_there_and_back :
    let calls : List Call := [.set .disconnected, .watch, .set .connecting, .watch,
      .set .disconnected, .take 1, .set .disconnected]
    let tracker : StateTracker := new.performAll calls
    tracker.current = .disconnected ∧ tracker.hasChanged 0 = true ∧
      tracker.hasChanged 1 = false := by
  intro calls tracker
  obtain ⟨hcurrent, -, hchanged⟩ :=
    watchers_see_real_transitions (Watched ConnectionState) calls
  refine ⟨hcurrent, (hchanged 0).mpr ?_, rfl⟩
  exact ⟨[.set .disconnected, .watch], .connecting,
    [.watch, .set .disconnected, .take 1, .set .disconnected], rfl, by decide, by decide, by decide⟩

end StateTracker

end ThingHub
