import ThingHub.Proofs.Connection.Loop

/-! # Connects and closes that overlap

Calls on clones of one connection may come in between each other at every step that other
calls can see. A connect checks that its session is still there before it confirms or
abandons it, and abandoning it clears nothing that is booked. The other writes, of the state and
of what is booked, are not checked. -/

namespace ThingHub

variable {η σ : Type}

/-! ## Calls, step by step -/

/-- What a call is for. A connect closes first. -/
inductive Goal
  | close
  | connect

/-- The next step of a call. -/
inductive Point
  /-- It takes the session. -/
  | begun (goal : Goal)
  /-- It has told the session that it took to stop, and waits for the loop. -/
  | holding (goal : Goal) (session : Session)
  | halted (goal : Goal)
  | cleared (goal : Goal)
  /-- Its close is over, a session of its own may begin. -/
  | ready
  | installed (generation : Nat)
  /-- It waits for the broker. -/
  | trying (generation : Nat)
  /-- Its loop runs, the replay is still to come. -/
  | confirmed (generation : Nat)

/-- Where a call goes on after its close. A close is over. -/
def Goal.next : Goal → Option Point
  | .close => none
  | .connect => some .ready

/-- The session that a connect has begun and not confirmed. -/
def Point.work? : Point → Option Nat
  | .installed generation => some generation
  | .trying generation => some generation
  | _ => none

/-- The call is still to clear what is booked. -/
def Point.clears : Point → Bool
  | .holding _ _ => true
  | .halted _ => true
  | _ => false

/-- The call is still to end the state. -/
def Point.ends : Point → Bool
  | .cleared _ => true
  | point => point.clears

/-- A connection with the calls that are in progress and the sessions told to stop. The rest
is a record of the writes: the session for which the state was last written, none if for the
end of one; likewise for what is booked; and whether a write went amiss. -/
structure Overlap (η σ : Type) where
  connection : Connection η
  link : σ
  calls : Nat → Option Point
  told : Set Nat
  stateBy : Option Nat
  booksBy : Option Nat
  amiss : Bool

namespace Overlap

def start (c : Connection η) (s : σ) : Overlap η σ := ⟨c, s, fun _ => none, ∅, none, none, false⟩

/-- No call is in progress. -/
def AtRest (o : Overlap η σ) : Prop := ∀ call, o.calls call = none

/-- A call goes on, or comes to its end. -/
def go (o : Overlap η σ) (call : Nat) (point : Option Point) : Overlap η σ :=
  { o with calls := Function.update o.calls call point }

/-- One step of one call, or a flush by a loop. The network never fails; the broker accepts a
connect or rejects it until its window is over. The writes of a close go amiss when a session is
installed, the beginning of a connect when its own is not, a replay when none is, and giving up
the installed session when what a replay booked still stands. -/
inductive Moves : Overlap η σ → Overlap η σ → Prop
  | begin {o : Overlap η σ} (call : Nat) (goal : Goal) : o.calls call = none →
      Moves o (o.go call (some (.begun goal)))
  | skip {o : Overlap η σ} (call : Nat) {goal : Goal} :
      o.calls call = some (.begun goal) → o.connection.session = none →
      Moves o { o.go call goal.next with connection := o.connection.takeSession.2 }
  | take {o : Overlap η σ} (call : Nat) {goal : Goal} {session : Session} :
      o.calls call = some (.begun goal) → o.connection.session = some session →
      Moves o { o.go call (some (.holding goal session)) with
        connection := o.connection.takeSession.2
        told := insert session.generation o.told }
  | halt {o : Overlap η σ} (call : Nat) {goal : Goal} {session : Session} :
      o.calls call = some (.holding goal session) → session.running = true →
      Moves o { o.go call (some (.halted goal)) with
        connection := o.connection.endLoop session
        stateBy := none
        amiss := o.amiss || o.connection.session.isSome }
  | abort {o : Overlap η σ} (call : Nat) {goal : Goal} {session : Session} :
      o.calls call = some (.holding goal session) → Moves o (o.go call (some (.halted goal)))
  | clear {o : Overlap η σ} (call : Nat) {goal : Goal} : o.calls call = some (.halted goal) →
      Moves o { o.go call (some (.cleared goal)) with
        connection := o.connection.clearBroker
        booksBy := none
        amiss := o.amiss || o.connection.session.isSome }
  | disconnect {o : Overlap η σ} (call : Nat) {goal : Goal} :
      o.calls call = some (.cleared goal) →
      Moves o { o.go call goal.next with
        connection := o.connection.setState .disconnected
        stateBy := none
        amiss := o.amiss || o.connection.session.isSome }
  | refuse {o : Overlap η σ} (call : Nat) : o.calls call = some .ready → Moves o (o.go call none)
  | install {o : Overlap η σ} (call : Nat) (clientId : String) : o.calls call = some .ready →
      Moves o { o.go call (some (.installed (o.connection.install clientId).1)) with
        connection := (o.connection.install clientId).2
        told := {g | g ∈ o.told ∨ o.connection.owns g = true} }
  | connecting {o : Overlap η σ} (call : Nat) {g : Nat} : o.calls call = some (.installed g) →
      Moves o { o.go call (some (.trying g)) with
        connection := o.connection.setState .connecting
        stateBy := some g
        amiss := o.amiss || !o.connection.owns g }
  | confirm {o : Overlap η σ} (call : Nat) {g : Nat} {c : Connection η} :
      o.calls call = some (.trying g) → o.connection.confirm g = .ok c →
      Moves o { o.go call (some (.confirmed g)) with
        connection := c
        stateBy := some g }
  | cancel {o : Overlap η σ} (call : Nat) {g : Nat} {reason : ConnectError} :
      o.calls call = some (.trying g) → o.connection.confirm g = .error reason →
      Moves o (o.go call none)
  | heed {o : Overlap η σ} (call : Nat) {g : Nat} : o.calls call = some (.trying g) → g ∈ o.told →
      Moves o { o.go call none with
        connection := o.connection.abandon g
        stateBy := if o.connection.owns g then none else o.stateBy }
  | giveUp {o : Overlap η σ} (call : Nat) {g : Nat} : o.calls call = some (.trying g) →
      Moves o { o.go call none with
        connection := o.connection.abandon g
        stateBy := if o.connection.owns g then none else o.stateBy
        amiss := o.amiss || (o.connection.owns g && o.booksBy.isSome) }
  | replay {o : Overlap η σ} (call : Nat) {g : Nat} (link : Link σ) :
      o.calls call = some (.confirmed g) →
      Moves o { o.go call none with
        connection := (o.connection.replayAll link o.link).1
        link := (o.connection.replayAll link o.link).2
        booksBy := some g
        amiss := o.amiss || o.connection.session.isNone }
  | flush (link : Link σ) (o : Overlap η σ) :
      Moves o { o with
        connection := (o.connection.flushPending link o.link).1
        link := (o.connection.flushPending link o.link).2 }

end Overlap

namespace Connection

variable {c c' : Connection η} {g : Nat}

/-- An installed session is connected and has all that is registered booked; without one the
state is disconnected and nothing is booked. -/
def InSync (c : Connection η) : Prop :=
  match c.session with
  | some _ => c.isConnected = true ∧ ∀ pattern, c.registry.isSubscribed pattern = true →
      pattern ∈ c.registry.onBroker ∨ pattern ∈ Entries.keys c.registry.pending
  | none => c.state.current = .disconnected ∧ c.registry.onBroker = [] ∧ c.registry.pending = []

/-! ## Owning the session -/

theorem owns_iff : c.owns g = true ↔ ∃ running, c.session = some ⟨g, running⟩ := by
  unfold owns
  cases h : c.session with
  | none => simp
  | some session =>
      obtain ⟨generation, running⟩ := session
      simp

theorem confirm_eq_ok (h : c.confirm g = .ok c') :
    c.owns g = true ∧ c' = { c with session := some ⟨g, true⟩ }.setState .connected := by
  unfold confirm at h
  split at h
  · rename_i howns
    exact ⟨howns, (Except.ok.inj h).symm⟩
  · cases h

theorem owns_of_confirm_error {reason : ConnectError} (h : c.confirm g = .error reason) :
    c.owns g = false := by
  unfold confirm at h
  split at h
  · cases h
  · rename_i howns
    exact Bool.eq_false_iff.mpr howns

theorem abandon_of_not_owns (h : c.owns g = false) : c.abandon g = c := by
  simp [abandon, h]

theorem abandon_of_owns (h : c.owns g = true) :
    c.abandon g = c.takeSession.2.setState .disconnected := by
  simp [abandon, takeSession, h]

end Connection

namespace Overlap

variable {o next : Overlap η σ}

/-! ## Sessions and the calls that work at them -/

/-- The session that each call works at. -/
def works (o : Overlap η σ) (call : Nat) : Option Nat := (o.calls call).bind Point.work?

theorem works_of_calls {call : Nat} {point : Point} (h : o.calls call = some point) :
    o.works call = point.work? := by
  simp [works, h]

theorem works_go (o : Overlap η σ) (call : Nat) (point : Option Point) :
    (o.go call point).works = Function.update o.works call (point.bind Point.work?) := by
  funext other
  by_cases h : other = call
  · subst h
    simp [works, go]
  · simp [works, go, h]

theorem works_go_eq {call : Nat} {point : Option Point}
    (h : point.bind Point.work? = o.works call) : (o.go call point).works = o.works := by
  rw [works_go, h, Function.update_eq_self]

/-- No session is worked at twice or begun twice. The installed one is being worked at until
its loop runs, and was never told to stop. -/
structure Apart (works : Nat → Option Nat) (session : Option Session) (latest : Nat)
    (told : Set Nat) : Prop where
  works_le : ∀ call g, works call = some g → g ≤ latest
  session_le : ∀ s, session = some s → s.generation ≤ latest
  told_le : ∀ g ∈ told, g ≤ latest
  alone : ∀ m n g, works m = some g → works n = some g → m = n
  tried : ∀ g, session = some ⟨g, false⟩ → ∃ call, works call = some g
  running : ∀ g, session = some ⟨g, true⟩ → ∀ call, works call ≠ some g
  left : ∀ g ∈ told, ∀ s, session = some s → s.generation ≠ g

variable {works : Nat → Option Nat} {session : Option Session} {latest g : Nat} {told : Set Nat}
  {call : Nat}

theorem Apart.gone (h : Apart works session latest told) : Apart works none latest told where
  works_le := h.works_le
  session_le := nofun
  told_le := h.told_le
  alone := h.alone
  tried := nofun
  running := nofun
  left := nofun

theorem Apart.take {s : Session} (h : Apart works (some s) latest told) :
    Apart works none latest (insert s.generation told) :=
  { h.gone with
    told_le := Set.forall_mem_insert.mpr ⟨h.session_le s rfl, h.told_le⟩
    left := nofun }

theorem eq_or_works_of_update {point : Option Nat} {m : Nat}
    (h : Function.update works call point m = some g) :
    m = call ∧ point = some g ∨ m ≠ call ∧ works m = some g := by
  by_cases hm : m = call
  · subst hm
    exact .inl ⟨rfl, by simpa using h⟩
  · exact .inr ⟨hm, by simpa [hm] using h⟩

theorem works_of_update_none {m : Nat} (h : Function.update works call none m = some g) :
    m ≠ call ∧ works m = some g := by
  rcases eq_or_works_of_update h with ⟨-, hnone⟩ | hother
  · cases hnone
  · exact hother

/-- A new session has a number that no call works at and that nobody was told. -/
theorem Apart.install (h : Apart works session latest told) (call : Nat) {told' : Set Nat}
    (htold : ∀ g ∈ told', g ∈ told ∨ ∃ running, session = some ⟨g, running⟩) :
    Apart (Function.update works call (some (latest + 1))) (some ⟨latest + 1, false⟩)
      (latest + 1) told' := by
  have hle : ∀ g ∈ told', g ≤ latest := by
    intro g hg
    rcases htold g hg with hg | ⟨running, hs⟩
    · exact h.told_le g hg
    · exact h.session_le _ hs
  have hnew {m g : Nat} (hm : Function.update works call (some (latest + 1)) m = some g) :
      m = call ∧ latest + 1 = g ∨ works m = some g ∧ g ≤ latest := by
    rcases eq_or_works_of_update hm with ⟨hm, hg⟩ | ⟨-, hworks⟩
    · exact .inl ⟨hm, Option.some.inj hg⟩
    · exact .inr ⟨hworks, h.works_le m g hworks⟩
  refine ⟨?_, ?_, fun g hg => Nat.le_succ_of_le (hle g hg), ?_, ?_, nofun, ?_⟩
  · intro m g hm
    rcases hnew hm with ⟨-, rfl⟩ | ⟨-, hg⟩ <;> omega
  · rintro s ⟨⟩
    exact Nat.le_refl _
  · intro m n g hm hn
    rcases hnew hm with ⟨rfl, rfl⟩ | ⟨hm, hg⟩
    · rcases hnew hn with ⟨rfl, -⟩ | ⟨-, hg⟩
      · rfl
      · omega
    · rcases hnew hn with ⟨-, rfl⟩ | ⟨hn, -⟩
      · omega
      · exact h.alone m n g hm hn
  · rintro g ⟨⟩
    exact ⟨call, Function.update_self _ _ _⟩
  · rintro g hg s ⟨⟩
    exact Nat.ne_of_gt (Nat.lt_succ_of_le (hle g hg))

theorem Apart.confirm {running : Bool} (h : Apart works (some ⟨g, running⟩) latest told)
    (hcall : works call = some g) :
    Apart (Function.update works call none) (some ⟨g, true⟩) latest told where
  works_le m g' hm := h.works_le m g' (works_of_update_none hm).2
  session_le := by
    rintro s ⟨⟩
    exact h.works_le call g hcall
  told_le := h.told_le
  alone m n g' hm hn := h.alone m n g' (works_of_update_none hm).2 (works_of_update_none hn).2
  tried := nofun
  running := by
    rintro g' ⟨⟩ m hm
    obtain ⟨hne, hworks⟩ := works_of_update_none hm
    exact hne (h.alone m call g hworks hcall)
  left := by
    rintro g' hg s ⟨⟩
    exact h.left g' hg ⟨g, running⟩ rfl

theorem Apart.drop (h : Apart works session latest told) (hcall : works call = some g)
    (hother : ∀ s, session = some s → s.generation ≠ g) :
    Apart (Function.update works call none) session latest told where
  works_le m g' hm := h.works_le m g' (works_of_update_none hm).2
  session_le := h.session_le
  told_le := h.told_le
  alone m n g' hm hn := h.alone m n g' (works_of_update_none hm).2 (works_of_update_none hn).2
  tried g' hs := by
    obtain ⟨m, hm⟩ := h.tried g' hs
    refine ⟨m, ?_⟩
    have hne : m ≠ call := by
      rintro rfl
      exact hother _ hs (Option.some.inj (hm.symm.trans hcall))
    rwa [Function.update_of_ne hne]
  running g' hs m hm := h.running g' hs m (works_of_update_none hm).2
  left := h.left

/-- What a world of calls keeps about its sessions. -/
def Ordered (o : Overlap η σ) : Prop :=
  Apart o.works o.connection.session o.connection.generation o.told

theorem ordered_start {c : Connection η} (h : c.session = none) (s : σ) :
    (Overlap.start c s).Ordered := by
  show Apart _ c.session _ _
  rw [h]
  exact ⟨nofun, nofun, fun g hg => absurd hg (Set.notMem_empty g), nofun, nofun, nofun,
    fun g hg => absurd hg (Set.notMem_empty g)⟩

theorem endLoop_of_running {s : Session} (h : s.running = true) (c : Connection η) :
    c.endLoop s = c.setState .disconnected :=
  if_pos h

/-- A session that was told to stop is not the installed one. -/
theorem Ordered.not_owns (h : o.Ordered) (hg : g ∈ o.told) : o.connection.owns g = false := by
  refine Bool.eq_false_iff.mpr fun howns => ?_
  obtain ⟨running, hs⟩ := Connection.owns_iff.mp howns
  exact h.left g hg _ hs rfl

theorem Ordered.drop {g : Nat} (h : o.Ordered) (hcall : o.calls call = some (.trying g))
    (howns : o.connection.owns g = false) : (o.go call none).Ordered := by
  have hworks : o.works call = some g := works_of_calls hcall
  have hother : ∀ s, o.connection.session = some s → s.generation ≠ g := by
    rintro ⟨_, running⟩ hs rfl
    exact absurd (howns.symm.trans (Connection.owns_iff.mpr ⟨running, hs⟩)) (by decide)
  rw [Ordered, works_go]
  exact Apart.drop h hworks hother

/-- A connect that gives up its session leaves none. -/
theorem Ordered.giveUp {g : Nat} (h : o.Ordered) (hcall : o.calls call = some (.trying g)) :
    Apart (o.go call none).works (o.connection.abandon g).session
      (o.connection.abandon g).generation o.told := by
  cases howns : o.connection.owns g with
  | true =>
      have hworks : o.works call = some g := works_of_calls hcall
      rw [Connection.abandon_of_owns howns, works_go]
      exact (Apart.gone h).drop hworks nofun
  | false =>
      rw [Connection.abandon_of_not_owns howns]
      exact h.drop hcall howns

theorem works?_next (goal : Goal) : goal.next.bind Point.work? = none := by
  cases goal <;> rfl

theorem Moves.ordered (hm : Moves o next) (h : o.Ordered) : next.Ordered := by
  -- A call that goes on without taking up or giving up a session leaves all as it was.
  have hgo {call : Nat} {point : Option Point} (hp : point.bind Point.work? = o.works call) :
      Apart (o.go call point).works o.connection.session o.connection.generation o.told := by
    rw [works_go_eq hp]
    exact h
  cases hm with
  | begin call goal hcall => exact hgo (by simp [Overlap.works, hcall, Point.work?])
  | @skip _ call goal hcall hs =>
      have hnext := hgo ((works?_next goal).trans (works_of_calls hcall).symm)
      rw [hs] at hnext
      exact hnext
  | @take _ call goal s hcall hs =>
      have hnext := @hgo call (some (.holding goal s)) (works_of_calls hcall).symm
      rw [hs] at hnext
      exact hnext.take
  | halt call hcall hrunning =>
      rw [endLoop_of_running hrunning]
      exact hgo (works_of_calls hcall).symm
  | abort call hcall => exact hgo (works_of_calls hcall).symm
  | clear call hcall => exact hgo (works_of_calls hcall).symm
  | disconnect call hcall => exact hgo ((works?_next _).trans (works_of_calls hcall).symm)
  | refuse call hcall => exact hgo (works_of_calls hcall).symm
  | install call clientId hcall =>
      show Apart (o.go call _).works _ _ _
      rw [works_go]
      exact Apart.install h call fun g hg => hg.imp_right Connection.owns_iff.mp
  | connecting call hcall => exact hgo (works_of_calls hcall).symm
  | @confirm _ call g _ hcall hconfirm =>
      obtain ⟨howns, rfl⟩ := Connection.confirm_eq_ok hconfirm
      obtain ⟨running, hs⟩ := Connection.owns_iff.mp howns
      rw [Ordered, hs] at h
      show Apart (o.go call _).works _ _ _
      rw [works_go]
      exact h.confirm (works_of_calls hcall)
  | cancel call hcall hconfirm => exact h.drop hcall (Connection.owns_of_confirm_error hconfirm)
  | heed call hcall hg =>
      rw [Connection.abandon_of_not_owns (h.not_owns hg)]
      exact h.drop hcall (h.not_owns hg)
  | giveUp call hcall => exact h.giveUp hcall
  | replay call link hcall => exact hgo (works_of_calls hcall).symm
  | flush link => exact h

/-! ## What the record of writes tells -/

/-- The state and what is booked are as the last writes left them. -/
structure Recorded (c : Connection η) (stateBy booksBy : Option Nat) : Prop where
  state : stateBy = none ↔ c.state.current = .disconnected
  running : ∀ g, c.session = some ⟨g, true⟩ → (c.isConnected = true ↔ stateBy = some g)
  books : c.registry.booked = if booksBy.isSome then c.registry.registered else ∅

variable {c : Connection η} {stateBy booksBy : Option Nat}

/-- Taking a session or beginning one writes neither. -/
theorem Recorded.withSession {c' : Connection η} (h : Recorded c stateBy booksBy)
    (hstate : c'.state = c.state) (hregistry : c'.registry = c.registry)
    (hnot : ∀ g, c'.session ≠ some ⟨g, true⟩) : Recorded c' stateBy booksBy where
  state := hstate ▸ h.state
  running g hs := absurd hs (hnot g)
  books := hregistry ▸ h.books

theorem Recorded.disconnect (h : Recorded c stateBy booksBy) :
    Recorded (c.setState .disconnected) none booksBy where
  state := iff_of_true rfl (StateTracker.current_set .disconnected c.state)
  running g _ := iff_of_false (by simp) nofun
  books := h.books

theorem Recorded.connecting (h : Recorded c stateBy booksBy)
    (hnot : c.session ≠ some ⟨g, true⟩) : Recorded (c.setState .connecting) (some g) booksBy where
  state := iff_of_false nofun (by simp [Connection.setState, StateTracker.current_set])
  running g' hs := by
    refine iff_of_false (by simp) ?_
    rintro ⟨⟩
    exact hnot hs
  books := h.books

theorem Recorded.confirm (h : Recorded c stateBy booksBy) (g : Nat) :
    Recorded ({ c with session := some ⟨g, true⟩ }.setState .connected) (some g) booksBy where
  state := iff_of_false nofun (by simp [Connection.setState, StateTracker.current_set])
  running g' hs := iff_of_true (by simp) (by cases hs; rfl)
  books := h.books

theorem Recorded.clear (h : Recorded c stateBy booksBy) :
    Recorded c.clearBroker stateBy none where
  state := h.state
  running := h.running
  books := Registry.booked_clearBroker c.registry

theorem Recorded.replay (h : Recorded c stateBy booksBy) (link : Link σ) (s : σ) (g : Nat) :
    Recorded (c.replayAll link s).1 stateBy (some g) where
  state := h.state
  running := h.running
  books := Registry.booked_replayAll link c.registry s

theorem Recorded.flush (h : Recorded c stateBy booksBy) (link : Link σ) (s : σ) :
    Recorded (c.flushPending link s).1 stateBy booksBy where
  state := h.state
  running := h.running
  books := (Registry.booked_flushPending link c.registry s).trans h.books

theorem Recorded.giveUp (h : Recorded c stateBy booksBy) (g : Nat) :
    Recorded (c.abandon g) (if c.owns g then none else stateBy) booksBy := by
  cases howns : c.owns g with
  | true =>
      rw [Connection.abandon_of_owns howns]
      have htaken : Recorded c.takeSession.2 stateBy booksBy := h.withSession rfl rfl nofun
      exact htaken.disconnect
  | false =>
      rw [Connection.abandon_of_not_owns howns]
      exact h

theorem Moves.recorded (hm : Moves o next) (ho : o.Ordered)
    (h : Recorded o.connection o.stateBy o.booksBy) :
    Recorded next.connection next.stateBy next.booksBy := by
  cases hm with
  | begin call goal hcall => exact h
  | skip call hcall hs => exact h.withSession rfl rfl nofun
  | take call hcall hs => exact h.withSession rfl rfl nofun
  | halt call hcall hrunning =>
      rw [endLoop_of_running hrunning]
      exact h.disconnect
  | abort call hcall => exact h
  | clear call hcall => exact h.clear
  | disconnect call hcall => exact h.disconnect
  | refuse call hcall => exact h
  | install call clientId hcall => exact h.withSession rfl rfl nofun
  | @connecting _ call g hcall =>
      have hworks : o.works call = some g := works_of_calls hcall
      exact h.connecting fun hs => ho.running g hs call hworks
  | @confirm _ call g _ hcall hconfirm =>
      obtain ⟨-, rfl⟩ := Connection.confirm_eq_ok hconfirm
      exact h.confirm g
  | cancel call hcall hconfirm => exact h
  | heed call hcall hg =>
      rw [Connection.abandon_of_not_owns (ho.not_owns hg), ho.not_owns hg]
      exact h
  | @giveUp _ call g hcall => exact h.giveUp g
  | @replay _ call g link hcall => exact h.replay link o.link g
  | flush link => exact h.flush link o.link

/-- At rest, the two last writes tell whether all is in sync. -/
theorem Recorded.inSync_iff (h : Recorded c stateBy booksBy)
    (hrunning : ∀ s, c.session = some s → s.running = true) :
    c.InSync ↔ stateBy = c.session.map (·.generation) ∧
      (booksBy.isSome = c.session.isSome ∨
        ∀ pattern, c.registry.isSubscribed pattern = false) := by
  rw [← Registry.registered_eq_empty_iff]
  have hbooks := h.books
  unfold Connection.InSync
  cases hs : c.session with
  | none =>
      refine and_congr h.state.symm (Registry.booked_eq_empty_iff.symm.trans ?_)
      cases hby : booksBy.isSome <;> simp_all
  | some s =>
      obtain ⟨g, running⟩ := s
      obtain rfl : running = true := hrunning _ hs
      refine and_congr (h.running g hs) ?_
      have hsubset : (∀ pattern, c.registry.isSubscribed pattern = true →
          pattern ∈ c.registry.onBroker ∨ pattern ∈ Entries.keys c.registry.pending) ↔
            c.registry.registered ⊆ c.registry.booked :=
        forall_congr' fun _ => imp_congr_left Registry.isSubscribed_iff_mem_registered
      rw [hsubset]
      cases hby : booksBy.isSome <;> simp_all

/-! ## Writes that come in time -/

/-- Some call in progress is at a point of a kind. -/
def Has (calls : Nat → Option Point) (kind : Point → Prop) : Prop :=
  ∃ call point, calls call = some point ∧ kind point

variable {calls : Nat → Option Point} {kind : Point → Prop} {point : Option Point}

theorem has_update_self {p : Point} (hp : kind p) :
    Has (Function.update calls call (some p)) kind :=
  ⟨call, p, Function.update_self _ _ _, hp⟩

theorem Has.update (h : Has calls kind) (hnot : ∀ p, calls call = some p → ¬kind p) :
    Has (Function.update calls call point) kind := by
  obtain ⟨other, p, hother, hp⟩ := h
  have hne : other ≠ call := by
    rintro rfl
    exact hnot p hother hp
  exact ⟨other, p, (Function.update_of_ne hne _ _).trans hother, hp⟩

/-- As long as no write went amiss: a running session wrote the state last, and what is booked
is from a replay or there will be one; without a session both were written by a close, or one
is about to. -/
structure InTime (calls : Nat → Option Point) (session : Option Session)
    (stateBy booksBy : Option Nat) : Prop where
  state : ∀ g, session = some ⟨g, true⟩ → stateBy = some g
  books : ∀ g, session = some ⟨g, true⟩ → booksBy.isSome = true ∨ Has calls (· = .confirmed g)
  stateGone : session = none → stateBy = none ∨ Has calls (·.ends = true)
  booksGone : session = none → booksBy = none ∨ Has calls (·.clears = true)

theorem inTime_gone (hs : session = none) (hstate : stateBy = none ∨ Has calls (·.ends = true))
    (hbooks : booksBy = none ∨ Has calls (·.clears = true)) :
    InTime calls session stateBy booksBy := by
  subst hs
  exact ⟨nofun, nofun, fun _ => hstate, fun _ => hbooks⟩

theorem inTime_tried (hs : session = some ⟨g, false⟩) : InTime calls session stateBy booksBy := by
  subst hs
  exact ⟨nofun, nofun, nofun, nofun⟩

theorem inTime_confirmed (hs : session = some ⟨g, true⟩)
    (hcall : calls call = some (.confirmed g)) : InTime calls session (some g) booksBy := by
  subst hs
  refine ⟨?_, ?_, nofun, nofun⟩
  · rintro g' ⟨⟩
    rfl
  · rintro g' ⟨⟩
    exact .inr ⟨call, _, hcall, rfl⟩

/-- Nothing changes with a call that is neither at its replay nor closing. -/
theorem InTime.update (h : InTime calls session stateBy booksBy)
    (hidle : ∀ p, calls call = some p → p.ends = false ∧ ∀ g, p ≠ .confirmed g) :
    InTime (Function.update calls call point) session stateBy booksBy where
  state := h.state
  books g hs := (h.books g hs).imp_right fun hhas => hhas.update fun p hp => (hidle p hp).2 g
  stateGone hs := (h.stateGone hs).imp_right fun hhas => hhas.update fun p hp => by
    simp [(hidle p hp).1]
  booksGone hs := (h.booksGone hs).imp_right fun hhas => hhas.update fun p hp => by
    have hends := (hidle p hp).1
    cases p <;> simp_all [Point.ends, Point.clears]

theorem InTime.abort (h : InTime calls session stateBy booksBy) {goal : Goal} {s : Session}
    (hcall : calls call = some (.holding goal s)) :
    InTime (Function.update calls call (some (.halted goal))) session stateBy booksBy where
  state := h.state
  books g hs := (h.books g hs).imp_right fun hhas => hhas.update <| by
    rintro p hp rfl
    cases hcall.symm.trans hp
  stateGone _ := .inr (has_update_self rfl)
  booksGone _ := .inr (has_update_self rfl)

theorem InTime.disconnect (h : InTime calls session stateBy booksBy) {goal : Goal}
    (hcall : calls call = some (.cleared goal)) (hs : session = none) :
    InTime (Function.update calls call point) session none booksBy := by
  have hnot : ∀ p, calls call = some p → ¬p.clears = true := by
    rintro p hp
    cases hcall.symm.trans hp
    exact nofun
  exact inTime_gone hs (.inl rfl) ((h.booksGone hs).imp_right fun hhas => hhas.update hnot)

/-- The session of a connect that is not yet under way has no loop. -/
theorem Ordered.session_of_owns (h : o.Ordered) (hcall : o.calls call = some (.installed g))
    (howns : o.connection.owns g = true) : o.connection.session = some ⟨g, false⟩ := by
  obtain ⟨running, hs⟩ := Connection.owns_iff.mp howns
  cases running with
  | false => exact hs
  | true =>
      have hworks : o.works call = some g := works_of_calls hcall
      exact absurd hworks (h.running g hs call)

theorem Moves.inTime (hm : Moves o next) (ho : o.Ordered)
    (h : o.amiss = false → InTime o.calls o.connection.session o.stateBy o.booksBy)
    (hamiss : next.amiss = false) :
    InTime next.calls next.connection.session next.stateBy next.booksBy := by
  -- What a call does at a point that is neither at its replay nor closing.
  have hidle {call : Nat} {p : Point} (point : Option Point) (hcall : o.calls call = some p)
      (hp : p.ends = false ∧ ∀ g, p ≠ .confirmed g) (hamiss : o.amiss = false) :
      InTime (Function.update o.calls call point) o.connection.session o.stateBy o.booksBy := by
    refine (h hamiss).update fun q hq => ?_
    obtain rfl := Option.some.inj (hcall.symm.trans hq)
    exact hp
  -- A write of a close that does not go amiss finds no session.
  have hgone {amiss : Bool} (hamiss : (amiss || o.connection.session.isSome) = false) :
      amiss = false ∧ o.connection.session = none := by simpa using hamiss
  cases hm with
  | begin call goal hcall => exact (h hamiss).update fun p hp => nomatch hcall.symm.trans hp
  | @skip _ call goal hcall hs =>
      have hnext := hidle goal.next hcall ⟨rfl, nofun⟩ hamiss
      exact inTime_gone rfl (hnext.stateGone hs) (hnext.booksGone hs)
  | take call hcall hs =>
      exact inTime_gone rfl (.inr (has_update_self rfl)) (.inr (has_update_self rfl))
  | halt call hcall hrunning =>
      rw [endLoop_of_running hrunning]
      exact inTime_gone (hgone hamiss).2 (.inl rfl) (.inr (has_update_self rfl))
  | abort call hcall => exact (h hamiss).abort hcall
  | clear call hcall => exact inTime_gone (hgone hamiss).2 (.inr (has_update_self rfl)) (.inl rfl)
  | disconnect call hcall =>
      obtain ⟨hamiss, hs⟩ := hgone hamiss
      exact (h hamiss).disconnect hcall hs
  | refuse call hcall => exact hidle none hcall ⟨rfl, nofun⟩ hamiss
  | install call clientId hcall => exact inTime_tried rfl
  | @connecting _ call g hcall =>
      have howns : o.connection.owns g = true := by
        cases howns : o.connection.owns g <;> simp_all
      exact inTime_tried (ho.session_of_owns hcall howns)
  | confirm call hcall hconfirm =>
      obtain ⟨-, rfl⟩ := Connection.confirm_eq_ok hconfirm
      exact inTime_confirmed rfl (Function.update_self _ _ _)
  | cancel call hcall hconfirm => exact hidle none hcall ⟨rfl, nofun⟩ hamiss
  | heed call hcall hg =>
      rw [Connection.abandon_of_not_owns (ho.not_owns hg), ho.not_owns hg]
      exact hidle none hcall ⟨rfl, nofun⟩ hamiss
  | @giveUp _ call g hcall =>
      cases howns : o.connection.owns g with
      | true =>
          obtain ⟨-, hbooks⟩ : o.amiss = false ∧ o.booksBy = none := by simpa [howns] using hamiss
          rw [Connection.abandon_of_owns howns]
          exact inTime_gone rfl (.inl rfl) (.inl hbooks)
      | false =>
          rw [Connection.abandon_of_not_owns howns]
          exact hidle none hcall ⟨rfl, nofun⟩ (by simpa [howns] using hamiss)
  | replay call link hcall =>
      obtain ⟨hamiss, hs⟩ : o.amiss = false ∧ o.connection.session ≠ none := by
        simpa [Option.isSome_iff_ne_none] using hamiss
      exact ⟨(h hamiss).state, fun _ _ => .inl rfl, fun hnone => absurd hnone hs,
        fun hnone => absurd hnone hs⟩
  | flush link => exact h hamiss

/-! ## Calls that nothing overlaps -/

/-- A close, or that of a connect, with no other call in between. -/
theorem exists_run_of_begun {goal : Goal} (hcall : o.calls call = some (.begun goal)) :
    ∃ closed, Relation.ReflTransGen Moves o closed ∧ closed.connection = o.connection.close ∧
      closed.link = o.link ∧ closed.calls = Function.update o.calls call goal.next := by
  cases hs : o.connection.session with
  | none =>
      refine ⟨_, .single (.skip call hcall hs), ?_, rfl, rfl⟩
      exact (Connection.close_of_none hs).symm
  | some s =>
      cases hrunning : s.running with
      | true =>
          refine ⟨_, .head (.take call hcall hs) <|
            .head (.halt call (Function.update_self _ _ _) hrunning) <|
            .head (.clear call (Function.update_self _ _ _)) <|
            .single (.disconnect call (Function.update_self _ _ _)), ?_, rfl, ?_⟩
          · simp [Connection.close, Connection.takeSession, hs]
          · simp [go]
      | false =>
          refine ⟨_, .head (.take call hcall hs) <|
            .head (.abort call (Function.update_self _ _ _)) <|
            .head (.clear call (Function.update_self _ _ _)) <|
            .single (.disconnect call (Function.update_self _ _ _)), ?_, rfl, ?_⟩
          · simp [Connection.close, Connection.takeSession, Connection.endLoop, hs, hrunning, go]
          · simp [go]

/-- A connect with no other call in between, however it ends. -/
theorem exists_run_of_connect {link : Link σ} {folder : Folder} {host : String}
    {millis turns : Nat} {attempts : Nat → Attempt} {credential : Credential} {window : Duration}
    {result : Except ConnectError Unit} {c : Connection η} {s : σ} (hcall : o.calls call = none)
    (h : o.connection.connect link folder host millis turns attempts credential window o.link =
      .settled result c s) :
    ∃ after, Relation.ReflTransGen Moves o after ∧ after.connection = c ∧
      after.link = s ∧ after.calls = o.calls := by
  have hbegin : Moves o (o.go call (some (.begun .connect))) := .begin call .connect hcall
  have hbegun : (o.go call (some (.begun .connect))).calls call = some (.begun .connect) :=
    Function.update_self _ _ _
  obtain ⟨closed, hclose, hconnection, hlink, hcalls⟩ := exists_run_of_begun hbegun
  have hready : closed.calls call = some .ready := by simp [hcalls, Goal.next]
  have hleft (rest : Overlap η σ) (hrest : rest.calls = Function.update closed.calls call none) :
      rest.calls = o.calls := by
    simp [hrest, go, hcalls, Function.update_eq_self_iff, hcall]
  have hsettles := Connection.settles_of_connect h
  replace hconnection : closed.connection = o.connection.close := hconnection
  replace hlink : closed.link = o.link := hlink
  rw [← hconnection, ← hlink] at hsettles
  generalize ThingHub.clientId host credential.identity millis = name at hsettles
  generalize credential.transport folder o.connection.settings = transport at hsettles
  -- A session of its own begins unless there is no transport for the credential.
  have htrying : Relation.ReflTransGen Moves closed _ :=
    .head (.install call name hready) <| .single (.connecting call (Function.update_self _ _ _))
  cases hsettles with
  | refused reason =>
      exact ⟨_, .head hbegin (hclose.tail (.refuse call hready)), rfl, rfl, hleft _ rfl⟩
  | gaveUp transport reason =>
      have hover := htrying.tail (.giveUp call (Function.update_self _ _ _))
      exact ⟨_, .head hbegin (hclose.trans hover),
        Connection.abandon_install name closed.connection, rfl, hleft _ (by simp [go])⟩
  | opened transport =>
      have hopen := htrying.tail <| .confirm call (Function.update_self _ _ _)
        (Connection.confirm_install name closed.connection)
      have hreplayed := hopen.tail (.replay call link (Function.update_self _ _ _))
      exact ⟨_, .head hbegin (hclose.trans hreplayed), rfl, rfl, hleft _ (by simp [go])⟩

/-! ## All in sync at rest -/

theorem Ordered.running_of_atRest (h : o.Ordered) (hrest : o.AtRest) :
    ∀ s, o.connection.session = some s → s.running = true := by
  rintro ⟨g, running⟩ hs
  cases running with
  | true => rfl
  | false =>
      obtain ⟨call, hworks⟩ := h.tried g hs
      simp [Overlap.works, hrest call] at hworks

theorem atRest_of_two (hzero : o.calls 0 = none) (hone : o.calls 1 = none)
    (hother : ∀ call, call ≠ 0 → call ≠ 1 → o.calls call = none) : o.AtRest
  | 0 => hzero
  | 1 => hone
  | call + 2 => hother (call + 2) (by omega) (by omega)

theorem AtRest.not_has (hrest : o.AtRest) : ¬Has o.calls kind := by
  rintro ⟨call, p, hcall, -⟩
  cases (hrest call).symm.trans hcall

theorem InTime.written (h : InTime o.calls o.connection.session o.stateBy o.booksBy)
    (hrest : o.AtRest) (hrunning : ∀ s, o.connection.session = some s → s.running = true) :
    o.stateBy = o.connection.session.map (·.generation) ∧
      o.booksBy.isSome = o.connection.session.isSome := by
  cases hs : o.connection.session with
  | none =>
      have hstate := (h.stateGone hs).resolve_right hrest.not_has
      have hbooks := (h.booksGone hs).resolve_right hrest.not_has
      simp [hstate, hbooks]
  | some s =>
      obtain ⟨g, running⟩ := s
      obtain rfl : running = true := hrunning _ hs
      have hstate := h.state g hs
      have hbooks := (h.books g hs).resolve_right hrest.not_has
      simp [hstate, hbooks]

/-- What every run from a connection without a session keeps. -/
theorem kept_of_moves {first : Overlap η σ} (hrun : Relation.ReflTransGen Moves first o)
    (hordered : first.Ordered)
    (hrecorded : Recorded first.connection first.stateBy first.booksBy)
    (htime : first.amiss = false →
      InTime first.calls first.connection.session first.stateBy first.booksBy) :
    o.Ordered ∧ Recorded o.connection o.stateBy o.booksBy ∧
      (o.amiss = false → InTime o.calls o.connection.session o.stateBy o.booksBy) := by
  induction hrun with
  | refl => exact ⟨hordered, hrecorded, htime⟩
  | tail _ hmove ih =>
      obtain ⟨ho, hr, ht⟩ := ih
      exact ⟨hmove.ordered ho, hmove.recorded ho hr, hmove.inTime ho ht⟩

/-- However connects and closes overlap: when none is in progress, all is in sync just when
the state was last written for the session that is installed, or by a close if there is none,
and what is booked was last written by a replay just when a session is installed, or nothing
is registered. So it is whenever no write went amiss. -/
theorem inSync_iff_last_writes {c : Connection η} (hsession : c.session = none) (hsync : c.InSync)
    {s : σ} (hrun : Relation.ReflTransGen Moves (Overlap.start c s) o) (hrest : o.AtRest) :
    (o.connection.InSync ↔
      o.stateBy = o.connection.session.map (·.generation) ∧
        (o.booksBy.isSome = o.connection.session.isSome ∨
          ∀ pattern, o.connection.registry.isSubscribed pattern = false)) ∧
    (o.amiss = false → o.connection.InSync) := by
  obtain ⟨hstate, hbooked⟩ : c.state.current = .disconnected ∧
      c.registry.onBroker = [] ∧ c.registry.pending = [] := by
    simpa [Connection.InSync, hsession] using hsync
  have hrecorded : Recorded c none none :=
    ⟨iff_of_true rfl hstate, fun g hs => (nomatch hsession.symm.trans hs),
      Registry.booked_eq_empty_iff.mpr hbooked⟩
  have htime : InTime (fun _ => none) c.session none none :=
    inTime_gone hsession (.inl rfl) (.inl rfl)
  obtain ⟨ho, hr, ht⟩ := kept_of_moves hrun (ordered_start hsession s) hrecorded fun _ => htime
  have hrunning := ho.running_of_atRest hrest
  have hiff := hr.inSync_iff hrunning
  refine ⟨hiff, fun hamiss => hiff.mpr ?_⟩
  obtain ⟨hstate, hbooks⟩ := (ht hamiss).written hrest hrunning
  exact ⟨hstate, .inl hbooks⟩

/-- A close takes the session of a connect that still tries, and the connect heeds it. The
next connect is rejected until it gives up, and the one after it comes through, with room for
half of its replay. -/
theorem inSync_iff_last_writes_cancelled_connect :
    let c : Connection Nat := ((Connection.new .default).use Room.link (.subscribe "a" 0) none).1
    c.session = none ∧ c.InSync ∧
      ∃ o, Relation.ReflTransGen Moves (Overlap.start c (some 1)) o ∧ o.AtRest ∧
        o.amiss = false ∧ o.connection.session = some ⟨3, true⟩ ∧
        o.connection.isConnected = true ∧ ("a" ∈ o.connection.registry.onBroker ∨
          "a" ∈ Entries.keys o.connection.registry.pending) := by
  intro c
  have hsync : c.InSync := ⟨rfl, rfl, rfl⟩
  have hpath : Relation.ReflTransGen Moves (Overlap.start c (some 1)) _ :=
    .head (.begin 0 .connect rfl) <|
    .head (.skip 0 rfl rfl) <|
    .head (.install 0 "one" rfl) <|
    .head (.begin 1 .close rfl) <|
    .head (.connecting 0 rfl) <|
    .head (.take 1 rfl rfl) <|
    .head (.heed 0 rfl (Set.mem_insert _ _)) <|
    .head (.abort 1 rfl) <|
    .head (.clear 1 rfl) <|
    .head (.disconnect 1 rfl) <|
    .head (.begin 0 .connect rfl) <|
    .head (.skip 0 rfl rfl) <|
    .head (.install 0 "two" rfl) <|
    .head (.connecting 0 rfl) <|
    .head (.giveUp 0 rfl) <|
    .head (.begin 0 .connect rfl) <|
    .head (.skip 0 rfl rfl) <|
    .head (.install 0 "three" rfl) <|
    .head (.connecting 0 rfl) <|
    .head (.confirm 0 rfl rfl) <|
    .single (.replay 0 Room.link rfl)
  obtain ⟨o, hrun, hrest, hamiss, hs, hsubscribed⟩ :
      ∃ o, Relation.ReflTransGen Moves (Overlap.start c (some 1)) o ∧ o.AtRest ∧
        o.amiss = false ∧ o.connection.session = some ⟨3, true⟩ ∧
        o.connection.registry.isSubscribed "a" = true := by
    refine ⟨_, hpath, atRest_of_two rfl rfl ?_, rfl, rfl, rfl⟩
    intro call hzero hone
    simp [go, hzero, hone, Overlap.start]
  have hend := (inSync_iff_last_writes rfl hsync hrun hrest).2 hamiss
  rw [Connection.InSync, hs] at hend
  exact ⟨rfl, hsync, o, hrun, hrest, hamiss, hs, hend.1, hend.2 "a" hsubscribed⟩

/-- A close takes the session and waits for its loop; a connect comes in between and runs to
its end; only then the close goes on. No call is left, the new session is installed, and yet
the state is disconnected and the pattern is neither at the broker nor owed to it. -/
theorem close_resumed_late_desynchronises :
    let c : Connection Nat := ((Connection.new .default).use Room.link (.subscribe "a" 0) none).1
    c.session = none ∧ c.InSync ∧
      ∃ o, Relation.ReflTransGen Moves (Overlap.start c (none : Room)) o ∧ o.AtRest ∧
        o.connection.session = some ⟨2, true⟩ ∧ o.connection.state.current = .disconnected ∧
        o.connection.registry.isSubscribed "a" = true ∧
        o.connection.registry.onBroker = [] ∧ o.connection.registry.pending = [] := by
  intro c
  have hpath : Relation.ReflTransGen Moves (Overlap.start c (none : Room)) _ :=
    .head (.begin 0 .connect rfl) <|
    .head (.skip 0 rfl rfl) <|
    .head (.install 0 "one" rfl) <|
    .head (.connecting 0 rfl) <|
    .head (.confirm 0 rfl rfl) <|
    .head (.replay 0 Room.link rfl) <|
    .head (.begin 1 .close rfl) <|
    .head (.take 1 rfl rfl) <|
    .head (.begin 0 .connect rfl) <|
    .head (.skip 0 rfl rfl) <|
    .head (.install 0 "two" rfl) <|
    .head (.connecting 0 rfl) <|
    .head (.confirm 0 rfl rfl) <|
    .head (.replay 0 Room.link rfl) <|
    .head (.halt 1 rfl rfl) <|
    .head (.clear 1 rfl) <|
    .single (.disconnect 1 rfl)
  refine ⟨rfl, ⟨rfl, rfl, rfl⟩, _, hpath, atRest_of_two rfl rfl ?_, rfl, rfl, rfl, rfl, rfl⟩
  intro call hzero hone
  simp [go, hzero, hone, Overlap.start]

/-- Two connects have both closed what was open. One comes through and replays; the other begins
a session in place of it, is rejected and gives up. No call is left and no session is installed,
and yet the pattern counts as one that the broker knows. -/
theorem giveUp_leaves_bookings :
    let c : Connection Nat := ((Connection.new .default).use Room.link (.subscribe "a" 0) none).1
    c.session = none ∧ c.InSync ∧
      ∃ o, Relation.ReflTransGen Moves (Overlap.start c (none : Room)) o ∧ o.AtRest ∧
        o.connection.session = none ∧ o.connection.state.current = .disconnected ∧
        o.connection.registry.onBroker = ["a"] := by
  intro c
  have hpath : Relation.ReflTransGen Moves (Overlap.start c (none : Room)) _ :=
    .head (.begin 0 .connect rfl) <|
    .head (.skip 0 rfl rfl) <|
    .head (.begin 1 .connect rfl) <|
    .head (.skip 1 rfl rfl) <|
    .head (.install 1 "one" rfl) <|
    .head (.connecting 1 rfl) <|
    .head (.confirm 1 rfl rfl) <|
    .head (.replay 1 Room.link rfl) <|
    .head (.install 0 "two" rfl) <|
    .head (.connecting 0 rfl) <|
    .single (.giveUp 0 rfl)
  refine ⟨rfl, ⟨rfl, rfl, rfl⟩, _, hpath, atRest_of_two rfl rfl ?_, rfl, rfl, rfl⟩
  intro call hzero hone
  simp [go, hzero, hone, Overlap.start]

end Overlap

end ThingHub
