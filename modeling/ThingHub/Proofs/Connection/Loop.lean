import Mathlib.Logic.Relation
import ThingHub.Connection.Loop
import ThingHub.Proofs.Connection.Connect
import ThingHub.Proofs.Registry.Bookings
import ThingHub.Registry.Scripted

/-! # The loop at work

After a connect the loop takes what the network brings, one outcome at a time, while calls
and handlers register and unregister patterns. As long as no close has begun, a connected
loop has every registered pattern booked, and a loop that is not connected has none. -/

namespace ThingHub

variable {η σ : Type}

/-! ## Published states -/

/-- The moves from one published state to the next. -/
inductive ConnectionState.Shifts : ConnectionState → ConnectionState → Prop
  | tried : Shifts .disconnected .connecting
  | accepted : Shifts .connecting .connected
  | failed : Shifts .connecting .disconnected
  | lost : Shifts .connected .disconnected

/-- Watchers hear of one move, or of nothing. -/
inductive StateTracker.Publishes (before : StateTracker) : StateTracker → Prop
  | nothing : before.Publishes before
  | shift {next : ConnectionState} :
      before.current.Shifts next → before.Publishes (before.set next)

namespace StateTracker

theorem set_eq_self {state : ConnectionState} {tracker : StateTracker}
    (h : tracker.current = state) : tracker.set state = tracker :=
  congrArg StateTracker.mk (Watched.update_eq_self (if_pos h))

theorem set_set (state : ConnectionState) (tracker : StateTracker) :
    (tracker.set state).set state = tracker.set state :=
  set_eq_self (current_set state tracker)

theorem publishes_set_disconnected (tracker : StateTracker) :
    tracker.Publishes (tracker.set .disconnected) := by
  cases h : tracker.current with
  | disconnected =>
      rw [set_eq_self h]
      exact .nothing
  | connecting => exact .shift (h ▸ .failed)
  | connected => exact .shift (h ▸ .lost)

theorem publishes_set_connecting {tracker : StateTracker}
    (h : tracker.current = .disconnected) : tracker.Publishes (tracker.set .connecting) :=
  .shift (h ▸ .tried)

theorem publishes_set_connected {tracker : StateTracker}
    (h : tracker.current ≠ .disconnected) : tracker.Publishes (tracker.set .connected) := by
  cases hc : tracker.current with
  | disconnected => exact absurd hc h
  | connecting => exact .shift (hc ▸ .accepted)
  | connected =>
      rw [set_eq_self hc]
      exact .nothing

end StateTracker

/-! ## Calls -/

/-- A call that registers or unregisters, by a program or by a running handler. -/
inductive Use (η : Type)
  | subscribe (pattern : String) (handler : η)
  | unsubscribe (pattern : String)

namespace Connection

def use (link : Link σ) (call : Use η) (c : Connection η) (s : σ) : Connection η × σ :=
  match call with
  | .subscribe pattern handler =>
    match c.subscribe link pattern handler s with
    | .error _ => (c, s)
    | .ok (_, c, s) => (c, s)
  | .unsubscribe pattern => (c.unsubscribe link pattern s).2

/-- Calls one after the other, each with a link of its own. -/
def useAll : List (Link σ × Use η) → Connection η → σ → Connection η × σ
  | [], c, s => (c, s)
  | (link, call) :: calls, c, s =>
    let done := c.use link call s
    useAll calls done.1 done.2

/-- Whatever delivering a message does to the connection, handlers do it by calls. -/
def Delivers (deliver : String → Bytes → Connection η → σ → Connection η × σ) : Prop :=
  ∀ topic payload c s, ∃ calls, deliver topic payload c s = c.useAll calls s

/-- Handlers that answer a message with calls, in the order in which they registered. -/
def handle (link : Link σ) (react : η → String → Bytes → List (Use η)) (topic : String)
    (payload : Bytes) (c : Connection η) (s : σ) : Connection η × σ :=
  let calls := (c.registry.recipients topic).flatMap (react ·.handler topic payload)
  c.useAll (calls.map (link, ·)) s

theorem delivers_handle (link : Link σ) (react : η → String → Bytes → List (Use η)) :
    Delivers (handle link react) :=
  fun _ _ _ _ => ⟨_, rfl⟩

end Connection

/-! ## What calls keep -/

/-- What a reachable registry keeps while all calls reach the broker, or none of them does. -/
structure Registry.Kept (linked : Bool) (before after : Registry η) : Prop where
  reachable : after.Reachable
  full : linked = true → before.booked = before.registered → after.booked = after.registered
  clear : linked = false → before.booked = ∅ → after.booked = ∅

namespace Registry

variable {linked : Bool} {a b c : Registry η}

theorem Reachable.kept (ha : a.Reachable) : Kept linked a a :=
  ⟨ha, fun _ h => h, fun _ h => h⟩

theorem Kept.trans (hab : Kept linked a b) (hbc : Kept linked b c) : Kept linked a c where
  reachable := hbc.reachable
  full hl h := hbc.full hl (hab.full hl h)
  clear hl h := hbc.clear hl (hab.clear hl h)

theorem Reachable.kept_of_subscribe (ha : a.Reachable) {link : Option (Link σ)} {text : String}
    {handler : η} {s s' : σ} {id : HandlerId}
    (h : a.subscribe link text handler s = .ok (id, b, s')) : Kept link.isSome a b where
  reachable := .subscribe ha h
  full hl hfull := by
    rw [booked_of_subscribe h, if_pos hl, hfull, registered_of_subscribe h]
  clear hl hclear := by
    rw [booked_of_subscribe h, if_neg (by simp [hl]), hclear]

theorem Reachable.kept_unsubscribe (ha : a.Reachable) (link : Option (Link σ)) (text : String)
    (s : σ) : Kept linked a (a.unsubscribe link text s).2.1 := by
  obtain ⟨hregistered, hbooked⟩ := ha.tidy.unsubscribe_eq link text s
  refine ⟨.unsubscribe link text s ha, ?_, ?_⟩
  · intro _ hfull
    rw [hbooked, hfull, hregistered]
  · intro _ hclear
    rw [hbooked, hclear, Set.empty_sdiff]

theorem Reachable.kept_flushPending (ha : a.Reachable) (link : Link σ) (s : σ) :
    Kept linked a (a.flushPending link s).2.1 where
  reachable := .flushPending link s ha
  full _ hfull := by rw [booked_flushPending, hfull, registered_flushPending]
  clear _ hclear := by rw [booked_flushPending, hclear]

end Registry

namespace Connection

/-- The registry changed as calls change it, and nothing else did. -/
def Served (before after : Connection η) : Prop :=
  ∃ registry, after = { before with registry := registry } ∧
    Registry.Kept before.isUsable before.registry registry

variable {a b c : Connection η}

theorem Served.trans (hab : Served a b) (hbc : Served b c) : Served a c := by
  obtain ⟨registry, rfl, hab⟩ := hab
  obtain ⟨registry', rfl, hbc⟩ := hbc
  exact ⟨registry', rfl, hab.trans hbc⟩

theorem Served.reachable (h : Served a b) : b.registry.Reachable := by
  obtain ⟨registry, rfl, hkept⟩ := h
  exact hkept.reachable

theorem Served.session_eq (h : Served a b) : b.session = a.session := by
  obtain ⟨registry, rfl, -⟩ := h
  rfl

theorem isSome_link? (link : Link σ) (c : Connection η) :
    (c.link? link).isSome = c.isUsable := by
  unfold link?
  split <;> simp_all

theorem served_use (hc : c.registry.Reachable) (link : Link σ) (call : Use η) (s : σ) :
    Served c (c.use link call s).1 := by
  cases call with
  | subscribe pattern handler =>
      rw [use, subscribe]
      cases h : c.registry.subscribe (c.link? link) pattern handler s with
      | error reason => exact ⟨c.registry, rfl, hc.kept⟩
      | ok done => exact ⟨done.2.1, rfl, isSome_link? link c ▸ hc.kept_of_subscribe h⟩
  | unsubscribe pattern => exact ⟨_, rfl, hc.kept_unsubscribe (c.link? link) pattern s⟩

theorem served_useAll (calls : List (Link σ × Use η)) (hc : c.registry.Reachable) (s : σ) :
    Served c (c.useAll calls s).1 := by
  induction calls generalizing c s with
  | nil => exact ⟨c.registry, rfl, hc.kept⟩
  | cons first rest ih =>
      obtain ⟨link, call⟩ := first
      have hfirst := served_use hc link call s
      exact hfirst.trans (ih hfirst.reachable (c.use link call s).2)

theorem Delivers.served {deliver : String → Bytes → Connection η → σ → Connection η × σ}
    (hd : Delivers deliver) (hc : c.registry.Reachable) (topic : String) (payload : Bytes)
    (s : σ) : Served c (deliver topic payload c s).1 := by
  obtain ⟨calls, heq⟩ := hd topic payload c s
  rw [heq]
  exact served_useAll calls hc s

theorem served_flushPending (hc : c.registry.Reachable) (link : Link σ) (s : σ) :
    Served c (c.flushPending link s).1 :=
  ⟨_, rfl, hc.kept_flushPending link s⟩

/-! ## Runs of the loop -/

/-- Where the loop stands: after so many failures in a row it asks the network or waits
before it connects again, or it is over. -/
inductive Place
  | polling (failures : Nat)
  | waiting (failures : Nat)
  | over

end Connection

def LoopState.place : LoopState → Connection.Place
  | .running failures => .polling failures
  | .over => .over

/-- A connection with the loop that drives it. -/
structure Driven (η σ : Type) where
  connection : Connection η
  link : σ
  place : Connection.Place

namespace Driven

open Connection

/-- A close has begun: it has taken the session and told the loop to stop. -/
def Closing (driven : Driven η σ) : Prop := driven.connection.session = none

/-- One call, one outcome of the network, or one step of a close. The loop notices a close
when an outcome fails, when its goodbye has left, or while it waits. -/
inductive Advances : Driven η σ → Driven η σ → Prop
  | called (link : Link σ) (call : Use η) (c : Connection η) (s : σ) (place : Place) :
      Advances ⟨c, s, place⟩ ⟨(c.use link call s).1, (c.use link call s).2, place⟩
  | polled (link : Link σ) (deliver : String → Bytes → Connection η → σ → Connection η × σ)
      (polled : Polled) {failures : Nat} {next : LoopState} {c c' : Connection η} {s s' : σ} :
      Delivers deliver → (polled = .failed ∨ polled = .disconnectSent → c.session = none) →
      c.turn link deliver c.session.isNone false polled failures s = (next, c', s') →
      Advances ⟨c, s, .polling failures⟩ ⟨c', s', next.place⟩
  | lost {failures : Nat} {c : Connection η} {s : σ} {session : Session} :
      c.session = some session →
      Advances ⟨c, s, .polling failures⟩ ⟨c.lose, s, .waiting (failures + 1)⟩
  | retried (failures : Nat) (c : Connection η) (s : σ) :
      Advances ⟨c, s, .waiting failures⟩ ⟨c.setState .connecting, s, .polling failures⟩
  | closed {c : Connection η} {s : σ} {place : Place} {session : Session} :
      c.session = some session → Advances ⟨c, s, place⟩ ⟨c.takeSession.2, s, place⟩
  | noticed {failures : Nat} {c : Connection η} {s : σ} :
      c.session = none →
      Advances ⟨c, s, .waiting failures⟩ ⟨c.setState .disconnected, s, .over⟩

end Driven

namespace Connection

variable {a b c : Connection η}

/-! ## One outcome -/

/-- The ways a turn can go as long as losing the connection is left aside. -/
inductive Turned (c : Connection η) : LoopState → Connection η → Prop
  | served {c' : Connection η} (failures : Nat) : Served c c' → Turned c (.running failures) c'
  | accepted {σ : Type} {c' : Connection η} (link : Link σ) (s : σ) :
      Served ((c.setState .connected).replayAll link s).1 c' → Turned c (.running 0) c'
  | ended : c.session = none → Turned c .over (c.setState .disconnected)

theorem turned_turn
    {deliver : String → Bytes → Connection η → σ → Connection η × σ} {polled : Polled}
    (hd : Delivers deliver) (hc : c.registry.Reachable)
    (hstop : polled = .failed ∨ polled = .disconnectSent → c.session = none)
    (link : Link σ) (failures : Nat) (s : σ) :
    Turned c (c.turn link deliver c.session.isNone false polled failures s).1
      (c.turn link deliver c.session.isNone false polled failures s).2.1 := by
  have hflushed (n : Nat) : Turned c (.running n) (c.flushPending link s).1 :=
    .served n (served_flushPending hc link s)
  cases polled with
  | message topic payload =>
      have hdelivered := hd.served hc topic payload s
      have hflush := served_flushPending hdelivered.reachable link (deliver topic payload c s).2
      exact .served 0 (hdelivered.trans hflush)
  | answered code =>
      by_cases hcode : code = .success
      · subst hcode
        have hreplayed : ((c.setState .connected).replayAll link s).1.registry.Reachable :=
          .replayAll link s hc
        exact .accepted link s (served_flushPending hreplayed link _)
      · have hturn : c.turn link deliver c.session.isNone false (.answered code) failures s =
            (.running 0, c.flushPending link s) := by
          cases code <;> first | rfl | contradiction
        rw [hturn]
        exact hflushed 0
  | disconnectSent => exact .ended (hstop (.inr rfl))
  | other => exact hflushed failures
  | failed =>
      have hnone := hstop (.inl rfl)
      simp only [turn, hnone, Option.isNone_none, if_true]
      exact .ended hnone

theorem turned_of_turn {link : Link σ}
    {deliver : String → Bytes → Connection η → σ → Connection η × σ} {polled : Polled}
    {failures : Nat} {next : LoopState} {s s' : σ} (hd : Delivers deliver)
    (hc : c.registry.Reachable)
    (hstop : polled = .failed ∨ polled = .disconnectSent → c.session = none)
    (hturn : c.turn link deliver c.session.isNone false polled failures s = (next, b, s')) :
    Turned c next b := by
  have hturned := turned_turn hd hc hstop link failures s
  rwa [hturn] at hturned

/-- A turn whose outcome fails has two halves, before and after its wait: the connection is
lost, and then it is tried again or the close is noticed. -/
theorem turn_failed (link : Link σ)
    (deliver : String → Bytes → Connection η → σ → Connection η × σ) (stoppedWaiting : Bool)
    (failures : Nat) (c : Connection η) (s : σ) :
    c.turn link deliver false stoppedWaiting .failed failures s =
      if stoppedWaiting then (.over, c.lose.setState .disconnected, s)
      else (.running (failures + 1), c.lose.setState .connecting, s) := by
  cases stoppedWaiting <;> rfl

theorem Turned.session_eq {next : LoopState} (h : Turned a next b) : b.session = a.session := by
  cases h with
  | served failures hs => exact hs.session_eq
  | accepted link s hs => exact hs.session_eq
  | ended _ => rfl

theorem Turned.ne_over {next : LoopState} (h : Turned a next b) (hsession : a.session ≠ none) :
    next ≠ .over := by
  cases h with
  | served failures hs => exact nofun
  | accepted link s hs => exact nofun
  | ended hnone => exact absurd hnone hsession

/-! ## What the loop keeps -/

/-- The published states that go with a place. -/
def Place.Allows : Place → ConnectionState → Prop
  | .polling _, state => state ≠ .disconnected
  | .waiting _, state => state = .disconnected
  | .over, state => state = .disconnected

/-- All is booked while connected, and nothing while not. Once a close has begun calls do
not reach the broker any more, so the first holds only until then. -/
structure Steady (place : Place) (c : Connection η) : Prop where
  reachable : c.registry.Reachable
  usable : c.session ≠ none → c.hasClient = true
  full : c.session ≠ none → c.isConnected = true → c.registry.booked = c.registry.registered
  clear : place ≠ .over → c.isConnected = false → c.registry.booked = ∅
  allows : place.Allows c.state.current

@[simp] theorem isConnected_setState (state : ConnectionState) (c : Connection η) :
    (c.setState state).isConnected = decide (state = .connected) := by
  simp [isConnected, setState, StateTracker.isConnected, StateTracker.current_set]

theorem Served.state_eq (h : Served a b) : b.state = a.state := by
  obtain ⟨registry, rfl, -⟩ := h
  rfl

theorem Steady.served {place : Place} (h : a.Steady place) (hs : Served a b) :
    b.Steady place := by
  obtain ⟨registry, rfl, hkept⟩ := hs
  refine ⟨hkept.reachable, h.usable, ?_, ?_, h.allows⟩
  · intro hsession hconnected
    have husable : a.isUsable = true := Bool.and_eq_true_iff.mpr ⟨hconnected, h.usable hsession⟩
    exact hkept.full husable (h.full hsession hconnected)
  · intro hplace hconnected
    have husable : a.isUsable = false := Bool.and_eq_false_imp.mpr fun ht =>
      absurd (ht.symm.trans hconnected) (by decide)
    exact hkept.clear husable (h.clear hplace hconnected)

theorem Steady.polling {m n : Nat} (h : a.Steady (.polling m)) : a.Steady (.polling n) where
  reachable := h.reachable
  usable := h.usable
  full := h.full
  clear _ := h.clear nofun
  allows := h.allows

theorem Steady.booked_once {place : Place} (h : a.Steady place) (hsession : a.session ≠ none)
    (hconnected : a.isConnected = true) {pattern : String}
    (hp : a.registry.isSubscribed pattern = true) :
    (pattern ∈ a.registry.onBroker ∧ pattern ∉ Entries.keys a.registry.pending) ∨
      (pattern ∈ Entries.keys a.registry.pending ∧ pattern ∉ a.registry.onBroker) :=
  h.reachable.tidy.xor_of_booked_eq (h.full hsession hconnected) hp

theorem Steady.unbooked {place : Place} (h : a.Steady place) (hplace : place ≠ .over)
    (hconnected : a.isConnected = false) :
    a.registry.onBroker = [] ∧ a.registry.pending = [] :=
  Registry.booked_eq_empty_iff.mp (h.clear hplace hconnected)

/-- A replay on an accepted connect books all that is registered. -/
theorem steady_replayAll (c : Connection η) (hr : c.registry.Reachable)
    (husable : c.session ≠ none → c.hasClient = true) (hstate : c.state.current = .connected)
    (link : Link σ) (s : σ) (n : Nat) : (c.replayAll link s).1.Steady (.polling n) where
  reachable := .replayAll link s hr
  usable := husable
  full _ _ := Registry.booked_replayAll link c.registry s
  clear _ hconnected := by
    have htrue : c.isConnected = true := decide_eq_true hstate
    exact absurd (htrue.symm.trans hconnected) (by decide)
  allows hd := absurd (hstate.symm.trans hd) (by decide)

theorem Steady.accepted {m : Nat} (h : a.Steady (.polling m)) (link : Link σ) (s : σ) (n : Nat) :
    ((a.setState .connected).replayAll link s).1.Steady (.polling n) :=
  steady_replayAll (a.setState .connected) h.reachable h.usable
    (StateTracker.current_set .connected a.state) link s n

theorem Steady.ended {place : Place} (h : a.Steady place) (hnone : a.session = none) :
    (a.setState .disconnected).Steady .over where
  reachable := h.reachable
  usable := h.usable
  full hsession := absurd hnone hsession
  clear hplace := absurd rfl hplace
  allows := StateTracker.current_set .disconnected a.state

theorem Steady.turned {n : Nat} {next : LoopState} (h : a.Steady (.polling n))
    (ht : Turned a next b) : b.Steady next.place := by
  cases ht with
  | served failures hs => exact h.polling.served hs
  | accepted link s hs => exact (h.accepted link s 0).served hs
  | ended hnone => exact h.ended hnone

theorem Steady.lost {m n : Nat} (h : a.Steady (.polling m)) : a.lose.Steady (.waiting n) where
  reachable := .clearBroker h.reachable
  usable := h.usable
  full _ hconnected := by
    have hfalse := isConnected_setState .disconnected a
    exact absurd (hfalse.symm.trans hconnected) (by decide)
  clear _ _ := Registry.booked_clearBroker a.registry
  allows := StateTracker.current_set .disconnected a.state

theorem Steady.retried {m n : Nat} (h : a.Steady (.waiting m)) :
    (a.setState .connecting).Steady (.polling n) where
  reachable := h.reachable
  usable := h.usable
  full _ hconnected := by
    have hfalse := isConnected_setState .connecting a
    exact absurd (hfalse.symm.trans hconnected) (by decide)
  clear _ _ := by
    have hcurrent : a.state.current = .disconnected := h.allows
    exact h.clear nofun (by simp [isConnected, StateTracker.isConnected, hcurrent])
  allows hd := by
    have hset := StateTracker.current_set .connecting a.state
    exact absurd (hset.symm.trans hd) (by decide)

theorem Steady.closed {place : Place} (h : a.Steady place) : a.takeSession.2.Steady place where
  reachable := h.reachable
  usable hsession := absurd rfl hsession
  full hsession := absurd rfl hsession
  clear := h.clear
  allows := h.allows

end Connection

namespace Driven

open Connection

variable {driven next : Driven η σ}

theorem Advances.steady (ha : Advances driven next)
    (h : driven.connection.Steady driven.place) : next.connection.Steady next.place := by
  cases ha with
  | called link call c s place => exact h.served (served_use h.reachable link call s)
  | @polled link deliver polled failures _ c _ s _ hd hstop hturn =>
      exact h.turned (turned_of_turn hd h.reachable hstop hturn)
  | lost _ => exact h.lost
  | retried failures c s => exact h.retried
  | closed _ => exact h.closed
  | noticed hnone => exact h.ended hnone

/-- A step other than the first one of a close. -/
def Works (driven next : Driven η σ) : Prop :=
  Advances driven next ∧ next ≠ { driven with connection := driven.connection.takeSession.2 }

theorem Works.session_eq (hw : Works driven next)
    (h : driven.connection.Steady driven.place) :
    next.connection.session = driven.connection.session := by
  obtain ⟨ha, hne⟩ := hw
  cases ha with
  | called link call c s place => exact (served_use h.reachable link call s).session_eq
  | @polled link deliver polled failures _ c _ s _ hd hstop hturn =>
      exact (turned_of_turn hd h.reachable hstop hturn).session_eq
  | lost _ => rfl
  | retried failures c s => rfl
  | closed _ => exact absurd rfl hne
  | noticed _ => rfl

/-- The session is there and the loop is not over. -/
def Going (driven : Driven η σ) : Prop := ¬driven.Closing ∧ driven.place ≠ .over

/-- Only a close ends the loop. -/
theorem Works.going (hw : Works driven next) (h : driven.connection.Steady driven.place)
    (hg : driven.Going) : next.Going := by
  obtain ⟨hopen, hplace⟩ := hg
  refine ⟨fun hclosing => hopen ((hw.session_eq h).symm.trans hclosing), ?_⟩
  cases hw.1 with
  | called link call c s place => exact hplace
  | @polled link deliver polled failures state c _ s _ hd hstop hturn =>
      have hturned := turned_of_turn hd h.reachable hstop hturn
      cases state with
      | running failures => exact nofun
      | _ => exact absurd rfl (hturned.ne_over hopen)
  | lost _ => exact nofun
  | retried failures c s => exact nofun
  | closed _ => exact hplace
  | noticed hnone => exact absurd hnone hopen

/-- Each step publishes one move of the state at most. -/
theorem Advances.publishes (ha : Advances driven next)
    (h : driven.connection.Steady driven.place) :
    driven.connection.state.Publishes next.connection.state := by
  cases ha with
  | called link call c s place =>
      rw [(served_use h.reachable link call s).state_eq]
      exact .nothing
  | @polled link deliver polled failures _ c _ s _ hd hstop hturn =>
      cases turned_of_turn hd h.reachable hstop hturn with
      | served failures hs =>
          rw [hs.state_eq]
          exact .nothing
      | accepted link s hs =>
          rw [hs.state_eq]
          exact StateTracker.publishes_set_connected h.allows
      | ended _ => exact StateTracker.publishes_set_disconnected c.state
  | lost _ => exact StateTracker.publishes_set_disconnected _
  | retried failures c s => exact StateTracker.publishes_set_connecting h.allows
  | closed _ => exact .nothing
  | noticed _ => exact StateTracker.publishes_set_disconnected _

end Driven

namespace Connection

variable {c : Connection η}

/-! ## Beginning and ending -/

/-- What a close does once the loop is over. -/
def finish (c : Connection η) : Connection η :=
  c.clearBroker.setState .disconnected

/-- How a connection stands after a close: nothing is booked, and what was registered
still is. -/
structure Closed (before after : Connection η) : Prop where
  state : after.state.current = .disconnected
  publishes : before.state.Publishes after.state
  onBroker : after.registry.onBroker = []
  pending : after.registry.pending = []
  patterns : after.registry.patterns = before.registry.patterns
  tree : after.registry.tree = before.registry.tree

theorem closed_finish (c : Connection η) : Closed c c.finish where
  state := StateTracker.current_set .disconnected c.state
  publishes := StateTracker.publishes_set_disconnected c.state
  onBroker := rfl
  pending := rfl
  patterns := rfl
  tree := rfl

theorem close_of_none (h : c.session = none) : c.close = c.takeSession.2 := by
  simp [close, takeSession, h]

/-- A close that nothing overlaps. -/
theorem close_eq_finish {session : Session} (h : c.session = some session) :
    c.close = (c.takeSession.2.setState .disconnected).finish := by
  simp only [close, takeSession, h, finish, endLoop, clearBroker, setState,
    StateTracker.set_set]
  split <;> simp [StateTracker.set_set]

theorem closed_close {session : Session} (h : c.session = some session) : Closed c c.close := by
  rw [close_eq_finish h]
  have hfinish := closed_finish (c.takeSession.2.setState .disconnected)
  refine ⟨hfinish.state, ?_, rfl, rfl, rfl, rfl⟩
  have hstate : (c.takeSession.2.setState .disconnected).finish.state =
      c.state.set .disconnected := StateTracker.set_set .disconnected c.state
  rw [hstate]
  exact StateTracker.publishes_set_disconnected c.state

theorem reachable_close (hc : c.registry.Reachable) : c.close.registry.Reachable := by
  cases h : c.session with
  | none =>
      rw [close_of_none h]
      exact hc
  | some session =>
      rw [close_eq_finish h]
      exact .clearBroker hc

/-- A connect that succeeds closes, opens a session and replays. -/
theorem eq_replayAll_of_connect {link : Link σ} {folder : Folder} {host : String}
    {millis turns : Nat} {attempts : Nat → Attempt} {credential : Credential}
    {window : Duration} {s₀ s : σ} {start : Connection η}
    (h : start.connect link folder host millis turns attempts credential window s₀ =
      .settled (.ok ()) c s) :
    (c, s) = (start.close.opened (ThingHub.clientId host credential.identity millis)).replayAll
      link s₀ := by
  have hsettles := settles_of_connect h
  generalize credential.transport folder start.settings = transport at hsettles
  cases hsettles
  rfl

/-- A connect that succeeds leaves a connection in which all is booked. -/
theorem steady_of_connect {link : Link σ} {folder : Folder} {host : String} {millis turns : Nat}
    {attempts : Nat → Attempt} {credential : Credential} {window : Duration} {s₀ s : σ}
    {start : Connection η} (hr : start.registry.Reachable)
    (h : start.connect link folder host millis turns attempts credential window s₀ =
      .settled (.ok ()) c s) : c.Steady (.polling 0) := by
  obtain ⟨rfl, rfl⟩ := Prod.mk.inj (eq_replayAll_of_connect h)
  generalize ThingHub.clientId host credential.identity millis = name
  have hstate : (start.close.opened name).state.current = .connected :=
    StateTracker.current_set .connected (start.close.state.set .connecting)
  exact steady_replayAll (start.close.opened name) (reachable_close hr) (fun _ => rfl) hstate
    link s₀ 0

end Connection

namespace Driven

open Connection

variable {driven : Driven η σ}

/-! ## Runs of the loop, to their end -/

theorem steady_of_advances {start : Driven η σ} (hrun : Relation.ReflTransGen Advances start driven)
    (h : start.connection.Steady start.place) : driven.connection.Steady driven.place := by
  induction hrun with
  | refl => exact h
  | tail _ hstep ih => exact hstep.steady ih

/-- A close that nothing overlaps is a run: the session is taken, the goodbye leaves and ends
the loop, and the rest is cleared. -/
theorem exists_run_of_close (link : Link σ) (failures : Nat) {c : Connection η} {session : Session}
    (h : c.session = some session) (s : σ) :
    ∃ ended, Relation.ReflTransGen Advances ⟨c, s, .polling failures⟩ ⟨ended, s, .over⟩ ∧
      c.close = ended.finish := by
  refine ⟨c.takeSession.2.setState .disconnected, ?_, close_eq_finish h⟩
  have hclosed : Advances ⟨c, s, .polling failures⟩ ⟨c.takeSession.2, s, .polling failures⟩ :=
    .closed h
  have hended : Advances ⟨c.takeSession.2, s, .polling failures⟩
      ⟨c.takeSession.2.setState .disconnected, s, .over⟩ :=
    .polled link _ .disconnectSent (delivers_handle link fun _ _ _ => []) (fun _ => rfl) rfl
  exact .tail (.single hclosed) hended

/-- A turn whose outcome fails is a run: the connection is lost, and after the wait it is tried
again, unless a close has taken the session meanwhile and the loop notices. -/
theorem exists_run_of_failed (link : Link σ)
    (deliver : String → Bytes → Connection η → σ → Connection η × σ) (failures : Nat)
    {c : Connection η} {session : Session} (h : c.session = some session) (s : σ) :
    let again := c.turn link deliver false false .failed failures s
    let ended := c.turn link deliver false true .failed failures s
    Relation.ReflTransGen Advances ⟨c, s, .polling failures⟩
        ⟨again.2.1, again.2.2, again.1.place⟩ ∧
      Relation.ReflTransGen Advances ⟨c, s, .polling failures⟩
        ⟨ended.2.1.takeSession.2, ended.2.2, ended.1.place⟩ := by
  intro again ended
  have hlost : Advances ⟨c, s, .polling failures⟩ ⟨c.lose, s, .waiting (failures + 1)⟩ := .lost h
  have hclosed : Advances ⟨c.lose, s, .waiting (failures + 1)⟩
      ⟨c.lose.takeSession.2, s, .waiting (failures + 1)⟩ := .closed h
  simp only [again, ended, turn_failed]
  exact ⟨.tail (.single hlost) (.retried _ _ _),
    .tail (.tail (.single hlost) hclosed) (.noticed rfl)⟩

/-- From a connect on and as long as no close begins, the loop goes on. While connected every
registered pattern is booked in exactly one way, while not connected none is booked. -/
theorem booked_of_works {link : Link σ} {folder : Folder} {host : String} {millis turns : Nat}
    {attempts : Nat → Attempt} {credential : Credential} {window : Duration} {s₀ s : σ}
    {start c : Connection η} (hr : start.registry.Reachable)
    (hconnect : start.connect link folder host millis turns attempts credential window s₀ =
      .settled (.ok ()) c s)
    (hrun : Relation.ReflTransGen Works ⟨c, s, .polling 0⟩ driven) :
    let now := driven.connection
    ¬driven.Closing ∧ driven.place ≠ .over ∧
    (now.isConnected = true → ∀ pattern, now.registry.isSubscribed pattern = true →
      (pattern ∈ now.registry.onBroker ∧ pattern ∉ Entries.keys now.registry.pending) ∨
        (pattern ∈ Entries.keys now.registry.pending ∧ pattern ∉ now.registry.onBroker)) ∧
    (now.isConnected = false → now.registry.onBroker = [] ∧ now.registry.pending = []) := by
  intro now
  have hkept : now.Steady driven.place ∧ driven.Going := by
    induction hrun with
    | refl =>
        obtain ⟨rfl, rfl⟩ := Prod.mk.inj (eq_replayAll_of_connect hconnect)
        exact ⟨steady_of_connect hr hconnect, nofun, nofun⟩
    | tail _ hstep ih => exact ⟨hstep.1.steady ih.1, hstep.going ih.1 ih.2⟩
  obtain ⟨hsteady, hopen, hplace⟩ := hkept
  exact ⟨hopen, hplace, fun hconnected _ => hsteady.booked_once hopen hconnected,
    hsteady.unbooked hplace⟩

/-- From a connect on, whatever the network brings, whatever calls and handlers do and
whatever the links refuse: while connected every registered pattern is booked in exactly one
way, while not connected none is booked, and the published state makes one move at a time.
A close leaves nothing booked and all registered, at once as well as when calls and outcomes
come between its first step and its last. -/
theorem books_all_or_nothing {link : Link σ} {folder : Folder} {host : String}
    {millis turns : Nat} {attempts : Nat → Attempt} {credential : Credential}
    {window : Duration} {s₀ s : σ} {start c : Connection η} (hr : start.registry.Reachable)
    (hconnect : start.connect link folder host millis turns attempts credential window s₀ =
      .settled (.ok ()) c s)
    (hrun : Relation.ReflTransGen Advances ⟨c, s, .polling 0⟩ driven) :
    let now := driven.connection
    (¬driven.Closing → now.isConnected = true →
      ∀ pattern, now.registry.isSubscribed pattern = true →
        (pattern ∈ now.registry.onBroker ∧ pattern ∉ Entries.keys now.registry.pending) ∨
          (pattern ∈ Entries.keys now.registry.pending ∧ pattern ∉ now.registry.onBroker)) ∧
    (driven.place ≠ .over → now.isConnected = false →
      now.registry.onBroker = [] ∧ now.registry.pending = []) ∧
    (∀ next, Advances driven next → now.state.Publishes next.connection.state) ∧
    (¬driven.Closing → now.Closed now.close) ∧
    (driven.Closing → now.Closed now.finish) := by
  have hsteady := steady_of_advances hrun (steady_of_connect hr hconnect)
  refine ⟨?_, hsteady.unbooked, ?_, ?_, ?_⟩
  · exact fun hopen hconnected _ => hsteady.booked_once hopen hconnected
  · exact fun next hstep => hstep.publishes hsteady
  · intro hopen
    obtain ⟨session, hsession⟩ := Option.ne_none_iff_exists'.mp hopen
    exact closed_close hsession
  · exact fun _ => closed_finish driven.connection

/-- A loop that loses its connection, waits while a pattern is registered, is turned away,
and is accepted at last with too little room; then a handler registers one more. -/
theorem books_all_or_nothing_reconnect :
    let start : Connection Nat :=
      ((Connection.new .default).use Room.link (.subscribe "a" 0) none).1
    start.registry.Reachable ∧
      ∃ c, start.connect Room.link .empty "host" 0 1 (fun _ => ⟨.zero, .ok ()⟩)
          (.password "u" "p") .zero (some 5) = .settled (.ok ()) c (some 3) ∧
        ∃ driven, Relation.ReflTransGen Advances ⟨c, some 3, .polling 0⟩ driven ∧
          ¬driven.Closing ∧ driven.connection.isConnected = true ∧
          driven.connection.registry.onBroker = ["a"] ∧
          driven.connection.registry.patternTexts = ["a", "b", "c"] ∧
          ∀ pattern ∈ ["b", "c"], pattern ∈ Entries.keys driven.connection.registry.pending := by
  intro start
  have hr : start.registry.Reachable :=
    (served_use Registry.Reachable.empty Room.link (.subscribe "a" 0) none).reachable
  let deliver : String → Bytes → Connection Nat → Room → Connection Nat × Room :=
    handle Room.link fun handler _ _ => if handler = 0 then [.subscribe "c" 2] else []
  have hdeliver : Delivers deliver := delivers_handle _ _
  let c : Connection Nat :=
    ((start.close.opened (ThingHub.clientId "host" "u" 0)).replayAll Room.link (some 5)).1
  have hconnect : start.connect Room.link .empty "host" 0 1 (fun _ => ⟨.zero, .ok ()⟩)
      (.password "u" "p") .zero (some 5) = .settled (.ok ()) c (some 3) := rfl
  have hpath := Relation.ReflTransGen.head (Advances.lost rfl) <|
    .head (.called Room.link (.subscribe "b" 1) c.lose (some 3) (.waiting 1)) <|
    .head (.retried 1 _ _) <|
    .head (.polled Room.link deliver (.answered .notAuthorized) hdeliver (by simp) rfl) <|
    .head (.polled Room.link deliver (.answered .success) hdeliver (by simp) rfl) <|
    .single (.polled Room.link deliver (.message "a" []) hdeliver (by simp) rfl)
  obtain ⟨driven, hrun, hopen, hconnected, hon, htexts⟩ :
      ∃ driven, Relation.ReflTransGen Advances ⟨c, some 3, .polling 0⟩ driven ∧
        driven.connection.session = some ⟨1, true⟩ ∧ driven.connection.isConnected = true ∧
        driven.connection.registry.onBroker = ["a"] ∧
        driven.connection.registry.patternTexts = ["a", "b", "c"] :=
    ⟨_, hpath, by decide +kernel, by decide +kernel, by decide +kernel, by decide +kernel⟩
  have hclosing : ¬driven.Closing := ne_of_eq_of_ne hopen (Option.some_ne_none _)
  obtain ⟨hbooked, -⟩ := books_all_or_nothing hr hconnect hrun
  refine ⟨hr, c, hconnect, driven, hrun, hclosing, hconnected, hon, htexts, ?_⟩
  intro pattern hp
  have hsubscribed : driven.connection.registry.isSubscribed pattern = true := by
    apply Registry.isSubscribed_iff_mem_registered.mpr
    show pattern ∈ driven.connection.registry.patternTexts
    rw [htexts]
    exact List.mem_cons_of_mem _ hp
  rcases hbooked hclosing hconnected pattern hsubscribed with ⟨hcarried, -⟩ | ⟨howed, -⟩
  · rw [hon] at hcarried
    obtain rfl := List.mem_singleton.mp hcarried
    exact absurd hp (by decide)
  · exact howed

end Driven

end ThingHub
