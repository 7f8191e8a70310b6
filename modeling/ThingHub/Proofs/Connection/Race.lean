import ThingHub.Proofs.Connection.Loop

/-! # Subscribing while a connect is under way

To subscribe is to look whether there is a connection and then to register, with the link or
without one as it was seen. A connect is published first and replays afterwards. When both
come in between each other, what gets booked depends on who looked before whom. -/

namespace ThingHub

variable {η σ : Type}

/-! ## Subscribing in two steps -/

/-- A subscribe call that has looked at the connection and has not registered yet. -/
structure Look (η : Type) where
  pattern : String
  handler : η
  /-- There was a connection to send a request to. -/
  linked : Bool
  /-- How many connects had been accepted by then. -/
  seen : Nat

/-- What leaves a mark: a replay that has run, or a registration that was made, with what its
call had seen. -/
inductive Mark
  | replayed
  | registered (pattern : String) (linked : Bool) (seen : Nat)

namespace Connection

/-- The second step of a subscribe call: it registers with the link that it saw, or with
none. A pattern that is rejected leaves no mark. -/
def enter (link : Link σ) (look : Look η) (c : Connection η) (s : σ) :
    List Mark × Connection η × σ :=
  match c.registry.subscribe (if look.linked then some link else none) look.pattern
    look.handler s with
  | .error _ => ([], c, s)
  | .ok (_, registry, s) =>
    ([.registered look.pattern look.linked look.seen], { c with registry := registry }, s)

/-- Without anything in between, the two steps are one call. -/
theorem enter_eq_use (link : Link σ) (pattern : String) (handler : η) (seen : Nat)
    (c : Connection η) (s : σ) :
    (c.enter link ⟨pattern, handler, c.isUsable, seen⟩ s).2 =
      c.use link (.subscribe pattern handler) s := by
  simp only [enter, use, subscribe, link?]
  cases c.registry.subscribe (if c.isUsable = true then some link else none) pattern handler s <;>
    rfl

end Connection

/-! ## Calls and connects in between each other -/

/-- How far the loss of a connection has been dealt with. -/
inductive Loss
  | none
  | dropped
  | cleared

/-- A connection with the subscribe calls that are between their steps, the number of
connects accepted so far and those of them whose replay is still to come, and what was done,
the latest first. -/
structure Race (η σ : Type) where
  connection : Connection η
  link : σ
  calls : List (Look η)
  accepted : Nat
  due : List Nat
  loss : Loss
  log : List Mark

namespace Race

def start (c : Connection η) (s : σ) : Race η σ := ⟨c, s, [], 0, [], .none, []⟩

/-- One step of a subscribe call, of a connect, or of the loss of a connection, or a flush.
The loop accepts and loses connections one after the other, while the replay of a connect
may come at any time after it. -/
inductive Moves : Race η σ → Race η σ → Prop
  | look (pattern : String) (handler : η) (race : Race η σ) :
      Moves race { race with
        calls := ⟨pattern, handler, race.connection.isUsable, race.accepted⟩ :: race.calls }
  | enter {race : Race η σ} (before after : List (Look η)) (look : Look η) (link : Link σ) :
      race.calls = before ++ look :: after →
      Moves race { race with
        connection := (race.connection.enter link look race.link).2.1
        link := (race.connection.enter link look race.link).2.2
        calls := before ++ after
        log := (race.connection.enter link look race.link).1 ++ race.log }
  | accept {race : Race η σ} : race.loss = .none →
      Moves race { race with
        connection := race.connection.setState .connected
        accepted := race.accepted + 1
        due := (race.accepted + 1) :: race.due }
  | replay {race : Race η σ} {connect : Nat} (link : Link σ) : connect ∈ race.due →
      Moves race { race with
        connection := (race.connection.replayAll link race.link).1
        link := (race.connection.replayAll link race.link).2
        due := race.due.filter (· ≠ connect)
        log := .replayed :: race.log }
  | drop {race : Race η σ} : race.loss = .none →
      Moves race { race with
        connection := race.connection.setState .disconnected
        loss := .dropped }
  | clear {race : Race η σ} : race.loss = .dropped →
      Moves race { race with
        connection := race.connection.clearBroker
        loss := .cleared }
  | retry {race : Race η σ} : race.loss = .cleared →
      Moves race { race with
        connection := race.connection.setState .connecting
        loss := .none }
  | flush (link : Link σ) (race : Race η σ) :
      Moves race { race with
        connection := (race.connection.flushPending link race.link).1
        link := (race.connection.flushPending link race.link).2 }

/-- The replay of the latest connect has run. -/
def Replayed (race : Race η σ) : Prop := race.accepted ∉ race.due

end Race

/-! ## Registered in time -/

namespace Mark

/-- The patterns that are registered after some marks, the latest first. -/
def everRegistered (start : Set String) : List Mark → Set String
  | [] => start
  | .replayed :: log => everRegistered start log
  | .registered pattern _ _ :: log => insert pattern (everRegistered start log)

/-- The patterns that were registered when the latest replay ran, or with a link since.
Before any replay those of the beginning count. -/
def inTime (start : Set String) : List Mark → Set String
  | [] => start
  | .replayed :: log => everRegistered start log
  | .registered pattern true _ :: log => insert pattern (inTime start log)
  | .registered _ false _ :: log => inTime start log

/-- The marks since the latest replay. -/
def sinceReplay : List Mark → List Mark
  | [] => []
  | .replayed :: _ => []
  | .registered pattern linked seen :: log => .registered pattern linked seen :: sinceReplay log

/-- While every call since the latest replay has a link, all registrations are in time. -/
theorem inTime_eq_everRegistered {start : Set String} {log : List Mark}
    (h : ∀ pattern seen, .registered pattern false seen ∉ sinceReplay log) :
    inTime start log = everRegistered start log := by
  induction log with
  | nil => rfl
  | cons mark log ih =>
      cases mark with
      | replayed => rfl
      | registered pattern linked seen =>
          cases linked with
          | false => exact absurd List.mem_cons_self (h pattern seen)
          | true =>
              have hlog := ih fun pattern seen hm => h pattern seen (List.mem_cons_of_mem _ hm)
              rw [inTime, everRegistered, hlog]

end Mark

namespace Connection

/-- The two ways of entering. -/
inductive Entered (look : Look η) (c : Connection η) : List Mark → Connection η → Prop
  | rejected : Entered look c [] c
  | registered {registry : Registry η} :
      registry.registered = insert look.pattern c.registry.registered →
      registry.booked = (if look.linked then insert look.pattern c.registry.booked
        else c.registry.booked) →
      Entered look c [.registered look.pattern look.linked look.seen]
        { c with registry := registry }

theorem entered_enter (link : Link σ) (look : Look η) (c : Connection η) (s : σ) :
    Entered look c (c.enter link look s).1 (c.enter link look s).2.1 := by
  unfold enter
  cases h : c.registry.subscribe (if look.linked then some link else none) look.pattern
    look.handler s with
  | error reason => exact .rejected
  | ok done =>
      refine .registered (Registry.registered_of_subscribe h) ?_
      rw [Registry.booked_of_subscribe h]
      cases look.linked <;> rfl

end Connection

namespace Race

open Mark

variable {start : Set String} {race next : Race η σ}

/-- What is booked is what was registered in time, and calls without a link are older than
the latest connect. Both are of interest while connected only. -/
structure Accounted (start : Set String) (race : Race η σ) : Prop where
  client : race.connection.hasClient = true
  registered : race.connection.registry.registered = everRegistered start race.log
  loss : race.connection.isConnected = true → race.loss = .none
  past : ∀ look ∈ race.calls, look.seen ≤ race.accepted
  older : race.connection.isConnected = true →
    ∀ look ∈ race.calls, look.linked = false → look.seen < race.accepted
  booked : race.connection.isConnected = true → race.Replayed →
    race.connection.registry.booked = inTime start race.log
  late : race.connection.isConnected = true → race.Replayed →
    ∀ pattern seen, .registered pattern false seen ∈ sinceReplay race.log →
      seen < race.accepted

theorem accounted_start {c : Connection η} (hclient : c.hasClient = true)
    (hc : c.isConnected = false) (s : σ) :
    Accounted c.registry.registered (Race.start c s) where
  client := hclient
  registered := rfl
  loss _ := rfl
  past := by simp [Race.start]
  older := by simp [Race.start]
  booked hconnected := by
    have hfalse : c.isConnected = true := hconnected
    rw [hc] at hfalse
    cases hfalse
  late := by simp [Race.start, sinceReplay]

theorem Accounted.look (h : Accounted start race) (pattern : String) (handler : η) :
    Accounted start { race with
      calls := ⟨pattern, handler, race.connection.isUsable, race.accepted⟩ :: race.calls } where
  client := h.client
  registered := h.registered
  loss := h.loss
  past := List.forall_mem_cons.mpr ⟨Nat.le_refl _, h.past⟩
  older hconnected := by
    refine List.forall_mem_cons.mpr ⟨?_, h.older hconnected⟩
    intro hlinked
    have husable : race.connection.isUsable = true :=
      Bool.and_eq_true_iff.mpr ⟨hconnected, h.client⟩
    exact absurd (husable.symm.trans hlinked) (by decide)
  booked := h.booked
  late := h.late

theorem Accounted.enter {before after : List (Look η)} {look : Look η} {marks : List Mark}
    {c : Connection η} (h : Accounted start race) (hcalls : race.calls = before ++ look :: after)
    (he : race.connection.Entered look marks c) (s : σ) :
    Accounted start { race with
      connection := c, link := s, calls := before ++ after, log := marks ++ race.log } := by
  have hmem : ∀ other ∈ before ++ after, other ∈ race.calls := by
    intro other ho
    rw [hcalls]
    exact List.mem_append.mpr ((List.mem_append.mp ho).imp_right (List.mem_cons_of_mem look))
  have hlook : look ∈ race.calls := by
    rw [hcalls]
    exact List.mem_append_right before List.mem_cons_self
  cases he with
  | rejected =>
      exact ⟨h.client, h.registered, h.loss, fun other ho => h.past other (hmem other ho),
        fun hconnected other ho => h.older hconnected other (hmem other ho), h.booked, h.late⟩
  | registered hregistered hbooked =>
      refine ⟨h.client, ?_, h.loss, fun other ho => h.past other (hmem other ho),
        fun hconnected other ho => h.older hconnected other (hmem other ho), ?_, ?_⟩
      · rw [hregistered, h.registered]
        rfl
      · intro hconnected hreplayed
        rw [hbooked, h.booked hconnected hreplayed]
        cases look.linked <;> rfl
      · intro hconnected hreplayed pattern seen hm
        rcases List.mem_cons.mp hm with heq | hm
        · obtain ⟨-, hlinked, rfl⟩ := Mark.registered.inj heq
          exact h.older hconnected look hlook hlinked.symm
        · exact h.late hconnected hreplayed pattern seen hm

/-- An accepted connect makes every call that has looked so far older than it is, and owes
a replay. -/
theorem Accounted.accept (h : Accounted start race) (hloss : race.loss = .none) :
    Accounted start { race with
      connection := race.connection.setState .connected
      accepted := race.accepted + 1
      due := (race.accepted + 1) :: race.due } where
  client := h.client
  registered := h.registered
  loss _ := hloss
  past look hl := Nat.le_succ_of_le (h.past look hl)
  older _ look hl _ := Nat.lt_succ_of_le (h.past look hl)
  booked _ hreplayed := absurd List.mem_cons_self hreplayed
  late _ hreplayed := absurd List.mem_cons_self hreplayed

theorem Accounted.replay (h : Accounted start race) (link : Link σ) (connect : Nat) :
    Accounted start { race with
      connection := (race.connection.replayAll link race.link).1
      link := (race.connection.replayAll link race.link).2
      due := race.due.filter (· ≠ connect)
      log := .replayed :: race.log } where
  client := h.client
  registered := (Registry.registered_replayAll link race.connection.registry race.link).trans
    h.registered
  loss := h.loss
  past := h.past
  older := h.older
  booked _ _ := (Registry.booked_replayAll link race.connection.registry race.link).trans
    h.registered
  late _ _ _ _ hm := absurd hm List.not_mem_nil

/-- Without a connection there is nothing to account for but the registrations. -/
theorem Accounted.disconnected (h : Accounted start race) (c : Connection η)
    (hclient : c.hasClient = true)
    (hregistered : c.registry.registered = race.connection.registry.registered)
    (hfalse : c.isConnected = false) (loss : Loss) :
    Accounted start { race with connection := c, loss := loss } := by
  have hnot {P : Prop} (hconnected : c.isConnected = true) : P :=
    absurd (hfalse.symm.trans hconnected) (by decide)
  exact ⟨hclient, hregistered.trans h.registered, hnot, h.past, hnot, hnot, hnot⟩

theorem Accounted.flush (h : Accounted start race) (link : Link σ) :
    Accounted start { race with
      connection := (race.connection.flushPending link race.link).1
      link := (race.connection.flushPending link race.link).2 } where
  client := h.client
  registered := h.registered
  loss := h.loss
  past := h.past
  older := h.older
  booked hconnected hreplayed :=
    (Registry.booked_flushPending link race.connection.registry race.link).trans
      (h.booked hconnected hreplayed)
  late := h.late

theorem Moves.accounted (hm : Moves race next) (h : Accounted start race) :
    Accounted start next := by
  cases hm with
  | look pattern handler race => exact h.look pattern handler
  | enter before after look link hcalls =>
      exact h.enter hcalls (Connection.entered_enter link look _ _) _
  | accept hloss => exact h.accept hloss
  | @replay race connect link hdue => exact h.replay link connect
  | drop _ =>
      have hfalse := Connection.isConnected_setState .disconnected race.connection
      exact h.disconnected (race.connection.setState .disconnected) h.client rfl hfalse .dropped
  | clear hloss =>
      have hfalse : race.connection.isConnected = false :=
        Bool.eq_false_iff.mpr fun hconnected => nomatch hloss.symm.trans (h.loss hconnected)
      have hregistered := Registry.registered_clearBroker race.connection.registry
      exact h.disconnected race.connection.clearBroker h.client hregistered hfalse .cleared
  | retry _ =>
      have hfalse := Connection.isConnected_setState .connecting race.connection
      exact h.disconnected (race.connection.setState .connecting) h.client rfl hfalse .none
  | flush link race => exact h.flush link

theorem accounted_of_moves {first : Race η σ} (hrun : Relation.ReflTransGen Moves first race)
    (h : Accounted start first) : Accounted start race := by
  induction hrun with
  | refl => exact h
  | tail _ hmove ih => exact hmove.accounted ih

/-- Once the replay of the latest connect has run, exactly the patterns registered in time
are booked. A call that comes too late with no link had looked before that connect; while
there is no such call, every registered pattern is booked. -/
theorem booked_iff_inTime {first : Connection η} (hclient : first.hasClient = true)
    (hfirst : first.isConnected = false) {s : σ}
    (hrun : Relation.ReflTransGen Moves (Race.start first s) race)
    (hconnected : race.connection.isConnected = true) (hreplayed : race.Replayed) :
    let registry := race.connection.registry
    (∀ pattern, pattern ∈ registry.onBroker ∨ pattern ∈ Entries.keys registry.pending ↔
      pattern ∈ inTime first.registry.registered race.log) ∧
    (∀ pattern seen, .registered pattern false seen ∈ sinceReplay race.log →
      seen < race.accepted) ∧
    ((∀ pattern seen, .registered pattern false seen ∉ sinceReplay race.log) →
      ∀ pattern, registry.isSubscribed pattern = true →
        pattern ∈ registry.onBroker ∨ pattern ∈ Entries.keys registry.pending) := by
  have hrace := accounted_of_moves hrun (accounted_start hclient hfirst s)
  have hbooked := hrace.booked hconnected hreplayed
  refine ⟨fun pattern => Set.ext_iff.mp hbooked pattern, hrace.late hconnected hreplayed, ?_⟩
  intro hlinked pattern hp
  have hall : race.connection.registry.booked = race.connection.registry.registered := by
    rw [hbooked, inTime_eq_everRegistered hlinked, hrace.registered]
  exact (Set.ext_iff.mp hall pattern).mpr (Registry.isSubscribed_iff_mem_registered.mp hp)

/-- One call registers with the link that it saw, and one, which had looked before the
connect, without. -/
theorem booked_iff_inTime_one_late :
    let first : Connection Nat := ((((Connection.new .default).use Room.link
      (.subscribe "a" 0) none).1.install "client").2).setState .connecting
    first.hasClient = true ∧ first.isConnected = false ∧
      ∃ race, Relation.ReflTransGen Moves (Race.start first (some 3)) race ∧
        race.connection.isConnected = true ∧ race.Replayed ∧
        race.connection.registry.patternTexts = ["a", "b", "c"] ∧
        ∀ pattern, pattern ∈ race.connection.registry.onBroker ∨
          pattern ∈ Entries.keys race.connection.registry.pending ↔
            pattern = "b" ∨ pattern = "a" := by
  intro first
  have hclient : first.hasClient = true := rfl
  have hfirst : first.isConnected = false := rfl
  have hpath := Relation.ReflTransGen.head (Moves.look "c" 1 (Race.start first (some 3))) <|
    .head (.accept rfl) <|
    .head (.look "b" 2 _) <|
    .head (.replay Room.link List.mem_cons_self) <|
    .head (.enter [_] [] _ Room.link rfl) <|
    .single (.enter [] [] _ Room.link rfl)
  obtain ⟨race, hrun, hconnected, hdue, hlog, htexts⟩ :
      ∃ race, Relation.ReflTransGen Moves (Race.start first (some 3)) race ∧
        race.connection.isConnected = true ∧ race.due = [] ∧
        race.log = [.registered "b" true 1, .registered "c" false 0, .replayed] ∧
        race.connection.registry.patternTexts = ["a", "b", "c"] :=
    ⟨_, hpath, by decide +kernel, rfl, rfl, by decide +kernel⟩
  have hreplayed : race.Replayed := by
    rw [Replayed, hdue]
    exact List.not_mem_nil
  obtain ⟨hbooked, -⟩ := booked_iff_inTime hclient hfirst hrun hconnected hreplayed
  refine ⟨hclient, hfirst, race, hrun, hconnected, hreplayed, htexts, ?_⟩
  intro pattern
  have hregistered : first.registry.registered = {"a"} := by
    have hinsert := Registry.registered_register ⟨"a", by decide⟩ 0 (.empty : Registry Nat)
    rw [Registry.registered_empty] at hinsert
    exact hinsert.trans (insert_empty_eq "a")
  rw [hbooked, hlog, inTime, inTime, inTime, everRegistered, hregistered]
  exact Iff.rfl

/-- A call looks while there is no connection; the connect is accepted and replays; only then
the call registers. The pattern is neither at the broker nor owed to it, and no call is left
that could change this. -/
theorem subscribe_lost_between_steps :
    let first : Connection Nat :=
      ((Connection.new .default).install "client").2.setState .connecting
    ∃ race, Relation.ReflTransGen Moves (Race.start first (some 3)) race ∧
      race.connection.isConnected = true ∧ race.Replayed ∧ race.calls = [] ∧
      race.connection.registry.isSubscribed "a" = true ∧
      race.connection.registry.isOnBroker "a" = false ∧
      race.connection.registry.pendingCount = 0 := by
  intro first
  have hpath := Relation.ReflTransGen.head (Moves.look "a" 0 (Race.start first (some 3))) <|
    .head (.accept rfl) <|
    .head (.replay Room.link List.mem_cons_self) <|
    .single (.enter [] [] _ Room.link rfl)
  exact ⟨_, hpath, by decide +kernel, List.not_mem_nil, rfl, rfl, rfl, rfl⟩

end Race

end ThingHub
