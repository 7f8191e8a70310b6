import ThingHub.Proofs.Registry.Bookings
import ThingHub.Proofs.Registry.Run
import ThingHub.Registry.Scripted

/-! # Requests between calls

A run leaves one line of moments: calls begin, requests are answered, calls return. What the
registry books as carried can be read off these moments at any point, in the middle of a call
too. A pattern that is carried is never asked about, except by giving it up; so a second
subscribe request for it has to wait until some call releases it. -/

namespace ThingHub

variable {η σ : Type}

/-! ## Moments -/

/-- What happens in a run: a call begins, a request of the call is answered, the call returns. -/
inductive Moment (η σ : Type)
  | begins (step : Step η σ)
  | asked (step : Step η σ) (request : Request) (taken : Bool)
  | returns (step : Step η σ) (answer : Answer)

namespace Moment

/-- What the registry books as carried after a moment. Replaying and clearing forget it all as
they begin. Unsubscribing has given its pattern up when it returns, so that its own request
falls into the time before. -/
def onBroker : Moment η σ → Set String → Set String
  | .begins .replay, _ => ∅
  | .begins .clear, _ => ∅
  | .asked _ (.subscribe pattern) true, carried => insert pattern carried
  | .returns (.unsubscribe pattern _) (.removed true), carried => carried \ {pattern}
  | _, carried => carried

/-- The moments that release a pattern: it may be subscribed to anew. -/
inductive Releases (pattern : String) : Moment η σ → Prop
  | unsubscribed (linked : Bool) :
      Releases pattern (.returns (.unsubscribe pattern linked) (.removed true))
  | replayed : Releases pattern (.begins .replay)
  | cleared : Releases pattern (.begins .clear)

/-- A request about a carried pattern gives it up, on the call's own account. -/
def Discreet (carried : Set String) : Moment η σ → Prop
  | .asked step request _ => request.pattern ∈ carried →
      request = .unsubscribe request.pattern ∧ ∃ linked, step = .unsubscribe request.pattern linked
  | _ => True

/-- A pattern that nothing releases stays booked. -/
theorem mem_onBroker {moment : Moment η σ} {carried : Set String} {pattern : String}
    (h : pattern ∈ carried) (hr : ¬moment.Releases pattern) :
    pattern ∈ moment.onBroker carried := by
  unfold onBroker
  split
  · exact absurd .replayed hr
  · exact absurd .cleared hr
  · exact Set.mem_insert_of_mem _ h
  · refine ⟨h, ?_⟩
    rintro rfl
    exact hr (.unsubscribed _)
  · exact h

end Moment

/-- What is booked as carried after some moments. -/
def onBrokerAfter (carried : Set String) (moments : List (Moment η σ)) : Set String :=
  moments.foldl (fun carried moment => moment.onBroker carried) carried

theorem onBrokerAfter_append (carried : Set String) (front back : List (Moment η σ)) :
    onBrokerAfter carried (front ++ back) = onBrokerAfter (onBrokerAfter carried front) back :=
  List.foldl_append

theorem mem_onBrokerAfter {moments : List (Moment η σ)} {carried : Set String} {pattern : String}
    (h : pattern ∈ carried) (hr : ∀ moment ∈ moments, ¬moment.Releases pattern) :
    pattern ∈ onBrokerAfter carried moments := by
  induction moments generalizing carried with
  | nil => exact h
  | cons moment moments ih =>
      have hmoment := Moment.mem_onBroker h (hr moment List.mem_cons_self)
      exact ih hmoment fun later hm => hr later (List.mem_cons_of_mem _ hm)

/-- Every moment is discreet at its own point of the line. -/
def AllDiscreet : Set String → List (Moment η σ) → Prop
  | _, [] => True
  | carried, moment :: moments =>
    moment.Discreet carried ∧ AllDiscreet (moment.onBroker carried) moments

theorem allDiscreet_append {carried : Set String} {front back : List (Moment η σ)} :
    AllDiscreet carried (front ++ back) ↔
      AllDiscreet carried front ∧ AllDiscreet (onBrokerAfter carried front) back := by
  induction front generalizing carried with
  | nil => simp [AllDiscreet, onBrokerAfter]
  | cons moment front ih => exact (and_congr_right fun _ => ih).trans and_assoc.symm

theorem AllDiscreet.discreet {carried : Set String} {front back : List (Moment η σ)}
    {moment : Moment η σ} (h : AllDiscreet carried (front ++ moment :: back)) :
    moment.Discreet (onBrokerAfter carried front) :=
  (allDiscreet_append.mp h).2.1

/-- Between two subscribe requests for a pattern, the first of them taken, some call releases
the pattern. -/
theorem AllDiscreet.exists_releases {carried : Set String} {front between back : List (Moment η σ)}
    {pattern : String} {first second : Step η σ} {taken : Bool}
    (h : AllDiscreet carried (front ++ .asked first (.subscribe pattern) true :: between ++
      .asked second (.subscribe pattern) taken :: back)) :
    ∃ moment ∈ between, moment.Releases pattern := by
  by_contra hnone
  have hr : ∀ moment ∈ between, ¬moment.Releases pattern :=
    fun moment hm hrel => hnone ⟨moment, hm, hrel⟩
  have hbooked : pattern ∈ onBrokerAfter carried
      (front ++ .asked first (.subscribe pattern) true :: between) := by
    rw [onBrokerAfter_append]
    show pattern ∈ onBrokerAfter (insert pattern (onBrokerAfter carried front)) between
    exact mem_onBrokerAfter (Set.mem_insert pattern _) hr
  obtain ⟨hrequest, -⟩ := h.discreet hbooked
  cases hrequest

/-! ## The moments of a call -/

/-- Answered requests as events of a log, the latest first. -/
def noted (answered : List (Request × Bool)) : List (Event η) :=
  (answered.map fun entry => .asked entry.1 entry.2).reverse

/-- The requests of a call as moments. -/
def Step.asks (step : Step η σ) (answered : List (Request × Bool)) : List (Moment η σ) :=
  answered.map fun entry => .asked step entry.1 entry.2

/-- The moments of a whole call. -/
def Step.moments (step : Step η σ) (answered : List (Request × Bool)) (answer : Answer) :
    List (Moment η σ) :=
  .begins step :: step.asks answered ++ [.returns step answer]

theorem onBrokerAfter_moments (step : Step η σ) (answered : List (Request × Bool)) (answer : Answer)
    (carried : Set String) : onBrokerAfter carried (step.moments answered answer) =
      (Moment.returns step answer).onBroker
        (onBrokerAfter ((Moment.begins step).onBroker carried) (step.asks answered)) :=
  onBrokerAfter_append carried (.begins step :: step.asks answered) [.returns step answer]

/-- A call is as discreet as its requests. -/
theorem allDiscreet_moments {step : Step η σ} {answered : List (Request × Bool)} {answer : Answer}
    {carried : Set String} : AllDiscreet carried (step.moments answered answer) ↔
      AllDiscreet ((Moment.begins step).onBroker carried) (step.asks answered) := by
  simp [Step.moments, AllDiscreet, Moment.Discreet, allDiscreet_append]

theorem noted_cons (request : Request) (taken : Bool) (answered : List (Request × Bool))
    (log : List (Event η)) :
    noted ((request, taken) :: answered) ++ log =
      noted answered ++ .asked request taken :: log := by
  simp [noted]

theorem discreet_asked {step : Step η σ} {request : Request} {taken : Bool}
    {carried : Set String} (h : request.pattern ∉ carried) :
    (Moment.asked step request taken).Discreet carried :=
  fun hm => absurd hm h

/-- A flush asks about patterns that are not carried yet, each of them booked as soon as its
subscribe request is taken and not asked about again. -/
theorem Link.Flushes.exists_asks {link : Link σ} {owed : Entries Owed}
    {state : σ × List (Event η)} {result : Flushed (σ × List (Event η))}
    (h : (link.recorded η).Flushes owed state result) (step : Step η σ) {carried : Set String}
    (hn : (Entries.keys owed).Nodup) (ha : ∀ pattern ∈ Entries.keys owed, pattern ∉ carried) :
    ∃ answered, result.link.2 = noted answered ++ state.2 ∧
      AllDiscreet carried (step.asks answered) ∧
      onBrokerAfter carried (step.asks answered) = carried ∪ {pattern | pattern ∈ result.sent} := by
  induction h generalizing carried with
  | done state => exact ⟨[], rfl, trivial, by simp [onBrokerAfter, Step.asks]⟩
  | @cleared pattern rest _ _ _ hask _ ih =>
      obtain ⟨answered, hlog, hdiscreet, hbooked⟩ := ih hn ha
      have hout : pattern ∉ carried := ha pattern List.mem_cons_self
      refine ⟨(.unsubscribe pattern, true) :: answered, ?_, ⟨discreet_asked hout, hdiscreet⟩,
        hbooked⟩
      rw [noted_cons, hlog, Link.log_of_recorded_ask hask]
  | @clearRefused pattern rest _ _ hask =>
      have hout : pattern ∉ carried := ha pattern List.mem_cons_self
      refine ⟨[(.unsubscribe pattern, false)], Link.log_of_recorded_ask hask,
        ⟨discreet_asked hout, trivial⟩, ?_⟩
      simp [onBrokerAfter, Step.asks, Moment.onBroker]
  | @sent pattern rest _ _ result hask _ ih =>
      have hout : pattern ∉ carried := ha pattern List.mem_cons_self
      obtain ⟨hfirst, hn⟩ : pattern ∉ Entries.keys rest ∧ (Entries.keys rest).Nodup :=
        List.nodup_cons.mp hn
      -- The pattern is booked from here on, and the rest owes nothing for it.
      have hrest : ∀ other ∈ Entries.keys rest, other ∉ insert pattern carried := by
        intro other ho hm
        rcases Set.mem_insert_iff.mp hm with rfl | hm
        · exact hfirst ho
        · exact ha other (List.mem_cons_of_mem _ ho) hm
      obtain ⟨answered, hlog, hdiscreet, hbooked⟩ := ih hn hrest
      refine ⟨(.subscribe pattern, true) :: answered, ?_, ⟨discreet_asked hout, hdiscreet⟩, ?_⟩
      · rw [noted_cons, hlog, Link.log_of_recorded_ask hask]
      · refine hbooked.trans ?_
        ext other
        simp [or_assoc, or_left_comm]
  | @refused pattern rest _ _ hask =>
      have hout : pattern ∉ carried := ha pattern List.mem_cons_self
      refine ⟨[(.subscribe pattern, false)], Link.log_of_recorded_ask hask,
        ⟨discreet_asked hout, trivial⟩, ?_⟩
      simp [onBrokerAfter, Step.asks, Moment.onBroker]

namespace World

/-- A call of a world at work: what was asked and answered, with discretion, and a registry
that stays tidy and books what the moments of the call say. -/
structure Tells (world : World η σ) (step : Step η σ) (answered : List (Request × Bool))
    (answer : Answer) (next : World η σ) : Prop where
  log : next.log = noted answered ++ world.log
  tidy : next.registry.Tidy
  discreet : AllDiscreet {pattern | pattern ∈ world.registry.onBroker}
    (step.moments answered answer)
  onBroker : onBrokerAfter {pattern | pattern ∈ world.registry.onBroker}
    (step.moments answered answer) = {pattern | pattern ∈ next.registry.onBroker}

/-- A call that asks nothing and leaves alone what is booked as carried. -/
theorem Tells.of_silent {world next : World η σ} {step : Step η σ} {answer : Answer}
    (hlog : next.log = world.log) (ht : next.registry.Tidy)
    (hon : next.registry.onBroker = world.registry.onBroker)
    (hbegins : ∀ carried, (Moment.begins step).onBroker carried = carried)
    (hreturns : ∀ carried, (Moment.returns step answer).onBroker carried = carried) :
    Tells world step [] answer next where
  log := hlog
  tidy := ht
  discreet := allDiscreet_moments.mpr trivial
  onBroker := by
    rw [onBrokerAfter_moments, hbegins, hreturns, hon]
    rfl

/-- A call that flushes, once it has booked what it begins with. -/
theorem Tells.of_flush (link : Link σ) (world : World η σ) (step : Step η σ) (answer : Answer)
    {begun : Registry η} (ht : begun.Tidy)
    (hbegins : (Moment.begins step).onBroker {pattern | pattern ∈ world.registry.onBroker} =
      {pattern | pattern ∈ begun.onBroker})
    (hreturns : ∀ carried, (Moment.returns step answer).onBroker carried = carried) :
    let done := begun.flush (link.recorded η) (world.link, world.log)
    ∃ answered, Tells world step answered answer (world.settle done.2.1 done.2.2) := by
  have hflush := (link.recorded η).flushes_flush begun.pending (world.link, world.log)
  have hout : ∀ pattern ∈ Entries.keys begun.pending,
      pattern ∉ {pattern | pattern ∈ begun.onBroker} :=
    fun pattern howed hon => ht.apart pattern hon howed
  obtain ⟨answered, hlog, hdiscreet, hon⟩ :=
    hflush.exists_asks step (Entries.nodup_keys ht.ordered) hout
  refine ⟨answered, hlog, ht.flush (link.recorded η) (world.link, world.log), ?_, ?_⟩
  · rw [allDiscreet_moments, hbegins]
    exact hdiscreet
  · rw [onBrokerAfter_moments, hbegins, hon, hreturns]
    ext pattern
    exact or_comm.trans Registry.mem_onBroker_flush.symm

variable (link : Link σ) (react : η → Call → Reaction η σ) (depth : Nat)

theorem exists_tells_subscribe (pattern : String) (handler : η) (linked : Bool)
    {world : World η σ} (h : world.registry.Tidy) :
    ∃ answered answer next,
      World.perform link react depth (.subscribe pattern handler linked) world =
          some (answer, next) ∧
        Tells world (.subscribe pattern handler linked) answered answer next := by
  rcases Registry.eq_empty_or_exists_pattern pattern with rfl | ⟨p, rfl⟩
  · exact ⟨[], _, _, perform_subscribe_empty handler linked world,
      .of_silent rfl h rfl (fun _ => rfl) fun _ => rfl⟩
  · have hregistered := h.register p handler
    have hperform : World.perform link react depth (.subscribe p.text handler linked) world = _ :=
      perform_subscribe_pattern p handler linked world
    cases linked with
    | false =>
        exact ⟨[], _, _, hperform,
          .of_silent rfl hregistered rfl (fun _ => rfl) fun _ => rfl⟩
    | true =>
        simp only [Registry.subscribed, Link.passed, if_true] at hperform
        split at hperform
        · exact ⟨[], _, _, hperform, .of_silent rfl hregistered rfl (fun _ => rfl) fun _ => rfl⟩
        · rename_i hoff
          obtain ⟨answered, htells⟩ := Tells.of_flush link world
            (.subscribe p.text handler true) (.registered ⟨world.registry.nextId⟩)
            (h.owing handler hoff) rfl fun _ => rfl
          exact ⟨answered, _, _, hperform, htells⟩

/-- Telling the broker about a pattern that is given up is one request at most. -/
theorem exists_answered_told (link : Link σ) (linked : Bool) (pattern : String)
    (registry : Registry η) (state : σ × List (Event η)) :
    ∃ answers : List Bool, (registry.told (link.passed η linked) pattern state).2 =
      noted (answers.map (.unsubscribe pattern, ·)) ++ state.2 := by
  cases linked with
  | false => exact ⟨[], rfl⟩
  | true =>
      simp only [Registry.told, Link.passed, if_true]
      split
      · exact ⟨[(link.ask (.unsubscribe pattern) state.1).1], rfl⟩
      · exact ⟨[], rfl⟩

/-- A call that gives its own pattern up is discreet, whatever is answered. -/
theorem moments_unsubscribe (pattern : String) (linked : Bool) (answers : List Bool)
    (carried : Set String) :
    let moments : List (Moment η σ) := (Step.unsubscribe pattern linked).moments
      (answers.map (.unsubscribe pattern, ·)) (.removed true)
    AllDiscreet carried moments ∧ onBrokerAfter carried moments = carried \ {pattern} := by
  have hasks : AllDiscreet carried ((Step.unsubscribe pattern linked : Step η σ).asks
      (answers.map (.unsubscribe pattern, ·))) ∧ onBrokerAfter carried
        ((Step.unsubscribe pattern linked : Step η σ).asks
          (answers.map (.unsubscribe pattern, ·))) = carried := by
    induction answers with
    | nil => exact ⟨trivial, rfl⟩
    | cons taken answers ih => exact ⟨⟨fun _ => ⟨rfl, linked, rfl⟩, ih.1⟩, ih.2⟩
  refine ⟨allDiscreet_moments.mpr hasks.1, ?_⟩
  rw [onBrokerAfter_moments]
  exact congrArg (· \ {pattern}) hasks.2

theorem exists_tells_unsubscribe (pattern : String) (linked : Bool) {world : World η σ}
    (h : world.registry.Tidy) :
    ∃ answered answer next,
      World.perform link react depth (.unsubscribe pattern linked) world = some (answer, next) ∧
        Tells world (.unsubscribe pattern linked) answered answer next := by
  cases hget : Entries.get? pattern world.registry.patterns with
  | none => exact ⟨[], _, _, perform_unsubscribe_unknown hget linked,
      .of_silent rfl h rfl (fun _ => rfl) fun _ => rfl⟩
  | some p =>
      obtain rfl : p.text = pattern := h.keyed.own pattern p hget
      obtain ⟨answers, hlog⟩ := exists_answered_told link linked p.text world.registry
        (world.link, world.log)
      obtain ⟨hdiscreet, hon⟩ :=
        moments_unsubscribe p.text linked answers {pattern | pattern ∈ world.registry.onBroker}
      refine ⟨_, _, _, perform_unsubscribe_known hget linked, hlog, h.forget p, hdiscreet, ?_⟩
      rw [hon]
      ext other
      simp [settle, Registry.forget]

/-- Every step but a dispatch tells what it asked. -/
theorem exists_tells {step : Step η σ} (hd : ∀ topic payload, step ≠ .dispatch topic payload)
    {world : World η σ} (h : world.registry.Tidy) :
    ∃ answered answer next, World.perform link react depth step world = some (answer, next) ∧
      Tells world step answered answer next := by
  cases step with
  | subscribe pattern handler linked =>
      exact exists_tells_subscribe link react depth pattern handler linked h
  | unsubscribe pattern linked =>
      exact exists_tells_unsubscribe link react depth pattern linked h
  | replay =>
      obtain ⟨answered, htells⟩ := Tells.of_flush link world .replay (.count _)
        h.keyed.tidy_renewed (by simp [Moment.onBroker, Registry.renewed]) fun _ => rfl
      exact ⟨answered, _, _, perform_replay world, htells⟩
  | flush =>
      obtain ⟨answered, htells⟩ := Tells.of_flush link world .flush (.count _) h rfl
        fun _ => rfl
      exact ⟨answered, _, _, perform_flush world, htells⟩
  | clear =>
      refine ⟨[], _, _, perform_clear world, rfl, h.clearBroker, ⟨trivial, trivial, trivial⟩, ?_⟩
      simp [onBrokerAfter, Step.moments, Step.asks, Moment.onBroker, Registry.clearBroker]
  | tune change =>
      exact ⟨[], _, _, perform_tune change world, .of_silent rfl h rfl (fun _ => rfl) fun _ => rfl⟩
  | dispatch topic payload => exact absurd rfl (hd topic payload)
  | query pattern =>
      exact ⟨[], _, _, perform_query pattern world,
        .of_silent rfl h rfl (fun _ => rfl) fun _ => rfl⟩

/-! ## The moments of a run -/

/-- A run with the moments that it leaves: of each call, what its part of the log says. -/
inductive Chronicle (react : η → Call → Reaction η σ) (depth : Nat) :
    World η σ → List (Link σ × Step η σ) → List (Moment η σ) → World η σ → Prop
  | done (world : World η σ) : Chronicle react depth world [] [] world
  | call {link : Link σ} {step : Step η σ} {uses : List (Link σ × Step η σ)}
      {world next last : World η σ} {answered : List (Request × Bool)} {answer : Answer}
      {moments : List (Moment η σ)} :
      World.perform link react depth step world = some (answer, next) →
      next.log = noted answered ++ world.log → Chronicle react depth next uses moments last →
      Chronicle react depth world ((link, step) :: uses)
        (step.moments answered answer ++ moments) last

theorem Chronicle.exists_performEach {uses : List (Link σ × Step η σ)}
    {moments : List (Moment η σ)} {world last : World η σ}
    (h : Chronicle react depth world uses moments last) :
    ∃ answers, performEach react depth uses world = some (answers, last) := by
  induction h with
  | done world => exact ⟨[], rfl⟩
  | call hperform _ _ ih =>
      obtain ⟨answers, hrun⟩ := ih
      exact ⟨_, performEach_cons_eq_some hperform hrun⟩

/-- A run is discreet from its first moment to its last, and its moments tell what is booked. -/
theorem exists_chronicle {uses : List (Link σ × Step η σ)}
    (hd : ∀ use ∈ uses, ∀ topic payload, use.2 ≠ .dispatch topic payload)
    (react : η → Call → Reaction η σ) (depth : Nat) (world : World η σ)
    (h : world.registry.Tidy) :
    ∃ moments last, Chronicle react depth world uses moments last ∧
      AllDiscreet {pattern | pattern ∈ world.registry.onBroker} moments ∧
      onBrokerAfter {pattern | pattern ∈ world.registry.onBroker} moments =
        {pattern | pattern ∈ last.registry.onBroker} := by
  induction uses generalizing world with
  | nil => exact ⟨[], world, .done world, trivial, rfl⟩
  | cons use uses ih =>
      obtain ⟨link, step⟩ := use
      obtain ⟨answered, answer, next, hperform, htells⟩ :=
        exists_tells link react depth (hd _ List.mem_cons_self) h
      obtain ⟨moments, last, hrest, hdiscreet, hon⟩ :=
        ih (fun use hu => hd use (List.mem_cons_of_mem _ hu)) next htells.tidy
      refine ⟨_, last, .call hperform htells.log hrest, ?_, ?_⟩
      · exact allDiscreet_append.mpr ⟨htells.discreet, htells.onBroker.symm ▸ hdiscreet⟩
      · rw [onBrokerAfter_append, htells.onBroker, hon]

/-- At most one broker subscription for each pattern at a time. Whatever the links refuse, and
whether or not they are passed: between two subscribe requests for a pattern that were both
taken, the pattern is unsubscribed, or all is replayed or cleared; and what is asked about a
pattern while it is booked as carried, is the request of the call that gives it up. -/
theorem performEach_subscribes_once {registry : Registry η} (hr : registry.Reachable)
    {uses : List (Link σ × Step η σ)}
    (hd : ∀ use ∈ uses, ∀ topic payload, use.2 ≠ .dispatch topic payload)
    (react : η → Call → Reaction η σ) (depth : Nat) (s : σ) (runs : HandlerId → Nat) :
    ∃ answers moments world,
      performEach react depth uses ⟨registry, s, runs, []⟩ = some (answers, world) ∧
      Chronicle react depth ⟨registry, s, runs, []⟩ uses moments world ∧
      (∀ pattern, world.registry.isOnBroker pattern = true ↔
        pattern ∈ onBrokerAfter {pattern | registry.isOnBroker pattern = true} moments) ∧
      (∀ pattern front between back first second,
        moments = front ++ .asked first (.subscribe pattern) true :: between ++
            .asked second (.subscribe pattern) true :: back →
          ∃ moment ∈ between, moment.Releases pattern) ∧
      (∀ front back step request taken, moments = front ++ .asked step request taken :: back →
        request.pattern ∈ onBrokerAfter {pattern | registry.isOnBroker pattern = true} front →
          request = .unsubscribe request.pattern ∧
            ∃ linked, step = .unsubscribe request.pattern linked) := by
  obtain ⟨moments, world, hchronicle, hdiscreet, hon⟩ :=
    exists_chronicle hd react depth ⟨registry, s, runs, []⟩ hr.tidy
  obtain ⟨answers, hrun⟩ := hchronicle.exists_performEach
  have hstart : {pattern | registry.isOnBroker pattern = true} =
      {pattern | pattern ∈ registry.onBroker} := by
    ext pattern
    exact List.contains_iff_mem
  rw [hstart]
  refine ⟨answers, moments, world, hrun, hchronicle, ?_, ?_, ?_⟩
  · intro pattern
    rw [hon]
    exact List.contains_iff_mem
  · rintro pattern front between back first second rfl
    exact hdiscreet.exists_releases
  · rintro front back step request taken rfl hcarried
    exact hdiscreet.discreet hcarried

/-- A pattern whose replay stops between its two requests, that gets a further handler before
and after it is carried, and that is given up and taken up again. -/
theorem performEach_subscribes_once_taken_up_again :
    let registry : Registry Nat := Registry.empty.register ⟨"a", by decide⟩ 0
    let uses : List (Link Room × Step Nat Room) :=
      [(Room.link, .replay), (Room.link, .tune fun _ => none), (Room.link, .subscribe "a" 1 true),
        (Room.link, .subscribe "a" 2 true), (Room.link, .unsubscribe "a" true),
        (Room.link, .subscribe "a" 3 true)]
    registry.Reachable ∧ (∀ use ∈ uses, ∀ topic payload, use.2 ≠ .dispatch topic payload) ∧
      ∃ answers moments world, performEach (quiet fun _ _ => false) 0 uses
          ⟨registry, some 1, fun _ => 0, []⟩ = some (answers, world) ∧
        Chronicle (quiet fun _ _ => false) 0 ⟨registry, some 1, fun _ => 0, []⟩ uses moments world ∧
        world.log = noted [(.unsubscribe "a", true), (.subscribe "a", false),
          (.subscribe "a", true), (.unsubscribe "a", true), (.subscribe "a", true)] ∧
        (∀ front between back first second,
          moments = front ++ .asked first (.subscribe "a") true :: between ++
              .asked second (.subscribe "a") true :: back →
            ∃ moment ∈ between, moment.Releases "a") ∧
        "a" ∈ onBrokerAfter {pattern | registry.isOnBroker pattern = true} moments := by
  intro registry uses
  have hr : registry.Reachable := Registry.Reachable.empty.register _ 0
  have hd : ∀ use ∈ uses, ∀ topic payload, use.2 ≠ .dispatch topic payload := by
    simp [uses]
  obtain ⟨answers, moments, world, hrun, hchronicle, hon, honce, -⟩ :=
    performEach_subscribes_once hr hd (quiet fun _ _ => false) 0 (some 1) fun _ => 0
  have hlast := congrArg Prod.snd (Option.some.inj hrun)
  have hlog := (congrArg World.log hlast).symm
  have hcarried : world.registry.isOnBroker "a" = true :=
    (congrArg (fun last => last.registry.isOnBroker "a") hlast).symm
  exact ⟨hr, hd, answers, moments, world, hrun, hchronicle, hlog, honce "a", (hon "a").mp hcarried⟩

end World

end ThingHub
