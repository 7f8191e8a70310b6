import ThingHub.Proofs.Registry.Run

/-! # Dispatches inside dispatches

A handler may dispatch while it runs, so a dispatch can hold others, to any depth. The rules
below say what a dispatch comes to without any bound on that depth. They agree with the
bounded `perform`, which gives a result at some depth exactly when no endless chain of
dispatches begins, each of them inside the one before. -/

namespace ThingHub

variable {η σ : Type}

/-! ## Tasks and journals -/

/-- What is to be done during a dispatch: to call a recipient, to perform a step for a
running handler, or to let a handler fail. -/
inductive Task (η σ : Type)
  | call (recipient : Registration η)
  | perform (handler : η) (step : Step η σ)
  | fail (handler : η)

/-- What a reaction gives its handler to do. -/
def Reaction.tasks (handler : η) (reaction : Reaction η σ) : List (Task η σ) :=
  reaction.steps.map (.perform handler) ++ if reaction.fails then [.fail handler] else []

/-- What was done during a dispatch. A dispatch that a handler performed comes with a
journal of its own. -/
inductive Deed (η σ : Type)
  | called (recipient : Registration η)
  | performed (step : Step η σ) (answer : Answer)
  | dispatched (topic : String) (payload : Bytes) (answer : Answer) (journal : List (Deed η σ))
  | failed (handler : η)

namespace World

/-- How a recipient reacts to its next call. -/
def reaction (react : η → Call → Reaction η σ) (topic : String) (payload : Bytes)
    (recipient : Registration η) (world : World η σ) : Reaction η σ :=
  react recipient.handler ⟨recipient.id, topic, payload, world.runs recipient.id⟩

/-- A recipient has just been called. -/
def called (topic : String) (payload : Bytes) (recipient : Registration η) (world : World η σ) :
    World η σ :=
  (world.countRun recipient.id).note (.called recipient.handler topic payload)

/-- How tasks are done, one after the other, while a message is delivered. What a called
handler has to do comes before everything else; a dispatch inside works on the recipients
that the registry has at that moment. -/
inductive Attends (link : Link σ) (react : η → Call → Reaction η σ) :
    String → Bytes → List (Task η σ) → World η σ → List (Deed η σ) → World η σ → Prop
  | done {topic : String} {payload : Bytes} (world : World η σ) :
      Attends link react topic payload [] world [] world
  | call {topic : String} {payload : Bytes} {recipient : Registration η}
      {tasks : List (Task η σ)} {world last : World η σ} {journal : List (Deed η σ)} :
      Attends link react topic payload
        ((world.reaction react topic payload recipient).tasks recipient.handler ++ tasks)
        (world.called topic payload recipient) journal last →
      Attends link react topic payload (.call recipient :: tasks) world
        (.called recipient :: journal) last
  | perform {topic : String} {payload : Bytes} {handler : η} {step : Step η σ}
      {tasks : List (Task η σ)} {world next last : World η σ} {answer : Answer}
      {journal : List (Deed η σ)} :
      World.perform link react 0 step world = some (answer, next) →
      Attends link react topic payload tasks (next.note (.performed handler answer)) journal
        last →
      Attends link react topic payload (.perform handler step :: tasks) world
        (.performed step answer :: journal) last
  | dispatch {topic inner : String} {payload bytes : Bytes} {handler : η}
      {tasks : List (Task η σ)} {world next last : World η σ} {nested journal : List (Deed η σ)} :
      Attends link react inner bytes ((world.registry.recipients inner).map .call) world nested
        next →
      Attends link react topic payload tasks
        (next.note (.performed handler (.count (world.registry.recipients inner).length)))
        journal last →
      Attends link react topic payload (.perform handler (.dispatch inner bytes) :: tasks) world
        (.dispatched inner bytes (.count (world.registry.recipients inner).length) nested ::
          journal) last
  | fail {topic : String} {payload : Bytes} {handler : η} {tasks : List (Task η σ)}
      {world last : World η σ} {journal : List (Deed η σ)} :
      Attends link react topic payload tasks (world.note (.failed handler)) journal last →
      Attends link react topic payload (.fail handler :: tasks) world
        (.failed handler :: journal) last

variable {link : Link σ} {react : η → Call → Reaction η σ} {topic : String} {payload : Bytes}

theorem Attends.append {tasks more : List (Task η σ)} {world mid last : World η σ}
    {journal rest : List (Deed η σ)} (h : Attends link react topic payload tasks world journal mid)
    (hmore : Attends link react topic payload more mid rest last) :
    Attends link react topic payload (tasks ++ more) world (journal ++ rest) last := by
  induction h with
  | done world => exact hmore
  | call _ ih =>
      refine .call ?_
      have := ih hmore
      rwa [List.append_assoc] at this
  | perform hperform _ ih => exact .perform hperform (ih hmore)
  | dispatch hnested _ _ ih => exact .dispatch hnested (ih hmore)
  | fail _ ih => exact .fail (ih hmore)

/-! ## The bounded run -/

/-- Does one task, with at most `depth` dispatches inside one another. -/
def attend (link : Link σ) (react : η → Call → Reaction η σ) (depth : Nat) (topic : String)
    (payload : Bytes) (world : World η σ) : Task η σ → Option (World η σ)
  | .call recipient =>
    deliver react (World.perform link react depth) topic payload [recipient] world
  | .perform handler step =>
    performAll (World.perform link react depth) handler [step] world
  | .fail handler => some (world.note (.failed handler))

/-- Does tasks one after the other. -/
def attendAll (link : Link σ) (react : η → Call → Reaction η σ) (depth : Nat) (topic : String)
    (payload : Bytes) (tasks : List (Task η σ)) (world : World η σ) : Option (World η σ) :=
  tasks.foldlM (attend link react depth topic payload) world

variable {depth : Nat}

theorem attend_perform (handler : η) (step : Step η σ) (world : World η σ) :
    attend link react depth topic payload world (.perform handler step) =
      (World.perform link react depth step world).map
        fun done => done.2.note (.performed handler done.1) := by
  simp only [attend, performAll]
  cases World.perform link react depth step world <;> rfl

theorem performAll_eq_attendAll (handler : η) (steps : List (Step η σ)) (world : World η σ) :
    performAll (World.perform link react depth) handler steps world =
      attendAll link react depth topic payload (steps.map (.perform handler)) world := by
  induction steps generalizing world with
  | nil => rfl
  | cons step steps ih =>
      rw [attendAll, List.map_cons, List.foldlM_cons, attend_perform, performAll]
      cases World.perform link react depth step world with
      | none => rfl
      | some done => exact ih _

theorem attendAll_append (tasks more : List (Task η σ)) (world : World η σ) :
    attendAll link react depth topic payload (tasks ++ more) world =
      (attendAll link react depth topic payload tasks world).bind
        (attendAll link react depth topic payload more) :=
  List.foldlM_append

theorem attendAll_fail (handler : η) (fails : Bool) (world : World η σ) :
    attendAll link react depth topic payload (if fails then [.fail handler] else []) world =
      some (if fails then world.note (.failed handler) else world) := by
  cases fails <;> rfl

/-- A call does what the called handler has to do. -/
theorem attend_call (recipient : Registration η) (world : World η σ) :
    attend link react depth topic payload world (.call recipient) =
      attendAll link react depth topic payload
        ((world.reaction react topic payload recipient).tasks recipient.handler)
        (world.called topic payload recipient) := by
  rw [Reaction.tasks, attendAll_append, ← performAll_eq_attendAll]
  simp only [attend, deliver, reaction, called]
  cases performAll (World.perform link react depth) recipient.handler
      (react recipient.handler
        ⟨recipient.id, topic, payload, world.runs recipient.id⟩).steps
      ((world.countRun recipient.id).note (.called recipient.handler topic payload)) with
  | none => rfl
  | some after => exact (attendAll_fail _ _ _).symm

theorem deliver_eq_attendAll (recipients : List (Registration η)) (world : World η σ) :
    deliver react (World.perform link react depth) topic payload recipients world =
      attendAll link react depth topic payload (recipients.map .call) world := by
  induction recipients generalizing world with
  | nil => rfl
  | cons recipient rest ih =>
      rw [attendAll, List.map_cons, List.foldlM_cons, attend, deliver, deliver]
      cases performAll (World.perform link react depth) recipient.handler
          (react recipient.handler
            ⟨recipient.id, topic, payload, world.runs recipient.id⟩).steps
          ((world.countRun recipient.id).note (.called recipient.handler topic payload)) with
      | none => rfl
      | some after => exact ih _

theorem perform_dispatch_eq_attendAll (world : World η σ) :
    World.perform link react (depth + 1) (.dispatch topic payload) world =
      (attendAll link react depth topic payload
        ((world.registry.recipients topic).map .call) world).map
          fun next => (.count (world.registry.recipients topic).length, next) := by
  rw [perform_dispatch, deliver_eq_attendAll]

/-- Only a dispatch needs depth. -/
theorem perform_zero_eq {step : Step η σ}
    (h : ∀ topic payload, step ≠ .dispatch topic payload) (depth : Nat) (world : World η σ) :
    World.perform link react depth step world = World.perform link react 0 step world := by
  cases step with
  | dispatch topic payload => exact absurd rfl (h topic payload)
  | _ => cases depth <;> rfl

theorem perform_eq_of_zero {step : Step η σ} {world : World η σ} {done : Answer × World η σ}
    (h : World.perform link react 0 step world = some done) (depth : Nat) :
    World.perform link react depth step world = some done := by
  rw [perform_zero_eq _ depth, h]
  rintro topic payload rfl
  cases h

theorem exists_perform_zero {step : Step η σ}
    (h : ∀ topic payload, step ≠ .dispatch topic payload) (world : World η σ) :
    ∃ answer next, World.perform link react 0 step world = some (answer, next) := by
  cases step with
  | subscribe text handler linked =>
      rcases Registry.eq_empty_or_exists_pattern text with rfl | ⟨p, rfl⟩
      · exact ⟨_, _, perform_subscribe_empty handler linked world⟩
      · exact ⟨_, _, perform_subscribe_pattern p handler linked world⟩
  | dispatch topic payload => exact absurd rfl (h topic payload)
  | _ => exact ⟨_, _, rfl⟩

/-- The rules are sound for some depth on: more depth changes nothing. -/
theorem Attends.exists_depth {tasks : List (Task η σ)} {world last : World η σ}
    {journal : List (Deed η σ)} (h : Attends link react topic payload tasks world journal last) :
    ∃ depth, ∀ more, depth ≤ more →
      attendAll link react more topic payload tasks world = some last := by
  induction h with
  | done world => exact ⟨0, fun _ _ => rfl⟩
  | @call topic payload recipient tasks world last journal _ ih =>
      obtain ⟨depth, hdepth⟩ := ih
      refine ⟨depth, fun more hmore => ?_⟩
      rw [← hdepth more hmore, attendAll_append, ← attend_call]
      rfl
  | @perform topic payload handler step tasks world next last answer journal hperform _ ih =>
      obtain ⟨depth, hdepth⟩ := ih
      refine ⟨depth, fun more hmore => ?_⟩
      rw [attendAll, List.foldlM_cons, attend_perform, perform_eq_of_zero hperform]
      exact hdepth more hmore
  | @dispatch topic inner payload bytes handler tasks world next last nested journal _ _ ihn ih =>
      obtain ⟨under, hunder⟩ := ihn
      obtain ⟨depth, hdepth⟩ := ih
      refine ⟨max (under + 1) depth, fun more hmore => ?_⟩
      obtain ⟨below, rfl⟩ := Nat.exists_eq_add_of_lt (Nat.lt_of_lt_of_le (Nat.lt_succ_self under)
        (Nat.le_trans (Nat.le_max_left _ _) hmore))
      rw [attendAll, List.foldlM_cons, attend_perform, perform_dispatch_eq_attendAll,
        hunder (under + below) (Nat.le_add_right _ _)]
      exact hdepth _ (Nat.le_trans (Nat.le_max_right _ _) hmore)
  | fail _ ih =>
      obtain ⟨depth, hdepth⟩ := ih
      exact ⟨depth, hdepth⟩

theorem Attends.exists_perform_dispatch {world next : World η σ} {journal : List (Deed η σ)}
    (h : Attends link react topic payload ((world.registry.recipients topic).map .call) world
      journal next) :
    ∃ depth, ∀ more, depth ≤ more →
      World.perform link react more (.dispatch topic payload) world =
        some (.count (world.registry.recipients topic).length, next) := by
  obtain ⟨depth, hdepth⟩ := h.exists_depth
  refine ⟨depth + 1, fun more hmore => ?_⟩
  obtain ⟨below, rfl⟩ := Nat.exists_eq_add_of_le' hmore
  rw [← Nat.add_assoc, perform_dispatch_eq_attendAll, hdepth _ (Nat.le_add_left _ _)]
  rfl

/-- Tasks attended to one by one are attended to together. -/
theorem exists_attends_of_each {tasks : List (Task η σ)}
    (heach : ∀ task ∈ tasks, ∀ world next : World η σ,
      attend link react depth topic payload world task = some next →
      ∃ journal, Attends link react topic payload [task] world journal next)
    {world last : World η σ}
    (h : attendAll link react depth topic payload tasks world = some last) :
    ∃ journal, Attends link react topic payload tasks world journal last := by
  induction tasks generalizing world with
  | nil =>
      cases h
      exact ⟨[], .done _⟩
  | cons task tasks ih =>
      obtain ⟨next, hnext, hlast⟩ := Option.bind_eq_some_iff.mp h
      obtain ⟨journal, hjournal⟩ := heach task List.mem_cons_self world next hnext
      obtain ⟨rest, hrest⟩ := ih (fun task hm => heach task (List.mem_cons_of_mem _ hm)) hlast
      exact ⟨_, hjournal.append hrest⟩

theorem Reaction.ne_call {reaction : Reaction η σ} {handler : η} {task : Task η σ}
    (h : task ∈ reaction.tasks handler) (recipient : Registration η) :
    task ≠ .call recipient := by
  rintro rfl
  rw [Reaction.tasks, List.mem_append] at h
  rcases h with h | h
  · simp at h
  · split at h <;> simp at h

/-- A dispatch at some depth follows the rules. -/
def DispatchesAttend (link : Link σ) (react : η → Call → Reaction η σ) (depth : Nat) : Prop :=
  ∀ (topic : String) (payload : Bytes) (world : World η σ) (done : Answer × World η σ),
    World.perform link react depth (.dispatch topic payload) world = some done →
    ∃ journal, Attends link react topic payload ((world.registry.recipients topic).map .call)
        world journal done.2 ∧
      done.1 = .count (world.registry.recipients topic).length

theorem exists_attends_of_not_call (hd : DispatchesAttend link react depth) {task : Task η σ}
    (htask : ∀ recipient, task ≠ .call recipient) {world next : World η σ}
    (h : attend link react depth topic payload world task = some next) :
    ∃ journal, Attends link react topic payload [task] world journal next := by
  cases task with
  | call recipient => exact absurd rfl (htask recipient)
  | fail handler =>
      cases h
      exact ⟨_, .fail (.done _)⟩
  | perform handler step =>
      rw [attend_perform] at h
      obtain ⟨⟨answer, after⟩, hperform, rfl⟩ := Option.map_eq_some_iff.mp h
      rcases step.eq_dispatch_or with ⟨inner, bytes, rfl⟩ | hstep
      · obtain ⟨nested, hnested, rfl⟩ := hd inner bytes world _ hperform
        exact ⟨_, .dispatch hnested (.done _)⟩
      · rw [perform_zero_eq hstep] at hperform
        exact ⟨_, .perform hperform (.done _)⟩

theorem exists_attends_of_dispatches (hd : DispatchesAttend link react depth)
    {tasks : List (Task η σ)} {world last : World η σ}
    (h : attendAll link react depth topic payload tasks world = some last) :
    ∃ journal, Attends link react topic payload tasks world journal last := by
  refine exists_attends_of_each ?_ h
  intro task _ world next hnext
  cases task with
  | call recipient =>
      rw [attend_call] at hnext
      obtain ⟨journal, hjournal⟩ := exists_attends_of_each
        (fun task hm world next => exists_attends_of_not_call hd (Reaction.ne_call hm)) hnext
      refine ⟨.called recipient :: journal, .call ?_⟩
      rwa [List.append_nil]
  | perform handler step => exact exists_attends_of_not_call hd (by simp) hnext
  | fail handler => exact exists_attends_of_not_call hd (by simp) hnext

theorem dispatchesAttend (link : Link σ) (react : η → Call → Reaction η σ) (depth : Nat) :
    DispatchesAttend link react depth := by
  induction depth with
  | zero => exact fun topic payload world done h => by cases h
  | succ depth ih =>
      intro topic payload world done h
      rw [perform_dispatch_eq_attendAll] at h
      obtain ⟨next, hnext, rfl⟩ := Option.map_eq_some_iff.mp h
      obtain ⟨journal, hjournal⟩ := exists_attends_of_dispatches ih hnext
      exact ⟨journal, hjournal, rfl⟩

/-! ## The rules leave no choice -/

theorem Attends.unique {tasks : List (Task η σ)} {world last last' : World η σ}
    {journal journal' : List (Deed η σ)}
    (h : Attends link react topic payload tasks world journal last)
    (h' : Attends link react topic payload tasks world journal' last') :
    journal = journal' ∧ last = last' := by
  induction h generalizing journal' last' with
  | done world =>
      cases h'
      exact ⟨rfl, rfl⟩
  | call _ ih =>
      cases h' with
      | call hrest =>
          obtain ⟨rfl, rfl⟩ := ih hrest
          exact ⟨rfl, rfl⟩
  | perform hperform _ ih =>
      cases h' with
      | perform hperform' hrest =>
          obtain ⟨rfl, rfl⟩ := Prod.mk.inj (Option.some.inj (hperform.symm.trans hperform'))
          obtain ⟨rfl, rfl⟩ := ih hrest
          exact ⟨rfl, rfl⟩
      | dispatch _ _ => cases hperform
  | dispatch _ _ ihn ih =>
      cases h' with
      | perform hperform _ => cases hperform
      | dispatch hnested hrest =>
          obtain ⟨rfl, rfl⟩ := ihn hnested
          obtain ⟨rfl, rfl⟩ := ih hrest
          exact ⟨rfl, rfl⟩
  | fail _ ih =>
      cases h' with
      | fail hrest =>
          obtain ⟨rfl, rfl⟩ := ih hrest
          exact ⟨rfl, rfl⟩

/-! ## No endless chain -/

/-- A message about to be dispatched in some world. -/
structure Sending (η σ : Type) where
  topic : String
  payload : Bytes
  world : World η σ

def Sending.tasks (sending : Sending η σ) : List (Task η σ) :=
  (sending.world.registry.recipients sending.topic).map .call

/-- The dispatches that come up while tasks are done. To come past a dispatch, it has to end. -/
inductive ComesTo (link : Link σ) (react : η → Call → Reaction η σ) (topic : String)
    (payload : Bytes) : List (Task η σ) → World η σ → Sending η σ → Prop
  | here {handler : η} {inner : String} {bytes : Bytes} {tasks : List (Task η σ)}
      {world : World η σ} :
      ComesTo link react topic payload (.perform handler (.dispatch inner bytes) :: tasks) world
        ⟨inner, bytes, world⟩
  | call {recipient : Registration η} {tasks : List (Task η σ)} {world : World η σ}
      {sending : Sending η σ} :
      ComesTo link react topic payload
        ((world.reaction react topic payload recipient).tasks recipient.handler ++ tasks)
        (world.called topic payload recipient) sending →
      ComesTo link react topic payload (.call recipient :: tasks) world sending
  | perform {handler : η} {step : Step η σ} {tasks : List (Task η σ)} {world next : World η σ}
      {answer : Answer} {sending : Sending η σ} :
      World.perform link react 0 step world = some (answer, next) →
      ComesTo link react topic payload tasks (next.note (.performed handler answer)) sending →
      ComesTo link react topic payload (.perform handler step :: tasks) world sending
  | dispatch {handler : η} {inner : String} {bytes : Bytes} {tasks : List (Task η σ)}
      {world next : World η σ} {nested : List (Deed η σ)} {sending : Sending η σ} :
      Attends link react inner bytes ((world.registry.recipients inner).map .call) world nested
        next →
      ComesTo link react topic payload tasks
        (next.note (.performed handler (.count (world.registry.recipients inner).length)))
        sending →
      ComesTo link react topic payload (.perform handler (.dispatch inner bytes) :: tasks) world
        sending
  | fail {handler : η} {tasks : List (Task η σ)} {world : World η σ} {sending : Sending η σ} :
      ComesTo link react topic payload tasks (world.note (.failed handler)) sending →
      ComesTo link react topic payload (.fail handler :: tasks) world sending

/-- One dispatch begins during another, by a handler that the other called. -/
def Begins (link : Link σ) (react : η → Call → Reaction η σ) (inner outer : Sending η σ) : Prop :=
  ComesTo link react outer.topic outer.payload outer.tasks outer.world inner

/-- What a dispatch that ends comes to. -/
def Ends (link : Link σ) (react : η → Call → Reaction η σ) (sending : Sending η σ) : Prop :=
  ∃ journal next, Attends link react sending.topic sending.payload sending.tasks sending.world
    journal next

theorem Attends.acc {tasks : List (Task η σ)} {world last : World η σ}
    {journal : List (Deed η σ)} (h : Attends link react topic payload tasks world journal last)
    {sending : Sending η σ} (hs : ComesTo link react topic payload tasks world sending) :
    Acc (Begins link react) sending := by
  induction h generalizing sending with
  | done world => cases hs
  | call _ ih =>
      cases hs with
      | call hrest => exact ih hrest
  | perform hperform _ ih =>
      cases hs with
      | here => cases hperform
      | dispatch _ _ => cases hperform
      | perform hperform' hrest =>
          obtain ⟨rfl, rfl⟩ := Prod.mk.inj (Option.some.inj (hperform.symm.trans hperform'))
          exact ih hrest
  | dispatch hnested _ ihn ih =>
      cases hs with
      | here => exact .intro _ fun _ => ihn
      | perform hperform _ => cases hperform
      | dispatch hnested' hrest =>
          obtain ⟨-, rfl⟩ := hnested.unique hnested'
          exact ih hrest
  | fail _ ih =>
      cases hs with
      | fail hrest => exact ih hrest

/-! A dispatch inside that ends is no obstacle, and there is nothing else to stop at. -/

theorem exists_attends_cons {task : Task η σ} (htask : ∀ recipient, task ≠ .call recipient)
    {tasks : List (Task η σ)}
    (hrest : ∀ world, (∀ sending, ComesTo link react topic payload tasks world sending →
        Ends link react sending) →
      ∃ journal last, Attends link react topic payload tasks world journal last)
    {world : World η σ}
    (h : ∀ sending, ComesTo link react topic payload (task :: tasks) world sending →
      Ends link react sending) :
    ∃ journal last, Attends link react topic payload (task :: tasks) world journal last := by
  cases task with
  | call recipient => exact absurd rfl (htask recipient)
  | fail handler =>
      obtain ⟨journal, last, hlast⟩ := hrest _ fun sending hs => h sending (.fail hs)
      exact ⟨_, last, .fail hlast⟩
  | perform handler step =>
      rcases step.eq_dispatch_or with ⟨inner, bytes, rfl⟩ | hstep
      · obtain ⟨nested, next, hnested⟩ := h _ .here
        obtain ⟨journal, last, hlast⟩ := hrest _ fun sending hs =>
          h sending (.dispatch hnested hs)
        exact ⟨_, last, .dispatch hnested hlast⟩
      · obtain ⟨answer, next, hperform⟩ := exists_perform_zero hstep world
        obtain ⟨journal, last, hlast⟩ := hrest _ fun sending hs =>
          h sending (.perform hperform hs)
        exact ⟨_, last, .perform hperform hlast⟩

theorem exists_attends_append {first : List (Task η σ)}
    (hfirst : ∀ task ∈ first, ∀ recipient, task ≠ .call recipient) {tasks : List (Task η σ)}
    (hrest : ∀ world, (∀ sending, ComesTo link react topic payload tasks world sending →
        Ends link react sending) →
      ∃ journal last, Attends link react topic payload tasks world journal last)
    {world : World η σ}
    (h : ∀ sending, ComesTo link react topic payload (first ++ tasks) world sending →
      Ends link react sending) :
    ∃ journal last, Attends link react topic payload (first ++ tasks) world journal last := by
  induction first generalizing world with
  | nil => exact hrest world h
  | cons task first ih =>
      refine exists_attends_cons (hfirst task List.mem_cons_self) ?_ h
      intro world h
      exact ih (fun task hm => hfirst task (List.mem_cons_of_mem _ hm)) h

theorem exists_attends_of_comesTo {tasks : List (Task η σ)} {world : World η σ}
    (h : ∀ sending, ComesTo link react topic payload tasks world sending →
      Ends link react sending) :
    ∃ journal last, Attends link react topic payload tasks world journal last := by
  induction tasks generalizing world with
  | nil => exact ⟨[], world, .done world⟩
  | cons task tasks ih =>
      cases task with
      | call recipient =>
          obtain ⟨journal, last, hlast⟩ := exists_attends_append
            (fun task hm => Reaction.ne_call hm) (fun world => ih)
            fun sending hs => h sending (.call hs)
          exact ⟨_, last, .call hlast⟩
      | perform handler step => exact exists_attends_cons (by simp) (fun world => ih) h
      | fail handler => exact exists_attends_cons (by simp) (fun world => ih) h

/-- A dispatch ends just when no endless chain of dispatches begins with it. -/
theorem ends_iff_acc (sending : Sending η σ) :
    Ends link react sending ↔ Acc (Begins link react) sending := by
  constructor
  · rintro ⟨journal, next, h⟩
    exact .intro sending fun inner hinner => h.acc hinner
  · intro h
    induction h with
    | intro sending _ ih => exact exists_attends_of_comesTo ih

/-- The bounded run of a dispatch gives a result at some depth just when the dispatch ends. -/
theorem ends_iff_exists_perform (sending : Sending η σ) :
    Ends link react sending ↔ ∃ depth done, World.perform link react depth
      (.dispatch sending.topic sending.payload) sending.world = some done := by
  constructor
  · rintro ⟨journal, next, h⟩
    obtain ⟨depth, hdepth⟩ := Attends.exists_perform_dispatch h
    exact ⟨depth, _, hdepth depth (Nat.le_refl depth)⟩
  · rintro ⟨depth, done, h⟩
    obtain ⟨journal, hjournal, -⟩ := dispatchesAttend link react depth _ _ _ _ h
    exact ⟨journal, done.2, hjournal⟩

end World

end ThingHub
