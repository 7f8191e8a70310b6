import ThingHub.Proofs.Registry.Nesting
import ThingHub.Proofs.Registry.Refinement
import ThingHub.Registry.Scripted

/-! # A dispatch works on a snapshot

Whatever handlers do while they are called, a dispatch reaches just the recipients that the
registry had when it began. What they do to the registry meanwhile comes to the same as doing
it afterwards, outside any dispatch, in the same order. -/

namespace ThingHub

variable {η σ : Type}

/-! ## Reading a journal -/

def Task.recipient? : Task η σ → Option (Registration η)
  | .call recipient => some recipient
  | _ => none

/-- The recipient called, if that was done by the dispatch itself and not by one inside. -/
def Deed.recipient? : Deed η σ → Option (Registration η)
  | .called recipient => some recipient
  | _ => none

namespace Deed

mutual

/-- The calls of handlers made in a deed, dispatches inside included. -/
def calls (topic : String) (payload : Bytes) : Deed η σ → List (η × String × Bytes)
  | called recipient => [(recipient.handler, topic, payload)]
  | dispatched inner bytes _ journal => allCalls inner bytes journal
  | _ => []

def allCalls (topic : String) (payload : Bytes) : List (Deed η σ) → List (η × String × Bytes)
  | [] => []
  | deed :: deeds => calls topic payload deed ++ allCalls topic payload deeds

end

mutual

/-- The steps performed in a deed with their answers; a dispatch inside stands for the steps
performed in it. -/
def steps : Deed η σ → List (Step η σ × Answer)
  | performed step answer => [(step, answer)]
  | dispatched _ _ _ journal => allSteps journal
  | _ => []

def allSteps : List (Deed η σ) → List (Step η σ × Answer)
  | [] => []
  | deed :: deeds => steps deed ++ allSteps deeds

end

end Deed

theorem Reaction.filterMap_recipient? (handler : η) (reaction : Reaction η σ) :
    (reaction.tasks handler).filterMap Task.recipient? = [] := by
  apply List.filterMap_eq_nil_iff.mpr
  intro task hm
  cases task with
  | call recipient => exact absurd rfl (World.Reaction.ne_call hm recipient)
  | perform handler step => rfl
  | fail handler => rfl

theorem Task.filterMap_recipient?_call (recipients : List (Registration η)) :
    (recipients.map (Task.call (σ := σ))).filterMap Task.recipient? = recipients := by
  rw [List.filterMap_map]
  exact List.filterMap_some

/-! ## A ledger explains a journal -/

/-- What a dispatch may have done that had some recipients still to call. It called just
these, in order. Each step got the answer that the ledger had for it at that time, and a
dispatch inside obeyed the same law. -/
inductive Ledger.Explains : Ledger η → List (Registration η) → List (Deed η σ) → Ledger η → Prop
  | nil (ledger : Ledger η) : Explains ledger [] [] ledger
  | called {ledger last : Ledger η} {recipient : Registration η}
      {recipients : List (Registration η)} {journal : List (Deed η σ)} :
      Explains ledger recipients journal last →
      Explains ledger (recipient :: recipients) (.called recipient :: journal) last
  | performed {ledger last : Ledger η} {recipients : List (Registration η)} {step : Step η σ}
      {answer : Answer} {journal : List (Deed η σ)} :
      (∀ topic payload, step ≠ .dispatch topic payload) → ledger.Answers step answer →
      Explains (ledger.after step) recipients journal last →
      Explains ledger recipients (.performed step answer :: journal) last
  | dispatched {ledger mid last : Ledger η} {recipients : List (Registration η)}
      {topic : String} {payload : Bytes} {nested journal : List (Deed η σ)} :
      ledger.Numbered →
      Explains ledger ((ledger.matching topic).map Entry.registration) nested mid →
      Explains mid recipients journal last →
      Explains ledger recipients
        (.dispatched topic payload (.count (ledger.matching topic).length) nested :: journal) last
  | failed {ledger last : Ledger η} {recipients : List (Registration η)} {handler : η}
      {journal : List (Deed η σ)} :
      Explains ledger recipients journal last →
      Explains ledger recipients (.failed handler :: journal) last

/-- The handlers called by the dispatch itself are its recipients. -/
theorem Ledger.Explains.filterMap_recipient? {ledger last : Ledger η}
    {recipients : List (Registration η)} {journal : List (Deed η σ)}
    (h : ledger.Explains recipients journal last) :
    journal.filterMap Deed.recipient? = recipients := by
  induction h with
  | nil ledger => rfl
  | called _ ih => exact congrArg _ ih
  | performed _ _ _ ih => rw [List.filterMap_cons_none rfl, ih]
  | dispatched _ _ _ _ ih => rw [List.filterMap_cons_none rfl, ih]
  | failed _ ih => rw [List.filterMap_cons_none rfl, ih]

/-- Only a dispatch calls handlers. -/
theorem Ledger.calls_eq_nil {step : Step η σ}
    (h : ∀ topic payload, step ≠ .dispatch topic payload) (ledger : Ledger η) :
    ledger.calls step = [] := by
  cases step with
  | dispatch topic payload => exact absurd rfl (h topic payload)
  | _ => rfl

namespace World

variable {link : Link σ} {react : η → Call → Reaction η σ} {topic : String} {payload : Bytes}
  {tasks : List (Task η σ)} {world last : World η σ} {journal : List (Deed η σ)}

/-- The ledger that the registry represents at the start explains everything done, and
becomes the ledger that the registry represents at the end. -/
theorem Attends.exists_explains (h : Attends link react topic payload tasks world journal last)
    {ledger : Ledger η} (hrep : Registry.Represents ledger world.registry) :
    ∃ after, ledger.Explains (tasks.filterMap Task.recipient?) journal after ∧
      Registry.Represents after last.registry ∧
      last.calls = world.calls ++ Deed.allCalls topic payload journal := by
  induction h generalizing ledger with
  | done world => exact ⟨ledger, .nil ledger, hrep, by simp [Deed.allCalls]⟩
  | @call topic payload recipient tasks world last journal _ ih =>
      obtain ⟨after, hexplains, hafter, hcalls⟩ := ih hrep
      rw [List.filterMap_append, Reaction.filterMap_recipient?, List.nil_append] at hexplains
      refine ⟨after, .called hexplains, hafter, ?_⟩
      have hcalled : (world.called topic payload recipient).calls =
          world.calls ++ [(recipient.handler, topic, payload)] := calls_note _ _
      rw [hcalls, hcalled, Deed.allCalls, Deed.calls, List.append_assoc]
  | @perform topic payload handler step tasks world next last answer journal hperform _ ih =>
      have hstep : ∀ topic payload, step ≠ .dispatch topic payload := by
        rintro topic payload rfl
        cases hperform
      obtain ⟨answer', next', hperform', hanswer, hnext, hquiet⟩ :=
        perform_follows_of_ne_dispatch hrep link react 0 hstep
      obtain ⟨rfl, rfl⟩ := Prod.mk.inj (Option.some.inj (hperform.symm.trans hperform'))
      obtain ⟨after, hexplains, hafter, hcalls⟩ := ih hnext
      refine ⟨after, .performed hstep hanswer hexplains, hafter, ?_⟩
      rw [hcalls, calls_note, hquiet, Ledger.calls_eq_nil hstep]
      simp [Event.call?, Deed.allCalls, Deed.calls]
  | @dispatch topic inner payload bytes handler tasks world next last nested journal _ _ ihn ih =>
      obtain ⟨mid, hnested, hmid, hinside⟩ := ihn hrep
      obtain ⟨after, hexplains, hafter, hcalls⟩ := ih hmid
      rw [Task.filterMap_recipient?_call, hrep.recipients_eq] at hnested
      refine ⟨after, ?_, hafter, ?_⟩
      · rw [hrep.recipients_eq, List.length_map]
        exact .dispatched hrep.numbered hnested hexplains
      · rw [hcalls, calls_note, hinside]
        simp [Event.call?, Deed.allCalls, Deed.calls]
  | fail _ ih =>
      obtain ⟨after, hexplains, hafter, hcalls⟩ := ih hrep
      refine ⟨after, .failed hexplains, hafter, ?_⟩
      rw [hcalls, calls_note]
      simp [Event.call?, Deed.allCalls, Deed.calls]

end World

/-! ## The log plays no part -/

theorem Link.recorded_ask (link : Link σ) (request : Request) (s : σ) (log : List (Event η)) :
    (link.recorded η).ask request (s, log) =
      ((link.ask request s).1, (link.ask request s).2,
        .asked request (link.ask request s).1 :: log) := rfl

theorem Link.flush_recorded (link : Link σ) (owed : Entries Owed) (s : σ)
    (log : List (Event η)) :
    let done := (link.recorded η).flush owed (s, log)
    (done.sent, done.owed, done.link.1) =
      ((link.flush owed s).sent, (link.flush owed s).owed, (link.flush owed s).link) := by
  induction owed generalizing s log with
  | nil => rfl
  | cons entry rest ih =>
      obtain ⟨pattern, kind⟩ := entry
      simp only [Prod.mk.injEq] at ih ⊢
      cases kind with
      | subscribe =>
          cases htaken : (link.ask (.subscribe pattern) s).1 with
          | false => simp [flush, recorded_ask, htaken]
          | true => simp [flush, recorded_ask, htaken, ih]
      | resubscribe =>
          cases hcleared : (link.ask (.unsubscribe pattern) s).1 with
          | false => simp [flush, recorded_ask, hcleared]
          | true =>
              let cleared := (link.ask (.unsubscribe pattern) s).2
              cases htaken : (link.ask (.subscribe pattern) cleared).1 with
              | false => simp [flush, recorded_ask, hcleared, cleared, htaken]
              | true => simp [flush, recorded_ask, hcleared, cleared, htaken, ih]

theorem Registry.flush_recorded (link : Link σ) (registry : Registry η) (s : σ)
    (log : List (Event η)) :
    let done := registry.flush (link.recorded η) (s, log)
    done.1 = (registry.flush link s).1 ∧ (done.2.1, done.2.2.1) = (registry.flush link s).2 := by
  have h := link.flush_recorded registry.pending s log
  obtain ⟨hsent, howed, hlink⟩ := by simpa only [Prod.mk.injEq] using h
  simp only [flush, hsent, howed, hlink, and_self]

theorem Registry.subscribed_recorded (link : Link σ) (linked : Bool) (p : Pattern) (handler : η)
    (registry : Registry η) (s : σ) (log : List (Event η)) :
    let done := registry.subscribed (link.passed η linked) p handler (s, log)
    (done.1, done.2.1) = registry.subscribed (if linked then some link else none) p handler s := by
  cases linked with
  | false => rfl
  | true =>
      simp only [subscribed, Link.passed, if_true]
      split
      · rfl
      · exact (flush_recorded link (registry.owing p handler) s log).2

theorem Registry.told_recorded (link : Link σ) (linked : Bool) (text : String)
    (registry : Registry η) (s : σ) (log : List (Event η)) :
    (registry.told (link.passed η linked) text (s, log)).1 =
      registry.told (if linked then some link else none) text s := by
  cases linked with
  | false => rfl
  | true =>
      simp only [told, Link.passed, if_true]
      split <;> rfl

namespace World

/-- Worlds with the same registry and the same link; handlers may have run differently. -/
structure Alike (world other : World η σ) : Prop where
  registry : other.registry = world.registry
  link : other.link = world.link

variable {link : Link σ} {react : η → Call → Reaction η σ}

theorem alike_settle_flush (link : Link σ) (registry : Registry η) {world other : World η σ}
    (halike : Alike world other) :
    let done := registry.flush (link.recorded η) (world.link, world.log)
    let done' := registry.flush (link.recorded η) (other.link, other.log)
    done'.1 = done.1 ∧
      Alike (world.settle done.2.1 done.2.2) (other.settle done'.2.1 done'.2.2) := by
  obtain ⟨hcount, hdone⟩ := registry.flush_recorded link world.link world.log
  obtain ⟨hcount', hdone'⟩ := registry.flush_recorded link world.link other.log
  obtain ⟨hregistry, hlink⟩ := Prod.mk.inj (hdone'.trans hdone.symm)
  rw [halike.link]
  exact ⟨hcount'.trans hcount.symm, hregistry, hlink⟩

/-- A step that calls no handler goes the same way in worlds that are alike. -/
theorem exists_perform_alike {step : Step η σ} {world other next : World η σ} {answer : Answer}
    (halike : Alike world other)
    (h : World.perform link react 0 step world = some (answer, next))
    (react' : η → Call → Reaction η σ) (depth : Nat) :
    ∃ next', World.perform link react' depth step other = some (answer, next') ∧
      Alike next next' := by
  cases step with
  | subscribe text handler linked =>
      rcases Registry.eq_empty_or_exists_pattern text with rfl | ⟨p, rfl⟩
      · rw [perform_subscribe_empty] at h
        obtain ⟨rfl, rfl⟩ := Prod.mk.inj (Option.some.inj h)
        exact ⟨other, perform_subscribe_empty handler linked other, halike⟩
      · rw [perform_subscribe_pattern] at h
        obtain ⟨rfl, rfl⟩ := Prod.mk.inj (Option.some.inj h)
        have hdone := world.registry.subscribed_recorded link linked p handler world.link world.log
        have hdone' :=
          world.registry.subscribed_recorded link linked p handler world.link other.log
        obtain ⟨hregistry, hlink⟩ := Prod.mk.inj (hdone'.trans hdone.symm)
        rw [perform_subscribe_pattern, halike.registry, halike.link]
        exact ⟨_, rfl, hregistry, hlink⟩
  | unsubscribe text linked =>
      cases hget : Entries.get? text world.registry.patterns with
      | none =>
          rw [perform_unsubscribe_unknown hget] at h
          obtain ⟨rfl, rfl⟩ := Prod.mk.inj (Option.some.inj h)
          exact ⟨other, perform_unsubscribe_unknown (halike.registry ▸ hget) linked, halike⟩
      | some p =>
          rw [perform_unsubscribe_known hget] at h
          obtain ⟨rfl, rfl⟩ := Prod.mk.inj (Option.some.inj h)
          have hlink := world.registry.told_recorded link linked text world.link world.log
          have hlink' := world.registry.told_recorded link linked text world.link other.log
          rw [perform_unsubscribe_known (halike.registry ▸ hget), halike.registry, halike.link]
          exact ⟨_, rfl, rfl, hlink'.trans hlink.symm⟩
  | replay =>
      rw [perform_replay] at h
      obtain ⟨rfl, rfl⟩ := Prod.mk.inj (Option.some.inj h)
      obtain ⟨hcount, hdone⟩ := alike_settle_flush link world.registry.renewed halike
      refine ⟨_, ?_, hdone⟩
      rw [perform_replay, halike.registry]
      exact congrArg (fun n => some (Answer.count n, _)) hcount
  | flush =>
      rw [perform_flush] at h
      obtain ⟨rfl, rfl⟩ := Prod.mk.inj (Option.some.inj h)
      obtain ⟨hcount, hdone⟩ := alike_settle_flush link world.registry halike
      refine ⟨_, ?_, hdone⟩
      rw [perform_flush, halike.registry]
      exact congrArg (fun n => some (Answer.count n, _)) hcount
  | clear =>
      rw [perform_clear] at h
      obtain ⟨rfl, rfl⟩ := Prod.mk.inj (Option.some.inj h)
      exact ⟨_, perform_clear other, congrArg Registry.clearBroker halike.registry, halike.link⟩
  | tune change =>
      rw [perform_tune] at h
      obtain ⟨rfl, rfl⟩ := Prod.mk.inj (Option.some.inj h)
      exact ⟨_, perform_tune change other, halike.registry, congrArg change halike.link⟩
  | dispatch topic payload => cases h
  | query text =>
      rw [perform_query] at h
      obtain ⟨rfl, rfl⟩ := Prod.mk.inj (Option.some.inj h)
      rw [perform_query, halike.registry]
      exact ⟨other, rfl, halike⟩

/-- Outside any dispatch, the steps that handlers performed get the same answers and lead to
the same registry and link. -/
theorem Attends.exists_performEach {topic : String} {payload : Bytes} {tasks : List (Task η σ)}
    {world last : World η σ} {journal : List (Deed η σ)}
    (h : Attends link react topic payload tasks world journal last) {other : World η σ}
    (halike : Alike world other) (react' : η → Call → Reaction η σ) (depth : Nat) :
    ∃ last', performEach react' depth
        ((Deed.allSteps journal).map fun done => (link, done.1)) other =
          some ((Deed.allSteps journal).map Prod.snd, last') ∧
      Alike last last' := by
  induction h generalizing other with
  | done world => exact ⟨other, rfl, halike⟩
  | call _ ih => exact ih ⟨halike.registry, halike.link⟩
  | fail _ ih => exact ih ⟨halike.registry, halike.link⟩
  | perform hperform _ ih =>
      obtain ⟨next', hnext', hsame⟩ := exists_perform_alike halike hperform react' depth
      obtain ⟨last', hlast', hend⟩ := ih ⟨hsame.registry, hsame.link⟩
      exact ⟨last', performEach_cons_eq_some hnext' hlast', hend⟩
  | dispatch _ _ ihn ih =>
      obtain ⟨next', hnext', hsame⟩ := ihn halike
      obtain ⟨last', hlast', hend⟩ := ih ⟨hsame.registry, hsame.link⟩
      refine ⟨last', ?_, hend⟩
      rw [Deed.allSteps, Deed.steps, List.map_append, List.map_append]
      exact performEach_append_eq_some hnext' hlast'

/-- Whatever handlers do while they run, and whether or not they fail: a dispatch that ends
calls just the handlers that were registered under an accepting pattern when it began, each
once, in ascending order, and answers how many they are. A ledger explains all that is done
in it, so each dispatch inside obeys the same law for the state at its own start; all calls
carry the topic and the payload of their own dispatch; and the registry and the link at the
end are those that the steps of the handlers lead to outside any dispatch. -/
theorem perform_dispatch_reaches_snapshot {topic : String} {payload : Bytes} {world : World η σ}
    (hr : world.registry.Reachable) (hends : Acc (Begins link react) ⟨topic, payload, world⟩) :
    ∃ ledger journal next after,
      Registry.Represents ledger world.registry ∧
      (∃ depth, ∀ more, depth ≤ more →
        World.perform link react more (.dispatch topic payload) world =
          some (.count (ledger.matching topic).length, next)) ∧
      Attends link react topic payload ((world.registry.recipients topic).map .call) world journal
        next ∧
      journal.filterMap Deed.recipient? = (ledger.matching topic).map Entry.registration ∧
      ((ledger.matching topic).Pairwise fun a b => a.id.index < b.id.index) ∧
      next.calls = world.calls ++ Deed.allCalls topic payload journal ∧
      ledger.Explains ((ledger.matching topic).map Entry.registration) journal after ∧
      Registry.Represents after next.registry ∧
      ∃ last, performEach (quiet fun _ _ => false) 0
          ((Deed.allSteps journal).map fun done => (link, done.1)) world =
            some ((Deed.allSteps journal).map Prod.snd, last) ∧
        last.registry = next.registry ∧ last.link = next.link := by
  obtain ⟨journal, next, h⟩ := (ends_iff_acc _).mpr hends
  obtain ⟨ledger, hrep⟩ := hr.exists_represents
  have hlength := congrArg List.length (hrep.recipients_eq topic)
  rw [List.length_map] at hlength
  obtain ⟨after, hexplains, hafter, hcalls⟩ := h.exists_explains hrep
  rw [Sending.tasks, Task.filterMap_recipient?_call, hrep.recipients_eq] at hexplains
  obtain ⟨last, hlast, halike⟩ := h.exists_performEach ⟨rfl, rfl⟩ (quiet fun _ _ => false) 0
  have hresult := Attends.exists_perform_dispatch h
  rw [hlength] at hresult
  exact ⟨ledger, journal, next, after, hrep, hresult, h, hexplains.filterMap_recipient?,
    hrep.numbered.ascending.filter _, hcalls, hexplains, hafter, last, hlast, halike.registry,
    halike.link⟩

/-- The first of two recipients registers a third one, drops the second, dispatches another
topic and then fails. The third is not called, the second is. -/
theorem perform_dispatch_reaches_snapshot_changed_meanwhile :
    let third : Scripted := .mk "third" false 1 []
    let first : Scripted := .mk "first" true 1
      [.subscribe "a/b" third true, .unsubscribe "a/#" true, .dispatch "c" []]
    let registry : Registry Scripted := (((Registry.empty.register ⟨"a/+", by decide⟩
      first).register ⟨"a/#", by decide⟩ (.mk "second" false 1 [])).register ⟨"c", by decide⟩
        (.mk "inside" false 1 []))
    let world : World Scripted Room := ⟨registry, none, fun _ => 0, []⟩
    registry.Reachable ∧ Acc (Begins Room.link Scripted.react) ⟨"a/b", [1], world⟩ ∧
      ∃ next depth, World.perform Room.link Scripted.react depth (.dispatch "a/b" [1]) world =
          some (.count 2, next) ∧
        next.calls.map (fun call => (call.1.label, call.2)) =
          [("first", "a/b", [1]), ("inside", "c", []), ("second", "a/b", [1])] ∧
        next.registry.patternTexts = ["a/+", "a/b", "c"] := by
  intro third first registry world
  have hr : registry.Reachable :=
    ((Registry.Reachable.empty.register _ first).register _ _).register _ _
  let recipients : List (Registration Scripted) :=
    [⟨⟨0⟩, first⟩, ⟨⟨1⟩, .mk "second" false 1 []⟩]
  have hrecipients : registry.recipients "a/b" = recipients := by
    have hfind : (registry.tree.find "a/b").flatten = recipients := rfl
    rw [Registry.recipients, hfind]
    exact List.mergeSort_of_pairwise (by decide)
  have hrun : (World.perform Room.link Scripted.react 2 (.dispatch "a/b" [1]) world).map
      (fun done => ((done.1, done.2.registry.patternTexts),
        done.2.calls.map (fun call => (call.1.label, call.2)))) =
      some ((.count 2, ["a/+", "a/b", "c"]),
        [("first", "a/b", [1]), ("inside", "c", []), ("second", "a/b", [1])]) := by
    simp only [World.perform, world, hrecipients]
    decide +kernel
  obtain ⟨⟨answer, next⟩, hperform, hdone⟩ := Option.map_eq_some_iff.mp hrun
  obtain ⟨⟨rfl, hpatterns⟩, hcalls⟩ := by simpa only [Prod.mk.injEq] using hdone
  have hends : Ends Room.link Scripted.react ⟨"a/b", [1], world⟩ :=
    (ends_iff_exists_perform _).mpr ⟨2, _, hperform⟩
  have hacc := (ends_iff_acc _).mp hends
  obtain ⟨ledger, journal, last, after, hrep, ⟨depth, hdepth⟩, hattends, -⟩ :=
    perform_dispatch_reaches_snapshot hr hacc
  obtain ⟨_, hsame, hcount⟩ := dispatchesAttend Room.link Scripted.react 2 _ _ _ _ hperform
  obtain ⟨-, rfl⟩ := hattends.unique hsame
  rw [hrep.recipients_eq, List.length_map] at hcount
  rw [← hcount] at hdepth
  exact ⟨hr, hacc, last, depth, hdepth depth (Nat.le_refl depth), hcalls, hpatterns⟩

end World

end ThingHub
