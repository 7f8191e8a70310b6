import Mathlib.Algebra.GroupWithZero.Nat
import Mathlib.Data.List.Induction
import ThingHub.Proofs.Registry.Session

/-! # Replays that refusals cut short

A replay asks for two requests a pattern. Wherever a refusal cuts it short, the next flush
goes on with the very request that was refused. So the requests that are taken are a front
part of one and the same list at any time, however the calls and refusals fall. -/

namespace ThingHub

variable {η σ : Type}

/-! ## The requests that are owed -/

/-- What is asked for a pattern, in order. -/
def Owed.requests (pattern : String) : Owed → List Request
  | .resubscribe => [.unsubscribe pattern, .subscribe pattern]
  | .subscribe => [.subscribe pattern]

/-- Everything owed, request by request, in the order in which it is asked. -/
def Owed.requestsOf (owed : Entries Owed) : List Request :=
  owed.flatMap fun entry => entry.2.requests entry.1

/-- The requests of a replay that nothing cuts short. -/
def Registry.replayRequests (registry : Registry η) : List Request :=
  registry.patternTexts.flatMap (Owed.requests · .resubscribe)

theorem Owed.requestsOf_replay (registry : Registry η) :
    Owed.requestsOf (registry.patterns.map fun entry => (entry.1, Owed.resubscribe)) =
      registry.replayRequests := by
  simp [Owed.requestsOf, Registry.replayRequests, Registry.patternTexts, Entries.keys,
    List.flatMap_map]

theorem mem_replayRequests {patterns : List String} {request : Request}
    (h : request ∈ patterns.flatMap (Owed.requests · .resubscribe)) :
    request.pattern ∈ patterns := by
  obtain ⟨pattern, hp, hr⟩ := List.mem_flatMap.mp h
  rcases (by simpa [Owed.requests] using hr : _ ∨ _) with rfl | rfl <;> exact hp

/-- Of different patterns no request is asked for twice. -/
theorem nodup_replayRequests {patterns : List String} (h : patterns.Nodup) :
    (patterns.flatMap (Owed.requests · .resubscribe)).Nodup := by
  induction patterns with
  | nil => exact .nil
  | cons pattern rest ih =>
      obtain ⟨hfirst, hrest⟩ := List.nodup_cons.mp h
      rw [List.flatMap_cons]
      refine List.nodup_append.mpr ⟨by simp [Owed.requests], ih hrest, ?_⟩
      rintro request hm other ho rfl
      have hother : request.pattern ∈ rest := mem_replayRequests ho
      rcases (by simpa [Owed.requests] using hm : _ ∨ _) with rfl | rfl <;> exact hfirst hother

/-- No pattern is unsubscribed behind its own subscribe request. -/
theorem not_subscribe_unsubscribe_sublist {patterns : List String} (h : patterns.Nodup)
    (pattern : String) : ¬[Request.subscribe pattern, .unsubscribe pattern].Sublist
      (patterns.flatMap (Owed.requests · .resubscribe)) := by
  induction patterns with
  | nil => simp
  | cons first rest ih =>
      obtain ⟨hfirst, hrest⟩ := List.nodup_cons.mp h
      intro hsub
      have hsub : [Request.subscribe pattern, .unsubscribe pattern].Sublist
          (.unsubscribe first :: .subscribe first ::
            rest.flatMap (Owed.requests · .resubscribe)) := hsub
      have hbehind := (List.sublist_cons_iff.mp hsub).resolve_right (by simp)
      rcases List.sublist_cons_iff.mp hbehind with hrestsub | ⟨tail, htail, hrestsub⟩
      · exact ih hrest hrestsub
      · obtain ⟨hp, rfl⟩ := List.cons.inj htail
        obtain rfl : pattern = first := Request.subscribe.inj hp
        exact hfirst (mem_replayRequests (hrestsub.subset List.mem_cons_self))

/-! ## What one call asks -/

/-- What one call asks of its link: requests that are taken, then at most one that is
refused and ends the call. -/
structure Burst where
  taken : List Request
  refused : Option Request

/-- The events of a call, in order. -/
def Burst.events (burst : Burst) : List (Event η) :=
  burst.taken.map (.asked · true) ++ burst.refused.toList.map (.asked · false)

/-- A flush takes requests off the front of what is owed, and is refused the next one if
there is one. -/
theorem Link.Flushes.exists_burst {link : Link σ} {owed : Entries Owed}
    {state : σ × List (Event η)} {result : Flushed (σ × List (Event η))}
    (h : (link.recorded η).Flushes owed state result) :
    ∃ burst : Burst, result.link.2 = burst.events.reverse ++ state.2 ∧
      Owed.requestsOf owed = burst.taken ++ Owed.requestsOf result.owed ∧
      burst.refused = (Owed.requestsOf result.owed).head? := by
  induction h with
  | done state => exact ⟨⟨[], none⟩, rfl, rfl, rfl⟩
  | @cleared pattern rest _ _ _ hask _ ih =>
      obtain ⟨burst, hlog, howed, hrefused⟩ := ih
      refine ⟨⟨.unsubscribe pattern :: burst.taken, burst.refused⟩, ?_, ?_, hrefused⟩
      · rw [hlog, Link.log_of_recorded_ask hask]
        simp [Burst.events]
      · exact congrArg (Request.unsubscribe pattern :: ·) howed
  | @clearRefused pattern rest _ _ hask =>
      refine ⟨⟨[], some (.unsubscribe pattern)⟩, ?_, rfl, rfl⟩
      rw [Link.log_of_recorded_ask hask]
      rfl
  | @sent pattern rest _ _ _ hask _ ih =>
      obtain ⟨burst, hlog, howed, hrefused⟩ := ih
      refine ⟨⟨.subscribe pattern :: burst.taken, burst.refused⟩, ?_, ?_, hrefused⟩
      · rw [hlog, Link.log_of_recorded_ask hask]
        simp [Burst.events]
      · exact congrArg (Request.subscribe pattern :: ·) howed
  | @refused pattern rest _ _ hask =>
      refine ⟨⟨[], some (.subscribe pattern)⟩, ?_, rfl, rfl⟩
      rw [Link.log_of_recorded_ask hask]
      rfl

/-- Booking new patterns adds them to the ones booked before. -/
theorem foldl_insert_eq_append {sent booked : List String} (h : (sent ++ booked).Nodup) :
    sent.foldl (fun booked pattern => booked.insert pattern) booked = sent.reverse ++ booked := by
  induction sent generalizing booked with
  | nil => rfl
  | cons pattern rest ih =>
      have hswap : (rest ++ pattern :: booked).Nodup := List.perm_middle.nodup_iff.mpr h
      have hnew : pattern ∉ booked :=
        fun hm => (List.nodup_cons.mp h).1 (List.mem_append_right _ hm)
      rw [List.foldl_cons, List.insert_of_not_mem hnew, ih hswap]
      simp

namespace World

/-! ## A replay in progress -/

/-- The request that the latest of some calls was refused, if it was refused one. -/
def stuck (bursts : List Burst) : List Request :=
  (bursts.getLast?.bind Burst.refused).toList

/-- A replay so many calls into it: what the calls took and what is still owed make up the
whole, the latest refusal is about the next request, and the calls counted the patterns
that are booked. -/
structure Replaying (start : Registry η) (bursts : List Burst) (counts : List Nat)
    (world : World η σ) : Prop where
  inStep : Registry.InStep ∅ world.registry world.log
  patterns : world.registry.patterns = start.patterns
  log : world.log = (bursts.flatMap Burst.events).reverse
  requests : start.replayRequests =
    bursts.flatMap Burst.taken ++ Owed.requestsOf world.registry.pending
  next : stuck bursts <+: Owed.requestsOf world.registry.pending
  nodup : world.registry.onBroker.Nodup
  counted : counts.sum = world.registry.onBroker.length

/-- The registry and link of a world are left to a flush. -/
def flushed (link : Link σ) (world : World η σ) : World η σ :=
  let done := world.registry.flush (link.recorded η) (world.link, world.log)
  world.settle done.2.1 done.2.2

/-- One flush carries a replay on, from wherever it was cut short. -/
theorem Replaying.flush {start : Registry η} {bursts : List Burst} {counts : List Nat}
    {world : World η σ} (h : Replaying start bursts counts world) (link : Link σ) :
    ∃ burst, Replaying start (bursts ++ [burst])
      (counts ++ [(world.registry.flush (link.recorded η) (world.link, world.log)).1])
      (world.flushed link) := by
  have hflush := (link.recorded η).flushes_flush world.registry.pending (world.link, world.log)
  obtain ⟨burst, hlog, howed, hrefused⟩ := hflush.exists_burst
  have hkeys := hflush.sent_append_keys_owed
  have hapart : (((link.recorded η).flush world.registry.pending
      (world.link, world.log)).sent ++ world.registry.onBroker).Nodup := by
    have hnodup := Entries.nodup_keys h.inStep.ordered
    rw [← hkeys] at hnodup
    refine List.nodup_append.mpr ⟨(List.nodup_append.mp hnodup).1, h.nodup, ?_⟩
    rintro pattern hs other ho rfl
    apply h.inStep.apart pattern ho
    rw [← hkeys]
    exact List.mem_append_left _ hs
  have hbooked : (world.flushed link).registry.onBroker = ((link.recorded η).flush
      world.registry.pending (world.link, world.log)).sent.reverse ++ world.registry.onBroker :=
    foldl_insert_eq_append hapart
  refine ⟨burst, h.inStep.flush link (world.link, world.log), h.patterns, ?_, ?_, ?_, ?_, ?_⟩
  · have hafter : (world.flushed link).log = burst.events.reverse ++ world.log := hlog
    rw [hafter, h.log]
    simp
  · rw [h.requests, howed]
    simp [flushed, settle, Registry.flush]
  · rw [stuck, List.getLast?_concat, Option.bind_some, hrefused, ← List.take_one]
    exact List.take_prefix 1 _
  · rw [hbooked]
    exact ((List.reverse_perm _).append_right _).nodup_iff.mpr hapart
  · rw [hbooked, List.length_append, List.length_reverse, List.sum_append, List.sum_singleton,
      h.counted]
    exact Nat.add_comm _ _

/-- Before its first request a replay owes everything. -/
theorem replaying_renewed {registry : Registry η} (h : registry.Keyed) (s : σ)
    (runs : HandlerId → Nat) : Replaying registry [] [] ⟨registry.renewed, s, runs, []⟩ where
  inStep := h.inStep_renewed ∅ []
  patterns := rfl
  log := rfl
  requests := (Owed.requestsOf_replay registry).symm
  next := List.nil_prefix
  nodup := .nil
  counted := rfl

/-- A replay, then so many flushes, each call with a link of its own. -/
def replayRun (link : Link σ) (links : List (Link σ)) : List (Link σ × Step η σ) :=
  (link, .replay) :: links.map (·, .flush)

/-- Each call of a replay run carries the replay on. -/
theorem exists_replaying {registry : Registry η} (h : registry.Keyed) (link : Link σ)
    (links : List (Link σ)) (react : η → Call → Reaction η σ) (depth : Nat) (s : σ)
    (runs : HandlerId → Nat) :
    ∃ (bursts : List Burst) (counts : List Nat),
      bursts.length = links.length + 1 ∧ counts.length = links.length + 1 ∧
      ∀ k ≤ links.length, ∃ world,
        performEach react depth (replayRun link (links.take k)) ⟨registry, s, runs, []⟩ =
            some ((counts.take (k + 1)).map Answer.count, world) ∧
          Replaying registry (bursts.take (k + 1)) (counts.take (k + 1)) world := by
  induction links using List.reverseRecOn with
  | nil =>
      obtain ⟨burst, hburst⟩ := (replaying_renewed h s runs).flush link
      refine ⟨[burst], [(registry.renewed.flush (link.recorded η) (s, [])).1], rfl, rfl, ?_⟩
      intro k hk
      obtain rfl : k = 0 := Nat.le_zero.mp hk
      exact ⟨_, performEach_cons_eq_some (perform_replay _) rfl, hburst⟩
  | append_singleton links last ih =>
      obtain ⟨bursts, counts, hbursts, hcounts, hcalls⟩ := ih
      obtain ⟨world, hrun, hworld⟩ := hcalls links.length (Nat.le_refl _)
      rw [List.take_length, ← hcounts, List.take_length] at hrun
      rw [← hbursts, List.take_length, hbursts, ← hcounts, List.take_length] at hworld
      obtain ⟨burst, hburst⟩ := hworld.flush last
      let count := (world.registry.flush (last.recorded η) (world.link, world.log)).1
      refine ⟨bursts ++ [burst], counts ++ [count], by simp [hbursts], by simp [hcounts], ?_⟩
      intro k hk
      rw [List.length_append, List.length_singleton] at hk
      rcases Nat.lt_succ_iff_lt_or_eq.mp (Nat.lt_succ_of_le hk) with hlt | rfl
      · have hle : k ≤ links.length := Nat.le_of_lt_succ hlt
        rw [List.take_append_of_le_length hle, List.take_append_of_le_length (by omega),
          List.take_append_of_le_length (by omega)]
        exact hcalls k hle
      · refine ⟨world.flushed last, ?_, ?_⟩
        · rw [List.take_of_length_le (by simp), List.take_of_length_le (by simp [hcounts])]
          have hlast : World.perform last react depth .flush world =
              some (.count count, world.flushed last) := perform_flush world
          simpa [replayRun] using
            performEach_append_eq_some hrun (performEach_cons_eq_some hlast rfl)
        · rw [List.take_of_length_le (by simp [hbursts]),
            List.take_of_length_le (by simp [hcounts])]
          exact hburst

/-- Replay does not depend on how refusals fall. After every call of a replay run, with any
answers of the links, the requests taken so far are a front part of the one list that asks
for the patterns in ascending order; each call stops at its first refusal, which is about
the next request of the list; the answers add up to the patterns on the broker; and once
nothing is owed, the whole list was taken. -/
theorem performEach_replay_takes_requests_in_order {registry : Registry η}
    (hr : registry.Reachable) (link : Link σ) (links : List (Link σ))
    (react : η → Call → Reaction η σ) (depth : Nat) (s : σ) (runs : HandlerId → Nat) :
    registry.patternTexts.Pairwise (· < ·) ∧
      ∃ (bursts : List Burst) (counts : List Nat),
        bursts.length = links.length + 1 ∧ counts.length = links.length + 1 ∧
        ∀ k ≤ links.length, ∃ world,
          let taken := (bursts.take (k + 1)).flatMap Burst.taken
          performEach react depth (replayRun link (links.take k)) ⟨registry, s, runs, []⟩ =
              some ((counts.take (k + 1)).map Answer.count, world) ∧
            world.log = ((bursts.take (k + 1)).flatMap Burst.events).reverse ∧
            taken <+: registry.replayRequests ∧
            taken ++ stuck (bursts.take (k + 1)) <+: registry.replayRequests ∧ taken.Nodup ∧
            (∀ pattern, ¬[Request.subscribe pattern, .unsubscribe pattern].Sublist taken) ∧
            world.registry.onBroker.Nodup ∧
            (counts.take (k + 1)).sum = world.registry.onBroker.length ∧
            (world.registry.pendingCount = 0 → taken = registry.replayRequests) := by
  have hnodup : registry.patternTexts.Nodup := Entries.nodup_keys hr.keyed.ordered
  obtain ⟨bursts, counts, hbursts, hcounts, hcalls⟩ :=
    exists_replaying hr.keyed link links react depth s runs
  refine ⟨hr.keyed.ordered, bursts, counts, hbursts, hcounts, ?_⟩
  intro k hk
  obtain ⟨world, hrun, hworld⟩ := hcalls k hk
  have htaken := List.prefix_append ((bursts.take (k + 1)).flatMap Burst.taken)
    (Owed.requestsOf world.registry.pending)
  rw [← hworld.requests] at htaken
  refine ⟨world, hrun, hworld.log, htaken, ?_, ?_, ?_, hworld.nodup, hworld.counted, ?_⟩
  · rw [hworld.requests]
    exact (List.prefix_append_right_inj _).mpr hworld.next
  · exact (nodup_replayRequests hnodup).sublist htaken.sublist
  · intro pattern hsub
    exact not_subscribe_unsubscribe_sublist hnodup pattern (hsub.trans htaken.sublist)
  · intro hzero
    have hpending : world.registry.pending = [] := List.eq_nil_of_length_eq_zero hzero
    rw [hworld.requests, hpending]
    exact (List.append_nil _).symm

/-- A replay that is cut between the two requests of its last pattern, and a flush that
gets the other one through. -/
theorem performEach_replay_takes_requests_in_order_half_sent :
    let registry : Registry Nat :=
      (Registry.empty.register ⟨"b", by decide⟩ 0).register ⟨"a", by decide⟩ 1
    let roomy : Link Room := ⟨fun _ room => (true, room)⟩
    registry.Reachable ∧ ∃ (bursts : List Burst) (world : World Nat Room),
      bursts.length = 2 ∧
      performEach (quiet fun _ _ => false) 0 (replayRun Room.link [roomy])
          ⟨registry, some 3, fun _ => 0, []⟩ = some ([.count 1, .count 1], world) ∧
        world.log = (bursts.flatMap Burst.events).reverse ∧
        bursts.flatMap Burst.taken =
          [.unsubscribe "a", .subscribe "a", .unsubscribe "b", .subscribe "b"] := by
  intro registry roomy
  have hr : registry.Reachable := (Registry.Reachable.empty.register _ 0).register _ 1
  obtain ⟨-, bursts, counts, hbursts, -, hcalls⟩ :=
    performEach_replay_takes_requests_in_order hr Room.link [roomy] (quiet fun _ _ => false) 0
      (some 3) fun _ => 0
  obtain ⟨world, hrun, hlog, -, -, -, -, -, -, hwhole⟩ := hcalls 1 (Nat.le_refl 1)
  have hall : bursts.take (1 + 1) = bursts := List.take_of_length_le (Nat.le_of_eq hbursts)
  rw [hall] at hlog hwhole
  have hlast := Option.some.inj hrun
  have hanswers : [.count 1, .count 1] = (counts.take (1 + 1)).map Answer.count :=
    congrArg Prod.fst hlast
  have hzero : world.registry.pendingCount = 0 :=
    (congrArg (fun last => last.2.registry.pendingCount) hlast).symm
  exact ⟨hr, bursts, world, hbursts, hanswers ▸ hrun, hlog, hwhole hzero⟩

end World

end ThingHub
