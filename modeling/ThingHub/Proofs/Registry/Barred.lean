import ThingHub.Proofs.Registry.Session

/-! # Patterns that a link bars

A link may refuse a pattern for good, since any text but the empty one is a pattern and the
broker decides which it takes. What is owed goes out in one order and stops at the first
refusal, so a barred pattern holds up every pattern behind it, and none before it. -/

namespace ThingHub

variable {η σ : Type} {barred : Set String}

/-- A link that refuses to subscribe to some patterns and takes every other request. -/
def Link.Bars (barred : Set String) (link : Link σ) : Prop :=
  ∀ request s, (link.ask request s).1 = false ↔
    ∃ pattern ∈ barred, request = .subscribe pattern

theorem Link.Bars.recorded {link : Link σ} (h : link.Bars barred) :
    (link.recorded η).Bars barred :=
  fun request state => h request state.1

/-! ## Flushing -/

theorem Link.Bars.not_mem_of_ask {link : Link σ} (h : link.Bars barred) {pattern : String}
    {s s' : σ} (hask : link.ask (.subscribe pattern) s = (true, s')) : pattern ∉ barred := by
  intro hp
  have hrefused := (h _ s).mpr ⟨pattern, hp, rfl⟩
  rw [hask] at hrefused
  cases hrefused

theorem Link.Bars.mem_of_ask {link : Link σ} (h : link.Bars barred) {request : Request}
    {s s' : σ} (hask : link.ask request s = (false, s')) :
    ∃ pattern ∈ barred, request = .subscribe pattern :=
  (h request s).mp (congrArg Prod.fst hask)

/-- A flush gets through what stands before the first barred pattern. -/
theorem Link.Flushes.sent_not_barred {link : Link σ} {owed : Entries Owed} {s : σ}
    {result : Flushed σ} (h : link.Flushes owed s result) (hb : link.Bars barred) :
    (∀ pattern ∈ result.sent, pattern ∉ barred) ∧
      ∀ pattern ∈ (Entries.keys result.owed).head?, pattern ∈ barred := by
  induction h with
  | done s => exact ⟨by simp, by simp [Entries.keys]⟩
  | cleared _ _ ih => exact ih
  | clearRefused hask =>
      obtain ⟨_, _, hrequest⟩ := hb.mem_of_ask hask
      cases hrequest
  | @sent pattern rest s s' result hask _ ih =>
      refine ⟨List.forall_mem_cons.mpr ⟨hb.not_mem_of_ask hask, ih.1⟩, ih.2⟩
  | @refused pattern rest s s' hask =>
      obtain ⟨other, hother, hrequest⟩ := hb.mem_of_ask hask
      obtain rfl : pattern = other := Request.subscribe.inj hrequest
      exact ⟨by simp, by simpa [Entries.keys] using hother⟩

namespace Registry

/-- A pattern stands before every registered one that is barred. -/
def Ahead (barred : Set String) (registry : Registry η) (pattern : String) : Prop :=
  ∀ other ∈ Entries.keys registry.patterns, other ∈ barred → pattern < other

/-- A registry in step whose bookings are just the patterns before all barred ones. -/
structure HeldUp (barred : Set String) (registry : Registry η) (log : List (Event η)) : Prop
    extends InStep ∅ registry log where
  booked : ∀ pattern ∈ Entries.keys registry.patterns,
    pattern ∈ registry.onBroker ↔ Ahead barred registry pattern

variable {registry : Registry η} {log : List (Event η)}

/-- Whatever is booked is ahead; a flush then books all that is ahead. -/
theorem InStep.heldUp_flush {link : Link σ} {state : σ × List (Event η)}
    (h : InStep ∅ registry state.2) (hb : link.Bars barred)
    (ha : ∀ pattern ∈ registry.onBroker, Ahead barred registry pattern) :
    HeldUp barred (registry.flush (link.recorded η) state).2.1
      (registry.flush (link.recorded η) state).2.2.2 := by
  have hflush := (link.recorded η).flushes_flush registry.pending state
  obtain ⟨hsent, hstuck⟩ := hflush.sent_not_barred hb.recorded
  have hkeys := hflush.sent_append_keys_owed
  have hordered : (Entries.keys registry.pending).Pairwise (· < ·) := h.ordered
  rw [← hkeys] at hordered
  obtain ⟨-, howed, hbefore⟩ := List.pairwise_append.mp hordered
  refine ⟨h.flush link state, ?_⟩
  intro pattern hp
  constructor
  · intro hon other hother hbarred
    rcases mem_onBroker_flush.mp hon with hs | hon
    · -- A barred pattern is neither booked nor sent, so it is behind what was sent.
      have hoff : other ∉ registry.onBroker :=
        fun hon => String.lt_irrefl _ (ha other hon other hother hbarred)
      have hpending := ((h.registered other).mp hother).resolve_left hoff
      rw [← hkeys] at hpending
      have hbehind := (List.mem_append.mp hpending).resolve_left fun hs => hsent other hs hbarred
      exact hbefore pattern hs other hbehind
    · exact ha pattern hon other hother hbarred
  · intro hahead
    rcases (h.registered pattern).mp hp with hon | hpending
    · exact mem_onBroker_flush.mpr (.inr hon)
    · rw [← hkeys] at hpending
      rcases List.mem_append.mp hpending with hs | hbehind
      · exact mem_onBroker_flush.mpr (.inl hs)
      · -- What is still owed begins with a barred pattern, and nothing owed is before it.
        exfalso
        cases hlist : Entries.keys
            ((link.recorded η).flush registry.pending state).owed with
        | nil =>
            rw [hlist] at hbehind
            cases hbehind
        | cons first rest =>
            rw [hlist] at hstuck hbehind howed
            have hbarred : first ∈ barred := hstuck first rfl
            have hfirst : first ∈ Entries.keys registry.patterns := by
              refine (h.registered first).mpr (.inr ?_)
              rw [← hkeys, hlist]
              exact List.mem_append_right _ List.mem_cons_self
            have hlt := hahead first hfirst hbarred
            rcases List.mem_cons.mp hbehind with rfl | hrest
            · exact String.lt_irrefl _ hlt
            · exact String.lt_irrefl _
                (String.lt_trans hlt ((List.pairwise_cons.mp howed).1 pattern hrest))

theorem HeldUp.ahead (h : HeldUp barred registry log) :
    ∀ pattern ∈ registry.onBroker, Ahead barred registry pattern :=
  fun pattern hon => (h.booked pattern ((h.registered pattern).mpr (.inl hon))).mp hon

/-- A new pattern that is not barred does not change which patterns are ahead. -/
theorem ahead_register_iff {p : Pattern} (hp : p.text ∉ barred) (handler : η)
    (pattern : String) :
    Ahead barred (registry.register p handler) pattern ↔ Ahead barred registry pattern := by
  have hkeys (other : String) : other ∈ Entries.keys (registry.register p handler).patterns ↔
      other = p.text ∨ other ∈ Entries.keys registry.patterns := Entries.mem_keys_insertNew
  constructor
  · intro h other hother hbarred
    exact h other ((hkeys other).mpr (.inr hother)) hbarred
  · intro h other hother hbarred
    rcases (hkeys other).mp hother with rfl | hother
    · exact absurd hbarred hp
    · exact h other hother hbarred

theorem HeldUp.subscribed {link : Link σ} {state : σ × List (Event η)}
    (h : HeldUp barred registry state.2) (hb : link.Bars barred) {p : Pattern}
    (hp : p.text ∉ barred) (handler : η) :
    HeldUp barred (registry.subscribed (link.passed η true) p handler state).1
      (registry.subscribed (link.passed η true) p handler state).2.2 := by
  simp only [Registry.subscribed, Link.passed, if_true]
  split
  · rename_i hon
    refine ⟨h.register handler hon, ?_⟩
    intro pattern hpattern
    rw [ahead_register_iff hp]
    apply h.booked
    rcases Entries.mem_keys_insertNew.mp hpattern with rfl | hpattern
    · exact (h.registered _).mpr (.inl hon)
    · exact hpattern
  · rename_i hoff
    apply (h.owing handler hoff).heldUp_flush hb
    intro pattern hon
    exact (ahead_register_iff hp handler pattern).mpr (h.ahead pattern hon)

end Registry

/-! ## Runs -/

/-- A flush, or a subscription to a pattern that is not barred. -/
inductive Step.Spares (barred : Set String) : Step η σ → Prop
  | flush : Spares barred .flush
  | subscribe {pattern : String} (handler : η) :
      pattern ∉ barred → Spares barred (.subscribe pattern handler true)

namespace World

theorem exists_perform_heldUp {link : Link σ} (hb : link.Bars barred) {step : Step η σ}
    (hs : step.Spares barred) {world : World η σ}
    (h : Registry.HeldUp barred world.registry world.log) (react : η → Call → Reaction η σ)
    (depth : Nat) :
    ∃ answer next, World.perform link react depth step world = some (answer, next) ∧
      Registry.HeldUp barred next.registry next.log := by
  cases hs with
  | flush => exact ⟨_, _, perform_flush world, h.toInStep.heldUp_flush hb h.ahead⟩
  | @subscribe pattern handler hp =>
      rcases Registry.eq_empty_or_exists_pattern pattern with rfl | ⟨p, rfl⟩
      · exact ⟨_, _, perform_subscribe_empty handler true world, h⟩
      · exact ⟨_, _, perform_subscribe_pattern p handler true world,
          h.subscribed hb hp handler⟩

/-- After a replay and any flushes and further subscriptions, over links that bar the same
patterns, a registered pattern is on the broker just when it stands before every registered
pattern that is barred. -/
theorem performEach_barred_holds_up_rest {registry : Registry η} (hr : registry.Reachable)
    {link : Link σ} (hb : link.Bars barred) {uses : List (Link σ × Step η σ)}
    (hu : ∀ use ∈ uses, use.1.Bars barred ∧ use.2.Spares barred)
    (react : η → Call → Reaction η σ) (depth : Nat) (s : σ) (runs : HandlerId → Nat) :
    ∃ answers world, performEach react depth ((link, .replay) :: uses) ⟨registry, s, runs, []⟩ =
        some (answers, world) ∧
      ∀ pattern, world.registry.isSubscribed pattern = true →
        (world.registry.isOnBroker pattern = true ↔
          ∀ other ∈ barred, world.registry.isSubscribed other = true → pattern < other) := by
  obtain ⟨answer, next, hreplay, hnext⟩ : ∃ answer next,
      World.perform link react depth .replay ⟨registry, s, runs, []⟩ = some (answer, next) ∧
        Registry.HeldUp barred next.registry next.log :=
    ⟨_, _, perform_replay _, (hr.keyed.inStep_renewed ∅ []).heldUp_flush hb nofun⟩
  obtain ⟨answers, world, hrest, hworld⟩ :=
    exists_performEach (fun world => Registry.HeldUp barred world.registry world.log)
      (fun link step => link.Bars barred ∧ step.Spares barred)
      (fun _ _ _ ha hw => exists_perform_heldUp ha.1 ha.2 hw react depth) hu hnext
  refine ⟨_, world, performEach_cons_eq_some hreplay hrest, ?_⟩
  intro pattern hp
  have hbooked := hworld.booked pattern ((Entries.contains_iff_mem_keys _ _).mp hp)
  rw [Registry.isOnBroker_iff, hbooked]
  constructor
  · intro h other hbarred hother
    exact h other ((Entries.contains_iff_mem_keys _ _).mp hother) hbarred
  · intro h other hother hbarred
    exact h other hbarred ((Entries.contains_iff_mem_keys _ _).mpr hother)

/-- The link that refuses to subscribe to one pattern. -/
def barring (pattern : String) : Link Unit :=
  ⟨fun request s => (request ≠ .subscribe pattern, s)⟩

theorem bars_barring (pattern : String) : (barring pattern).Bars {pattern} := by
  intro request s
  simp [barring]

/-- Of three patterns the middle one is barred. The first gets through and so does a new one
before the barred one; the last is never asked for. -/
theorem performEach_barred_holds_up_rest_middle :
    let registry : Registry Nat := ((Registry.empty.register ⟨"a", by decide⟩ 0).register
      ⟨"b/#/c", by decide⟩ 1).register ⟨"d", by decide⟩ 2
    let uses : List (Link Unit × Step Nat Unit) :=
      [(barring "b/#/c", .flush), (barring "b/#/c", .subscribe "aa" 3 true)]
    registry.Reachable ∧ (barring "b/#/c").Bars {"b/#/c"} ∧
      (∀ use ∈ uses, use.1.Bars {"b/#/c"} ∧ use.2.Spares {"b/#/c"}) ∧
      ∃ answers world, performEach (quiet fun _ _ => false) 0
          ((barring "b/#/c", .replay) :: uses) ⟨registry, (), fun _ => 0, []⟩ =
            some (answers, world) ∧
        world.registry.isOnBroker "a" = true ∧ world.registry.isOnBroker "aa" = true ∧
        world.registry.isOnBroker "d" = false := by
  intro registry uses
  have hr : registry.Reachable :=
    ((Registry.Reachable.empty.register _ 0).register _ 1).register _ 2
  have hb := bars_barring "b/#/c"
  have hu : ∀ use ∈ uses, use.1.Bars {"b/#/c"} ∧ use.2.Spares {"b/#/c"} := by
    simp only [uses, List.forall_mem_cons]
    exact ⟨⟨hb, .flush⟩, ⟨hb, .subscribe 3 (by simp)⟩, by simp⟩
  obtain ⟨answers, world, hrun, hbooked⟩ := performEach_barred_holds_up_rest hr hb hu
    (quiet fun _ _ => false) 0 () fun _ => 0
  have hpatterns : world.registry.patternTexts = ["a", "aa", "b/#/c", "d"] :=
    (congrArg (fun last => last.2.registry.patternTexts) (Option.some.inj hrun)).symm
  have hsubscribed (text : String) (ht : text ∈ ["a", "aa", "b/#/c", "d"]) :
      world.registry.isSubscribed text = true := by
    rw [← hpatterns] at ht
    exact (Entries.contains_iff_mem_keys _ _).mpr ht
  refine ⟨hr, hb, hu, answers, world, hrun, ?_, ?_, ?_⟩
  · refine (hbooked "a" (hsubscribed "a" (by decide))).mpr ?_
    rintro other rfl -
    decide
  · refine (hbooked "aa" (hsubscribed "aa" (by decide))).mpr ?_
    rintro other rfl -
    decide
  · rw [Bool.eq_false_iff]
    intro hon
    have hlt := (hbooked "d" (hsubscribed "d" (by decide))).mp hon "b/#/c" rfl
      (hsubscribed "b/#/c" (by decide))
    exact absurd hlt (by decide)

/-- A barred pattern keeps another one off the broker: behind the first refusal nothing is
asked, in the replay and in the flush after it. -/
theorem barred_pattern_blocks_other :
    (barring "a").Bars {"a"} ∧ "b" ∉ ({"a"} : Set String) ∧
      ∃ answers world, performEach (quiet fun _ _ => false) 0
          [(barring "a", .subscribe "a" 0 false), (barring "a", .subscribe "b" 1 false),
            (barring "a", .replay), (barring "a", .flush)]
          (.start () : World Nat Unit) = some (answers, world) ∧
        answers = [.registered ⟨0⟩, .registered ⟨1⟩, .count 0, .count 0] ∧
        world.registry.isSubscribed "b" = true ∧ world.registry.isOnBroker "b" = false :=
  ⟨bars_barring "a", by simp, _, _, rfl, rfl, rfl, rfl⟩

end World

end ThingHub
