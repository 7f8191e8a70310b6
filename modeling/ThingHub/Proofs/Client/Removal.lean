import ThingHub.Proofs.Client.Delivery
import ThingHub.Proofs.Registry.Operations
import ThingHub.Proofs.Topic.Grammar

/-! # Giving up subscriptions

Two subscriptions of a client have one pattern just when they are for the same selection of
things and for the same kind of message, or both for every kind. So giving up one gives up
those and no others, in whatever order they were made, and leaves alone what is booked for
the patterns of the others. -/

namespace ThingHub

variable {σ η : Type}

/-! ## Patterns of subscriptions are told apart -/

namespace Thing

theorem topic_eq_topic_iff {id other : String} {kind sort : Kind} :
    topic id kind = topic other sort ↔ kind = sort ∧ selector id = selector other := by
  constructor
  · intro h
    have hsegments := congrArg Topic.segments h
    rw [segments_topic, segments_topic] at hsegments
    obtain ⟨hselector, hname⟩ := List.append_inj' (List.cons.inj hsegments).2 rfl
    exact ⟨Kind.name_injective (List.cons.inj hname).1, Text.parts_injective '/' hselector⟩
  · rintro ⟨rfl, hselector⟩
    rw [topic, topic, hselector]

theorem catchAll_eq_catchAll_iff {id other : String} :
    catchAll id = catchAll other ↔ selector id = selector other := by
  constructor
  · intro h
    have hsegments := congrArg Topic.segments h
    rw [segments_catchAll, segments_catchAll] at hsegments
    exact Text.parts_injective '/' (List.append_inj' (List.cons.inj hsegments).2 rfl).1
  · intro hselector
    rw [catchAll, catchAll, hselector]

/-- No kind is called `#`. -/
theorem topic_ne_catchAll (id other : String) (kind : Kind) : topic id kind ≠ catchAll other := by
  intro h
  have hsegments := congrArg Topic.segments h
  rw [segments_topic, segments_catchAll] at hsegments
  have hname := (List.cons.inj (List.append_inj' (List.cons.inj hsegments).2 rfl).2).1
  cases kind <;> exact absurd hname (by decide)

end Thing

/-- Whether two interests are given up together. Those in messages of things have to agree in
the kind and in the selection of things; a pattern of its own goes by its text. -/
def Interest.shares : Interest → Interest → Bool
  | .messages id kind, .messages other sort =>
    kind = sort ∧ Thing.selector id = Thing.selector other
  | .all id, .all other => Thing.selector id = Thing.selector other
  | .messages _ _, .all _ => false
  | .all _, .messages _ _ => false
  | .pattern written, interest => written = interest.text
  | interest, .pattern written => interest.text = written

theorem Interest.shares_iff {interest other : Interest} :
    interest.shares other = true ↔ interest.text = other.text := by
  cases interest with
  | messages id kind =>
      cases other with
      | messages other sort => exact decide_eq_true_iff.trans Thing.topic_eq_topic_iff.symm
      | all other => exact iff_of_false Bool.false_ne_true (Thing.topic_ne_catchAll id other kind)
      | pattern written => exact decide_eq_true_iff
  | all id =>
      cases other with
      | messages other sort =>
          exact iff_of_false Bool.false_ne_true (Thing.topic_ne_catchAll other id sort).symm
      | all other => exact decide_eq_true_iff.trans Thing.catchAll_eq_catchAll_iff.symm
      | pattern written => exact decide_eq_true_iff
  | pattern written => cases other <;> exact decide_eq_true_iff

/-! ## What a client serves -/

def Held.accepts (topic : String) (held : Held) : Bool :=
  match Pattern.parse held.interest.text with
  | .ok p => p.accepts topic
  | .error _ => false

/-- A client serves a list of subscriptions if a message reaches those that accept its topic,
in the order of the list, and each pattern has as many handlers as subscriptions. -/
structure HubClient.Serves (client : HubClient) (live : List Held) : Prop where
  recipients : ∀ topic, client.connection.registry.recipients topic =
    (live.filter (·.accepts topic)).map fun held => ⟨held.id, held.listener⟩
  handlerCount : ∀ text, client.connection.registry.handlerCount text =
    (live.filter (·.interest.text = text)).length
  isSubscribed : ∀ text, client.connection.registry.isSubscribed text = true ↔
    ∃ held ∈ live, held.interest.text = text

theorem HubClient.Holds.serves {client : HubClient} {live : List Held} (h : Holds client live) :
    client.Serves live := by
  obtain ⟨ledger, hrep, hentries⟩ := h.exists_represents
  -- What is asked of an entry depends on its number, its pattern and its handler alone.
  have hfilter (pick : HandlerId × String × Listener → Bool) :
      (ledger.entries.filter fun entry =>
          pick (entry.id, entry.pattern.text, entry.handler)).map
            (fun entry => (entry.id, entry.pattern.text, entry.handler)) =
        (live.filter fun held => pick (entryOf held)).map entryOf := by
    have hpicked := congrArg (List.filter pick) hentries
    rw [List.filter_map, List.filter_map] at hpicked
    exact hpicked
  constructor
  · intro topic
    let pick : HandlerId × String × Listener → Bool := fun entry =>
      match Pattern.parse entry.2.1 with
      | .ok p => p.accepts topic
      | .error _ => false
    have hpick : (fun entry : Entry Listener => entry.pattern.accepts topic) =
        fun entry => pick (entry.id, entry.pattern.text, entry.handler) := by
      funext entry
      simp only [pick, Pattern.parse_text]
    have hpicked := congrArg (List.map fun entry => (⟨entry.1, entry.2.2⟩ : Registration Listener))
      (hfilter pick)
    rw [List.map_map, List.map_map] at hpicked
    rw [hrep.recipients_eq, Ledger.matching, hpick]
    exact hpicked
  · intro text
    have hlength := congrArg List.length (hfilter fun entry => decide (entry.2.1 = text))
    rw [List.length_map, List.length_map] at hlength
    rw [hrep.handlerCount_eq]
    exact hlength
  · intro text
    have htexts : ledger.entries.map (·.pattern.text) = live.map (·.interest.text) := by
      have hmapped := congrArg (List.map (·.2.1)) hentries
      rwa [List.map_map, List.map_map] at hmapped
    have hmem : ledger.holds text = true ↔ text ∈ ledger.entries.map (·.pattern.text) := by
      simp [Ledger.holds]
    rw [hrep.isSubscribed_eq, hmem, htexts, List.mem_map]

/-! ## What is booked for other patterns -/

namespace Registry

theorem isOnBroker_forget {p : Pattern} {text : String} (h : text ≠ p.text)
    (registry : Registry η) : (registry.forget p).isOnBroker text = registry.isOnBroker text := by
  simp [isOnBroker, forget, h]

theorem get?_pending_forget {p : Pattern} {text : String} (h : text ≠ p.text)
    (registry : Registry η) :
    Entries.get? text (registry.forget p).pending = Entries.get? text registry.pending :=
  Entries.get?_erase_of_ne registry.pending h

/-- Unsubscribing one pattern leaves the bookings of the others alone. -/
theorem booking_unsubscribe {registry : Registry η} (hkeyed : Keyed registry)
    (link : Option (Link σ)) (text : String) (s : σ) {other : String} (h : other ≠ text) :
    (registry.unsubscribe link text s).2.1.isOnBroker other = registry.isOnBroker other ∧
      Entries.get? other (registry.unsubscribe link text s).2.1.pending =
        Entries.get? other registry.pending := by
  cases hget : Entries.get? text registry.patterns with
  | none =>
      rw [unsubscribe_unknown link hget]
      exact ⟨rfl, rfl⟩
  | some p =>
      obtain rfl := hkeyed.own text p hget
      rw [unsubscribe_known link hget]
      exact ⟨isOnBroker_forget h registry, get?_pending_forget h registry⟩

theorem unsubscribe_fst (registry : Registry η) (link : Option (Link σ)) (text : String) (s : σ) :
    (registry.unsubscribe link text s).1 = registry.isSubscribed text := by
  rw [isSubscribed, Entries.contains]
  cases hget : Entries.get? text registry.patterns with
  | none => rw [unsubscribe_unknown link hget, Option.isSome_none]
  | some p => rw [unsubscribe_known link hget, Option.isSome_some]

end Registry

/-! ## Giving up -/

namespace HubClient

variable {client : HubClient} {live : List Held}

theorem Holds.keyed (h : Holds client live) : client.connection.registry.Keyed := by
  obtain ⟨ledger, hrep, -⟩ := h.exists_represents
  exact ⟨hrep.ordered, fun text p hp => ((hrep.patterns text p).mp hp).1⟩

theorem Holds.unsubscribe_shared (h : Holds client live) (link : Link σ) (interest : Interest)
    (s : σ) :
    Holds (client.unsubscribe link interest s).2.1
      (live.filter fun held => !held.interest.shares interest) := by
  have hkept : (live.filter fun held => !held.interest.shares interest) =
      live.filter fun held => decide (held.interest.text ≠ interest.text) := by
    refine List.filter_congr fun held _ => ?_
    rw [Bool.eq_iff_iff, Bool.not_eq_true', ← Bool.not_eq_true, Interest.shares_iff,
      decide_eq_true_iff]
  rw [hkept]
  exact .unsubscribe link interest s h

/-- Giving up an interest drops just the subscriptions that share it, tells whether there were
any, and leaves all others as they are: registered, in their order, and booked for the broker as
before. Interests in messages of things share a pattern only if they are for the same kind, or
both for all kinds, and select the same things. -/
theorem unsubscribe_drops_shared (hlive : Holds client live) (link : Link σ)
    (interest : Interest) (s : σ) :
    let done := client.unsubscribe link interest s
    let kept := live.filter fun held => !held.interest.shares interest
    client.Serves live ∧ Holds done.2.1 kept ∧ done.2.1.Serves kept ∧
    (done.1 = true ↔ ∃ held ∈ live, held.interest.shares interest = true) ∧
    (∀ held ∈ kept,
      done.2.1.connection.registry.isOnBroker held.interest.text =
        client.connection.registry.isOnBroker held.interest.text ∧
      Entries.get? held.interest.text done.2.1.connection.registry.pending =
        Entries.get? held.interest.text client.connection.registry.pending) ∧
    (∀ a b k l, Thing.topic a k = Thing.topic b l ↔
      k = l ∧ Thing.selector a = Thing.selector b) ∧
    (∀ a b k, Thing.topic a k ≠ Thing.catchAll b) := by
  intro done kept
  have hkept := hlive.unsubscribe_shared link interest s
  refine ⟨hlive.serves, hkept, hkept.serves, ?_, ?_, fun _ _ _ _ => Thing.topic_eq_topic_iff,
    Thing.topic_ne_catchAll⟩
  · have hfound : done.1 = client.connection.registry.isSubscribed interest.text :=
      Registry.unsubscribe_fst _ (client.connection.link? link) interest.text s
    simp only [hfound, hlive.serves.isSubscribed, Interest.shares_iff]
  · intro held hm
    have hother : held.interest.text ≠ interest.text := by
      have hfree := (List.mem_filter.mp hm).2
      rwa [Bool.not_eq_true', ← Bool.not_eq_true, Interest.shares_iff] at hfree
    exact Registry.booking_unsubscribe hlive.keyed _ interest.text s hother

/-- The subscription to the events of all things goes, under whichever id it was made; the one
to a thing with the name of a kind and the one to every message about all things stay. -/
theorem unsubscribe_drops_shared_one_of_three :
    let link : Link Unit := ⟨fun _ _ => (true, ())⟩
    ∃ client live, Holds client live ∧
      live.map (·.interest) = [.messages "" .event, .messages "+/event" .event, .all ""] ∧
      (client.unsubscribe link (.messages "+" .event) ()).1 = true ∧
      ((client.unsubscribe link (.messages "+" .event) ()).2.1).Serves live.tail := by
  intro link
  obtain ⟨first, i, hfirst⟩ := (Holds.new .default (.password "u" "p")).exists_subscribe
    (.messages "" .event) (by decide) "a" fun _ => false
  obtain ⟨second, j, hsecond⟩ := hfirst.exists_subscribe (.messages "+/event" .event) (by decide)
    "b" fun _ => false
  obtain ⟨third, k, hthird⟩ := hsecond.exists_subscribe (.all "") (by decide) "c" fun _ => false
  obtain ⟨-, -, hserves, hfound, -⟩ :=
    unsubscribe_drops_shared hthird link (.messages "+" .event) ()
  have hshares : (Interest.messages "" .event).shares (.messages "+" .event) = true := by decide
  exact ⟨third, _, hthird, rfl, hfound.mpr ⟨_, List.mem_cons_self, hshares⟩, hserves⟩

end HubClient

end ThingHub
