import ThingHub.Proofs.Client.Delivery
import ThingHub.Proofs.Topic.Grammar

/-! # Which topics a typed subscription hears

The pattern for messages of a kind accepts the topics that end in that kind and have, between
it and the root, as many segments as the id of the subscription. An application is told the
first of them. Only where the id is one segment that is the thing of the topic. -/

namespace ThingHub

/-! ## Topics that a pattern of a kind accepts -/

namespace Thing

section Accepted

variable {p : Pattern} {id received : String} {kind : Kind}

/-- With an id of one segment the topic is that of one thing. -/
theorem exists_segments_of_accepts (hp : p.text = topic id kind)
    (haccepts : p.accepts received = true) (hslash : '/' ∉ id.toList) :
    ∃ thing, Topic.segments received = [root, thing, kind.name] ∧
      (thing = id ∨ id = "" ∨ id = "+") := by
  obtain ⟨parts, hreceived, hparts⟩ := (accepts_topic_iff_segments hp received).mp haccepts
  have hselector : '/' ∉ (selector id).toList := by
    unfold selector
    split
    · decide
    · exact hslash
  rw [show Topic.segments (selector id) = [selector id] from
    Text.parts_eq_singleton_iff.mpr ⟨rfl, hselector⟩] at hparts
  obtain ⟨thing, rest, hfits, hnil, rfl⟩ := List.forall₂_cons_left_iff.mp hparts
  obtain rfl := List.forall₂_nil_left_iff.mp hnil
  refine ⟨thing, hreceived, ?_⟩
  by_cases hempty : id = ""
  · exact .inr (.inl hempty)
  · rw [selector_of_ne hempty] at hfits
    rcases hfits with hany | hthing
    · exact .inr (.inr hany)
    · exact .inl hthing.symm

/-- With an id of several segments the topic is as much too deep as the id. -/
theorem exists_segments_of_accepts_deep (hp : p.text = topic id kind)
    (haccepts : p.accepts received = true) (hslash : '/' ∈ id.toList) :
    ∃ first second rest, Topic.segments received = root :: first :: second :: rest ∧
      rest.length = id.toList.count '/' ∧
      (∃ written ∈ (Topic.segments id).head?, Segment.Fits written first) := by
  obtain ⟨parts, hreceived, hparts⟩ := (accepts_topic_iff_segments hp received).mp haccepts
  have hne : id ≠ "" := by
    rintro rfl
    simp at hslash
  rw [selector_of_ne hne] at hparts
  have hlength := hparts.length_eq
  rw [Topic.length_segments] at hlength
  have hpos : 0 < id.toList.count '/' := List.count_pos_iff.mpr hslash
  obtain ⟨first, second, rest, rfl⟩ : ∃ first second rest, parts = first :: second :: rest := by
    rcases parts with _ | ⟨first, _ | ⟨second, rest⟩⟩
    · simp at hlength
    · rw [List.length_singleton] at hlength
      omega
    · exact ⟨first, second, rest, rfl⟩
  refine ⟨first, second, rest ++ [kind.name], hreceived, ?_, ?_⟩
  · simp only [List.length_cons, List.length_append, List.length_nil] at hlength ⊢
    omega
  · obtain ⟨written, behind, hfits, -, hid⟩ := List.forall₂_cons_right_iff.mp hparts
    exact ⟨written, by simp [hid], hfits⟩

end Accepted

end Thing

/-! ## What a typed subscription hears -/

/-- The thing that an application is told with a call. -/
def Delivery.thing? : Delivery → Option String
  | .document thing _ => some thing
  | .action thing _ => some thing
  | .unread thing _ _ => some thing
  | .raw _ _ => none

/-- A typed subscription tells the second segment of the topic for the thing. -/
theorem Interest.thing?_of_mem_deliver {id topic thing name : String} {kind : Kind}
    {payload : Bytes} (hsplit : Thing.splitTopic? topic = some (thing, name)) {call : Delivery}
    (hcall : call ∈ (Interest.messages id kind).subscription.deliver topic payload) :
    call.thing? = some thing := by
  have htyped {kind : Kind} (hcall : call ∈ (Subscription.typed kind).deliver topic payload) :
      call.thing? = some thing := by
    simp only [Subscription.deliver, hsplit] at hcall
    split at hcall
    · obtain rfl := List.mem_singleton.mp hcall
      rfl
    · cases hcall
  have hactions (hcall : call ∈ Subscription.actions.deliver topic payload) :
      call.thing? = some thing := by
    simp only [Subscription.deliver, hsplit] at hcall
    split at hcall
    · obtain ⟨request, -, rfl⟩ := List.mem_map.mp hcall
      rfl
    · cases hcall
  cases kind with
  | action => exact hactions hcall
  | _ => exact htyped hcall

/-- A call under a typed subscription is about an accepted topic and made by its adapter. -/
theorem Held.accepts_of_mem_hears {held : Held} {id topic : String} {kind : Kind}
    {payload : Bytes} {call : Delivery} (hinterest : held.interest = .messages id kind)
    (hcall : call ∈ held.hears topic payload) :
    ∃ p : Pattern, p.text = Thing.topic id kind ∧ p.accepts topic = true ∧
      call ∈ (Interest.messages id kind).subscription.deliver topic payload := by
  let p : Pattern := ⟨Thing.topic id kind, Thing.topic_ne_empty id kind⟩
  have htext : held.interest.text = p.text := by rw [hinterest]; rfl
  rw [Held.hears_eq htext] at hcall
  split at hcall
  · next haccepts =>
      rw [hinterest] at hcall
      exact ⟨p, rfl, haccepts, Listener.mem_of_mem_untilFailure hcall⟩
  · cases hcall

/-- Whenever a typed subscription hears of a message, the topic is that of the thing that the
application is told, of the kind of the subscription and within its id, just if the id is one
segment. With a deeper id the topic is no topic of a thing, and the application is told what
stands in the place of the first segment of the id. -/
theorem HubClient.typed_hears_own_thing_iff {client : HubClient} {live : List Held}
    (hlive : Holds client live) (topic : String) (payload : Bytes) (channel : Channel) :
    (client.deliver topic payload channel).2.1.filterMap Heard.call? =
      live.flatMap (fun held => (held.hears topic payload).map (held.listener, ·)) ∧
    ∀ held ∈ live, ∀ id kind, held.interest = .messages id kind →
      ∀ call ∈ held.hears topic payload, ∃ thing, call.thing? = some thing ∧
        (Thing.parseTopic topic = .ok (thing, kind) ∧ (thing = id ∨ id = "" ∨ id = "+") ↔
          '/' ∉ id.toList) ∧
        ('/' ∈ id.toList →
          Thing.parseTopic topic = .error (.wrongDepth topic (3 + id.toList.count '/')) ∧
          ∃ first ∈ (Topic.segments id).head?, first = "+" ∨ first = thing) := by
  refine ⟨hlive.filterMap_deliver topic payload channel, ?_⟩
  intro held _ id kind hinterest call hcall
  obtain ⟨p, hp, haccepts, hdelivered⟩ := Held.accepts_of_mem_hears hinterest hcall
  by_cases hslash : '/' ∈ id.toList
  · obtain ⟨thing, second, rest, hsegments, hlength, hfirst⟩ :=
      Thing.exists_segments_of_accepts_deep hp haccepts hslash
    have hsplit : Thing.splitTopic? topic = some (thing, second) := by
      rw [Thing.splitTopic?, hsegments]
    have hdepth : (Topic.segments topic).length = 3 + id.toList.count '/' := by
      simp only [hsegments, List.length_cons, hlength]
      omega
    have hpos : 0 < id.toList.count '/' := List.count_pos_iff.mpr hslash
    have hparse : Thing.parseTopic topic =
        .error (.wrongDepth topic (3 + id.toList.count '/')) := by
      rw [Thing.parseTopic_of_length_ne (by omega), hdepth]
    refine ⟨thing, Interest.thing?_of_mem_deliver hsplit hdelivered, ?_, fun _ => ⟨hparse, hfirst⟩⟩
    simp [hparse, hslash]
  · obtain ⟨thing, hsegments, hthing⟩ := Thing.exists_segments_of_accepts hp haccepts hslash
    have hsplit : Thing.splitTopic? topic = some (thing, kind.name) := by
      rw [Thing.splitTopic?, hsegments]
    have hparse : Thing.parseTopic topic = .ok (thing, kind) := by
      rw [Thing.parseTopic_of_segments hsegments, Thing.kind_parse_name]
      rfl
    refine ⟨thing, Interest.thing?_of_mem_deliver hsplit hdelivered, ?_, ?_⟩
    · exact iff_of_true ⟨hparse, hthing⟩ hslash
    · exact fun h => absurd h hslash

/-- A subscription to the events of all things hears of the one thing that has one. -/
theorem HubClient.typed_hears_own_thing_iff_all_things :
    let event : Message := .event [("on", .bool true)]
    ∃ client held, Holds client [held] ∧ held.interest = .messages "+" .event ∧
      .document "x" event ∈ held.hears "things/x/event" event.encode ∧
      (Thing.parseTopic "things/x/event" = .ok ("x", .event) ∧
        ("x" = "+" ∨ "+" = "" ∨ "+" = "+") ↔ '/' ∉ "+".toList) := by
  intro event
  have hexact : event.Exact :=
    .object (by decide) (by simpa [event, Message.document] using .bool true)
  obtain ⟨client, id, hholds⟩ := (Holds.new .default (.password "u" "p")).exists_subscribe
    (.messages "+" .event) (by decide) "h" fun _ => false
  let held : Held := ⟨id, .messages "+" .event, "h", fun _ => false, none⟩
  have hthing : Thing.isPublishable "x" = true := by decide
  have hheard : held.hears (Thing.topic "x" event.kind) event.encode = [.document "x" event] :=
    (Held.hears_messages hthing hexact (by decide) rfl).trans (if_pos ⟨rfl, .inr (.inr rfl)⟩)
  have hcall : .document "x" event ∈ held.hears "things/x/event" event.encode :=
    hheard ▸ List.mem_cons_self
  refine ⟨client, held, hholds, rfl, hcall, ?_⟩
  obtain ⟨-, htyped⟩ := typed_hears_own_thing_iff hholds "things/x/event" event.encode ⟨0, []⟩
  obtain ⟨thing, hname, hown, -⟩ := htyped held List.mem_cons_self "+" .event rfl _ hcall
  obtain rfl : thing = "x" := (Option.some.inj hname).symm
  exact hown

/-- An application that subscribed to the descriptions of `a/b` is told that the thing `a` has
one, by a message on a topic that is of no thing. -/
theorem HubClient.typed_hears_other_thing :
    let description : Message := .description []
    ∃ client held, Holds client [held] ∧ held.interest = .messages "a/b" .description ∧
      (∀ channel,
        (client.deliver "things/a/b/td" description.encode channel).2.1.filterMap Heard.call? =
          [(held.listener, .document "a" description)]) ∧
      Thing.parseTopic "things/a/b/td" = .error (.wrongDepth "things/a/b/td" 4) ∧
      ¬ ("a" = "a/b" ∨ "a/b" = "" ∨ "a/b" = "+") := by
  intro description
  have hexact : description.Exact := .object .nil (by simp [description, Message.document])
  have hdecode : Message.decode .description description.encode = .ok description :=
    Message.decode_encode hexact (by decide)
  have hsplit : Thing.splitTopic? "things/a/b/td" = some ("a", "b") := by decide
  have hdeliver : (Subscription.typed .description).deliver "things/a/b/td" description.encode =
      [.document "a" description] := by
    simp only [Subscription.deliver, hsplit, hdecode]
  obtain ⟨client, id, hholds⟩ := (Holds.new .default (.password "u" "p")).exists_subscribe
    (.messages "a/b" .description) (by decide) "h" fun _ => false
  let held : Held := ⟨id, .messages "a/b" .description, "h", fun _ => false, none⟩
  let p : Pattern := ⟨"things/a/b/td", by decide⟩
  have haccepts : p.accepts "things/a/b/td" = true := by decide
  have htext : held.interest.text = p.text := rfl
  have hheard : held.hears "things/a/b/td" description.encode = [.document "a" description] := by
    rw [Held.hears_eq htext, if_pos haccepts]
    exact hdeliver
  refine ⟨client, held, hholds, rfl, fun channel => ?_, by decide, by decide⟩
  rw [hholds.filterMap_deliver, List.nil_append, List.flatMap_singleton, hheard]
  rfl

end ThingHub
