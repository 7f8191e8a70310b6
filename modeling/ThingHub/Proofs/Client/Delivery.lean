import ThingHub.Client.Basic
import ThingHub.Proofs.Connection.Connect
import ThingHub.Proofs.Data.Lists
import ThingHub.Proofs.Message.RoundTrip
import ThingHub.Proofs.Registry.Refinement
import ThingHub.Proofs.Topic.Thing

/-! # Messages reach the applications they are meant for

A client knows the subscriptions that applications made and did not give up. A message about
a thing reaches, in the order of registration, those that listen to its kind and to the thing,
alone or with all others, and each of them reads the message that was sent. -/

namespace ThingHub

variable {σ η : Type}

/-! ## Connections keep registrations -/

namespace Connection

variable {ledger : Ledger η} {c : Connection η}

theorem registry_endLoop (session : Session) (c : Connection η) :
    (c.endLoop session).registry = c.registry := by
  unfold endLoop
  split <;> rfl

theorem represents_close (h : Registry.Represents ledger c.registry) :
    Registry.Represents ledger c.close.registry := by
  unfold close takeSession
  cases c.session with
  | none => exact h
  | some session =>
      have hended : Registry.Represents ledger
          ({ c with session := none, hasClient := false }.endLoop session).registry := by
        rw [registry_endLoop]
        exact h
      exact hended.of_table_eq rfl rfl rfl

/-- However a connect ends, all registrations are still there. -/
theorem represents_connect {link : Link σ} {folder : Folder} {host : String}
    {millis turns : Nat} {attempts : Nat → Attempt} {credential : Credential} {window : Duration}
    {s s' : σ} {result : Except ConnectError Unit} {after : Connection η}
    (h : Registry.Represents ledger c.registry)
    (hsettled : c.connect link folder host millis turns attempts credential window s =
      .settled result after s') :
    Registry.Represents ledger after.registry := by
  have hclosed := represents_close h
  have hsettles := settles_of_connect hsettled
  generalize credential.transport folder c.settings = transport at hsettles
  cases hsettles with
  | refused reason => exact hclosed
  | gaveUp transport reason => exact hclosed
  | opened transport => exact hclosed.of_table_eq rfl rfl rfl

end Connection

/-! ## Subscriptions of a client -/

/-- A subscription that an application made. -/
structure Held where
  id : HandlerId
  interest : Interest
  label : String
  fails : Delivery → Bool
  reply : Option (String × Bytes)

def Held.listener (held : Held) : Listener :=
  ⟨held.label, held.interest.subscription, held.fails, held.reply⟩

namespace HubClient

/-- The clients that calls lead to, with the subscriptions that are still held, the oldest
first. Giving up a subscription gives up every other one with the same pattern. -/
inductive Holds : HubClient → List Held → Prop
  | new (settings : ConnectionSettings) (auth : AuthMethod) : Holds (new settings auth) []
  | subscribe {σ : Type} {link : Link σ} {client after : HubClient} {live : List Held}
      {interest : Interest} {label : String} {fails : Delivery → Bool}
      {reply : Option (String × Bytes)} {s s' : σ} {id : HandlerId} :
      Holds client live →
      client.subscribe link interest label fails reply s = .ok (id, after, s') →
      Holds after (live ++ [⟨id, interest, label, fails, reply⟩])
  | unsubscribe {σ : Type} (link : Link σ) {client : HubClient} {live : List Held}
      (interest : Interest) (s : σ) :
      Holds client live →
      Holds (client.unsubscribe link interest s).2.1
        (live.filter fun held => held.interest.text ≠ interest.text)
  | start {σ : Type} {link : Link σ} {client after : HubClient} {live : List Held}
      {folder : Folder} {host : String} {millis turns : Nat} {attempts : Nat → Attempt}
      {s s' : σ} {result : Except ClientError Unit} :
      Holds client live →
      client.start link folder host millis turns attempts s = .settled result after s' →
      Holds after live
  | stop {client : HubClient} {live : List Held} : Holds client live → Holds client.stop live

/-- A subscription as the ledger has it. -/
def entryOf (held : Held) : HandlerId × String × Listener :=
  (held.id, held.interest.text, held.listener)

theorem exists_subscribed {link : Link σ} {client after : HubClient} {interest : Interest}
    {label : String} {fails : Delivery → Bool} {reply : Option (String × Bytes)} {s s' : σ}
    {id : HandlerId}
    (h : client.subscribe link interest label fails reply s = .ok (id, after, s')) :
    ∃ p : Pattern, p.text = interest.text ∧ id = ⟨client.connection.registry.nextId⟩ ∧
      after.connection.registry = (client.connection.registry.subscribed
        (client.connection.link? link) p ⟨label, interest.subscription, fails, reply⟩ s).1 := by
  unfold subscribe Connection.subscribe at h
  rcases Registry.eq_empty_or_exists_pattern interest.text with htext | ⟨p, hp⟩
  · rw [htext, Registry.subscribe_empty] at h
    cases h
  · rw [← hp, Registry.subscribe_pattern] at h
    cases h
    exact ⟨p, hp, rfl, rfl⟩

/-- A client takes one more subscription. -/
theorem Holds.exists_subscribe {client : HubClient} {live : List Held} (h : Holds client live)
    (interest : Interest) (hne : interest.text ≠ "") (label : String)
    (fails : Delivery → Bool) :
    ∃ after id, Holds after (live ++ [⟨id, interest, label, fails, none⟩]) := by
  let p : Pattern := ⟨interest.text, hne⟩
  let link : Link Unit := ⟨fun _ _ => (true, ())⟩
  let listener : Listener := ⟨label, interest.subscription, fails, none⟩
  obtain ⟨done, hdone⟩ : ∃ done,
      client.subscribe link interest label fails none () = .ok done := by
    unfold HubClient.subscribe Connection.subscribe
    rw [Registry.subscribe_pattern (client.connection.link? link) p listener]
    exact ⟨_, rfl⟩
  exact ⟨done.2.1, done.1, .subscribe h hdone⟩

/-- The registry of a client represents the list of its subscriptions. -/
theorem Holds.exists_represents {client : HubClient} {live : List Held} (h : Holds client live) :
    ∃ ledger, Registry.Represents ledger client.connection.registry ∧
      ledger.entries.map (fun entry => (entry.id, entry.pattern.text, entry.handler)) =
        live.map entryOf := by
  induction h with
  | new settings auth => exact ⟨.empty, Registry.represents_empty, rfl⟩
  | @subscribe σ link client after live interest label fails reply s s' id _ hsubscribe ih =>
      obtain ⟨ledger, hrep, hentries⟩ := ih
      obtain ⟨p, hp, rfl, hafter⟩ := exists_subscribed hsubscribe
      refine ⟨_, hafter ▸ hrep.subscribed _ p _ s, ?_⟩
      rw [Ledger.add, List.map_append, List.map_append, hentries, hrep.nextId]
      simp [entryOf, Held.listener, hp]
  | @unsubscribe σ link client live interest s _ ih =>
      obtain ⟨ledger, hrep, hentries⟩ := ih
      refine ⟨ledger.remove interest.text, hrep.unsubscribe _ interest.text s, ?_⟩
      have hfiltered :=
        congrArg (List.filter fun entry => decide (entry.2.1 ≠ interest.text)) hentries
      rw [List.filter_map, List.filter_map] at hfiltered
      exact hfiltered
  | @start σ link client after live folder host millis turns attempts s s' result _ hstart ih =>
      obtain ⟨ledger, hrep, hentries⟩ := ih
      refine ⟨ledger, ?_, hentries⟩
      unfold HubClient.start at hstart
      split at hstart
      · cases hstart
        exact hrep
      · split at hstart
        · cases hstart
        · next hconnect =>
            cases hstart
            exact Connection.represents_connect hrep hconnect
  | stop _ ih =>
      obtain ⟨ledger, hrep, hentries⟩ := ih
      exact ⟨ledger, Connection.represents_close hrep, hentries⟩

end HubClient

/-! ## What applications hear -/

/-- The call to an application, leaving its replies aside. -/
def Heard.call? : Heard → Option (Listener × Delivery)
  | .delivery listener call => some (listener, call)
  | .reply _ _ => none

/-- What a listener hears of some calls: all up to the first in which it fails, and that one. -/
def Listener.untilFailure (listener : Listener) : List Delivery → List Delivery
  | [] => []
  | call :: calls =>
    if listener.fails call then [call] else call :: listener.untilFailure calls

namespace Listener

variable {listener : Listener} {calls before : List Delivery} {call : Delivery}

theorem take_findIdx_fails (listener : Listener) (calls : List Delivery) :
    calls.take (calls.findIdx listener.fails + 1) = listener.untilFailure calls := by
  induction calls with
  | nil => rfl
  | cons call calls ih =>
      rw [List.findIdx_cons, untilFailure]
      cases hcall : listener.fails call with
      | true => rfl
      | false => simpa using ih

theorem mem_of_mem_untilFailure (h : call ∈ listener.untilFailure calls) : call ∈ calls :=
  List.mem_of_mem_take (take_findIdx_fails listener calls ▸ h)

@[simp] theorem untilFailure_singleton (listener : Listener) (call : Delivery) :
    listener.untilFailure [call] = [call] := by
  unfold untilFailure
  split <;> rfl

theorem untilFailure_cons (h : listener.fails call = true) (calls : List Delivery) :
    listener.untilFailure (call :: calls) = [call] :=
  if_pos h

/-- Calls without a failure are heard, and those after them as if they were the only ones. -/
theorem untilFailure_append (h : ∀ call ∈ before, listener.fails call = false)
    (calls : List Delivery) :
    listener.untilFailure (before ++ calls) = before ++ listener.untilFailure calls := by
  induction before with
  | nil => rfl
  | cons first before ih =>
      obtain ⟨hfirst, hbefore⟩ := List.forall_mem_cons.mp h
      rw [List.cons_append, untilFailure, hfirst, ih hbefore]
      rfl

end Listener

/-- What a listener hears under a pattern. -/
def Listener.hears (topic : String) (payload : Bytes) (pattern : String) (listener : Listener) :
    List Delivery :=
  match Pattern.parse pattern with
  | .ok p =>
    if p.accepts topic then
      listener.untilFailure (listener.subscription.deliver topic payload)
    else []
  | .error _ => []

/-- What is heard under a subscription of a message on some topic. -/
def Held.hears (topic : String) (payload : Bytes) (held : Held) : List Delivery :=
  held.listener.hears topic payload held.interest.text

theorem Held.hears_eq {held : Held} {p : Pattern} (h : held.interest.text = p.text)
    (topic : String) (payload : Bytes) :
    held.hears topic payload =
      if p.accepts topic then
        held.listener.untilFailure (held.interest.subscription.deliver topic payload)
      else [] := by
  rw [hears, Listener.hears, h, Pattern.parse_text]
  rfl

namespace HubClient

theorem filterMap_hear (topic : String) (payload : Bytes) (client : HubClient)
    (channel : Channel) (listener : Listener) :
    (client.hear topic payload channel listener).1.filterMap Heard.call? =
      (listener.untilFailure (listener.subscription.deliver topic payload)).map
        (listener, ·) := by
  rw [List.map_eq_flatMap, ← Listener.take_findIdx_fails]
  refine filterMap_foldl ?_ _ _
  rintro ⟨heard, channel⟩ call
  cases hreply : listener.reply with
  | none => simp [Heard.call?]
  | some reply =>
      dsimp only
      split <;> simp [Heard.call?]

theorem filterMap_deliver (topic : String) (payload : Bytes) (client : HubClient)
    (channel : Channel) :
    (client.deliver topic payload channel).2.1.filterMap Heard.call? =
      (client.connection.registry.recipients topic).flatMap fun recipient =>
        (recipient.handler.untilFailure
          (recipient.handler.subscription.deliver topic payload)).map (recipient.handler, ·) := by
  refine filterMap_foldl ?_ _ _
  rintro ⟨heard, channel⟩ recipient
  simp [filterMap_hear]

/-- A message is heard under the subscriptions that are held, in order. -/
theorem Holds.filterMap_deliver {client : HubClient} {live : List Held} (h : Holds client live)
    (topic : String) (payload : Bytes) (channel : Channel) :
    (client.deliver topic payload channel).2.1.filterMap Heard.call? =
      live.flatMap fun held => (held.hears topic payload).map (held.listener, ·) := by
  obtain ⟨ledger, hrep, hentries⟩ := h.exists_represents
  let heard : HandlerId × String × Listener → List (Listener × Delivery) :=
    fun entry => (entry.2.2.hears topic payload entry.2.1).map (entry.2.2, ·)
  calc
    _ = ledger.entries.flatMap fun entry =>
        heard (entry.id, entry.pattern.text, entry.handler) := by
      rw [HubClient.filterMap_deliver, hrep.recipients_eq, List.flatMap_map, Ledger.matching,
        flatMap_filter]
      refine congrArg (List.flatMap · ledger.entries) (funext fun entry => ?_)
      simp only [heard, Listener.hears, Pattern.parse_text]
      split <;> rfl
    _ = (live.map entryOf).flatMap heard := by
      rw [← hentries, List.flatMap_map]
    _ = _ := by
      rw [List.flatMap_map]
      rfl

end HubClient

/-! ## Messages about a thing -/

/-- What a listener to the kind of a message hears of it. -/
def Message.deliveries (thing : String) : Message → List Delivery
  | .action requests => (action requests).requests.map (.action thing)
  | message => [.document thing message]

section Published

variable {thing : String} (hthing : Thing.isPublishable thing = true) {message : Message}

include hthing

/-- The thing comes from the topic and the message from the payload. -/
theorem Message.deliver_published (hexact : message.Exact) (hdepth : message.depth ≤ 127)
    (other : String) :
    (Interest.messages other message.kind).subscription.deliver
        (Thing.topic thing message.kind) message.encode = message.deliveries thing := by
  have hsplit := Thing.splitTopic?_published hthing message.kind
  have hdecode := Message.decode_encode hexact hdepth
  cases message <;>
    simp only [Message.kind] at hsplit hdecode ⊢ <;>
    simp only [Interest.subscription, Subscription.deliver, hsplit, hdecode, Message.deliveries]

theorem Held.hears_messages (hexact : message.Exact) (hdepth : message.depth ≤ 127)
    {held : Held} {other : String} {kind : Kind}
    (hinterest : held.interest = .messages other kind) :
    held.hears (Thing.topic thing message.kind) message.encode =
      if kind = message.kind ∧ (other = thing ∨ other = "" ∨ other = "+") then
        held.listener.untilFailure (message.deliveries thing)
      else [] := by
  let p : Pattern := ⟨Thing.topic other kind, Thing.topic_ne_empty other kind⟩
  have htext : held.interest.text = p.text := by rw [hinterest]; rfl
  have haccepts : p.accepts (Thing.topic thing message.kind) = true ↔
      kind = message.kind ∧ (other = thing ∨ other = "" ∨ other = "+") :=
    Thing.accepts_topic_iff hthing rfl message.kind
  rw [Held.hears_eq htext]
  simp only [haccepts]
  split
  · next h =>
      obtain ⟨rfl, -⟩ := h
      rw [hinterest, Message.deliver_published hthing hexact hdepth]
  · rfl

theorem Held.hears_all {held : Held} {other : String} (hinterest : held.interest = .all other)
    (hslash : '/' ∉ other.toList) (payload : Bytes) (kind : Kind) :
    held.hears (Thing.topic thing kind) payload =
      if other = thing ∨ other = "" ∨ other = "+" then [.unread thing kind.name payload]
      else [] := by
  let p : Pattern := ⟨Thing.catchAll other, Thing.catchAll_ne_empty other⟩
  have htext : held.interest.text = p.text := by rw [hinterest]; rfl
  have hcall : held.interest.subscription.deliver (Thing.topic thing kind) payload =
      [.unread thing kind.name payload] := by
    rw [hinterest]
    simp only [Interest.subscription, Subscription.deliver, Thing.splitTopic?_published hthing]
  have haccepts : p.accepts (Thing.topic thing kind) = true ↔
      other = thing ∨ other = "" ∨ other = "+" :=
    Thing.accepts_catchAll_iff hthing rfl hslash kind
  rw [Held.hears_eq htext, hcall, Listener.untilFailure_singleton]
  simp only [haccepts]

theorem HubClient.publish_published {client : HubClient}
    (husable : client.connection.isUsable = true) (message : Message) (channel : Channel) :
    client.publish thing message channel =
      .ok { channel with
        waiting := channel.waiting ++
          [.publish (Thing.topic thing message.kind) message.encode] } := by
  rw [publish, if_pos hthing, Connection.publish, if_pos husable]
  rfl

end Published

/-- What is published about a thing reaches the subscriptions that are held, in the order in
which they were made. A subscription to one kind of message hears it, as it was sent, just
when it is for that kind and for that thing or all things; one to every kind, for an id of one
segment, just when it is for that thing or all things. Requested actions come one by one in
ascending order of their names, up to and including the first call in which the application
fails. -/
theorem HubClient.deliver_reaches_subscriptions {client : HubClient} {live : List Held}
    (hlive : Holds client live) {thing : String} (hthing : Thing.isPublishable thing = true)
    {message : Message} (hexact : message.Exact) (hdepth : message.depth ≤ 127)
    (channel : Channel) :
    let topic := Thing.topic thing message.kind
    let payload := message.encode
    (∀ (sender : HubClient) (queue : Channel), sender.connection.isUsable = true →
      sender.publish thing message queue =
        .ok { queue with waiting := queue.waiting ++ [.publish topic payload] }) ∧
    (client.deliver topic payload channel).2.1.filterMap Heard.call? =
      live.flatMap (fun held => (held.hears topic payload).map (held.listener, ·)) ∧
    (∀ held ∈ live, ∀ other kind, held.interest = .messages other kind →
      held.hears topic payload =
        if kind = message.kind ∧ (other = thing ∨ other = "" ∨ other = "+") then
          held.listener.untilFailure (message.deliveries thing)
        else []) ∧
    (∀ held ∈ live, ∀ other, held.interest = .all other → '/' ∉ other.toList →
      held.hears topic payload =
        if other = thing ∨ other = "" ∨ other = "+" then
          [.unread thing message.kind.name payload]
        else []) ∧
    (message.requests.map ActionRequest.name).Pairwise (· < ·) := by
  intro topic payload
  refine ⟨?_, hlive.filterMap_deliver topic payload channel, ?_, ?_, ?_⟩
  · exact fun sender queue husable => publish_published hthing husable message queue
  · exact fun held _ other kind hinterest => Held.hears_messages hthing hexact hdepth hinterest
  · exact fun held _ other hinterest hslash =>
      Held.hears_all hthing hinterest hslash payload message.kind
  · exact hexact.ordered_requests

/-- The name of the action that a call asks for. -/
def Delivery.actionName? : Delivery → Option String
  | .action _ request => some request.name
  | _ => none

/-- Of three subscriptions the first is for the actions of all things and the third for every
message about this one; the second is for another kind and hears nothing. The first application
fails in its call for the action in the middle and hears nothing of the last one. -/
theorem HubClient.deliver_reaches_subscriptions_two_of_three :
    let message : Message := .action [("a", []), ("b", [("n", .number (.int (-1)))]), ("c", [])]
    let actions : Listener := ⟨"actions", .actions, fun call => call.actionName? == some "b", none⟩
    let every : Listener := ⟨"every", .catchAll, fun _ => true, none⟩
    Thing.isPublishable "x" = true ∧ message.Exact ∧ message.depth ≤ 127 ∧
      ∃ client live, Holds client live ∧
        live.map (·.interest) = [.messages "+" .action, .messages "x" .event, .all "x"] ∧
        ∀ channel, (client.deliver (Thing.topic "x" .action) message.encode channel).2.1.filterMap
            Heard.call? =
          [(actions, .action "x" ⟨"a", []⟩),
            (actions, .action "x" ⟨"b", [("n", .number (.int (-1)))]⟩),
            (every, .unread "x" "action" message.encode)] := by
  intro message actions every
  have hexact : message.Exact := by
    refine .object (by decide) ?_
    simp only [message, Message.document, List.map_cons, List.map_nil, List.forall_mem_cons]
    refine ⟨.object .nil (by simp), .object (by decide) ?_, .object .nil (by simp), by simp⟩
    simp only [List.forall_mem_cons]
    exact ⟨.int (by decide) (by decide), by simp⟩
  have hdepth : message.depth ≤ 127 := by decide
  obtain ⟨first, i, hfirst⟩ := (Holds.new .default (.password "u" "p")).exists_subscribe
    (.messages "+" .action) (by decide) "actions" actions.fails
  obtain ⟨second, j, hsecond⟩ := hfirst.exists_subscribe
    (.messages "x" .event) (by decide) "event" fun _ => false
  obtain ⟨third, k, hthird⟩ := hsecond.exists_subscribe (.all "x") (by decide) "every" every.fails
  have hthing : Thing.isPublishable "x" = true := by decide
  refine ⟨hthing, hexact, hdepth, third, _, hthird, rfl, fun channel => ?_⟩
  obtain ⟨-, hheard, hmessages, hall, -⟩ :=
    deliver_reaches_subscriptions hthird hthing hexact hdepth channel
  simp only [List.nil_append, List.cons_append, List.forall_mem_cons] at hmessages hall
  obtain ⟨hactions, hevent, -⟩ := hmessages
  obtain ⟨-, -, hevery, -⟩ := hall
  have hfailed : actions.untilFailure (message.deliveries "x") =
      [.action "x" ⟨"a", []⟩, .action "x" ⟨"b", [("n", .number (.int (-1)))]⟩] := by
    have hheard : ∀ call ∈ [Delivery.action "x" ⟨"a", []⟩], actions.fails call = false := by
      simp [actions, Delivery.actionName?]
    refine (Listener.untilFailure_append hheard _).trans ?_
    exact congrArg _ (Listener.untilFailure_cons (by decide) [.action "x" ⟨"c", []⟩])
  refine hheard.trans ?_
  simp only [List.nil_append, List.cons_append, List.flatMap_cons, List.flatMap_nil]
  rw [hactions _ _ rfl, hevent _ _ rfl, hevery _ rfl (by decide)]
  exact congrArg (fun heard => heard.map (actions, ·) ++ [(every, _)]) hfailed

/-- An application that fails in each call hears only the first of two requested actions. -/
theorem HubClient.failing_application_misses_actions :
    let message : Message := .action [("a", []), ("b", [])]
    Thing.isPublishable "x" = true ∧ message.Exact ∧ message.depth ≤ 127 ∧
      ∃ client held, Holds client [held] ∧ held.interest = .messages "x" .action ∧
        (∀ call, held.fails call = true) ∧
        ∀ channel, (client.deliver (Thing.topic "x" .action) message.encode channel).2.1.filterMap
            Heard.call? ≠
          message.requests.map fun request => (held.listener, .action "x" request) := by
  intro message
  have hexact : message.Exact := by
    refine .object (by decide) ?_
    simp only [message, Message.document, List.map_cons, List.map_nil, List.forall_mem_cons]
    exact ⟨.object .nil (by simp), .object .nil (by simp), by simp⟩
  have hdepth : message.depth ≤ 127 := by decide
  obtain ⟨client, id, hholds⟩ := (Holds.new .default (.password "u" "p")).exists_subscribe
    (.messages "x" .action) (by decide) "h" fun _ => true
  let held : Held := ⟨id, .messages "x" .action, "h", fun _ => true, none⟩
  have hthing : Thing.isPublishable "x" = true := by decide
  refine ⟨hthing, hexact, hdepth, client, held, hholds, rfl, fun _ => rfl, fun channel heq => ?_⟩
  have hheard := hholds.filterMap_deliver (Thing.topic "x" message.kind) message.encode channel
  have hfirst : held.hears (Thing.topic "x" message.kind) message.encode =
      [.action "x" ⟨"a", []⟩] :=
    (Held.hears_messages hthing hexact hdepth rfl).trans (if_pos ⟨rfl, .inl rfl⟩)
  rw [List.nil_append, List.flatMap_singleton, hfirst] at hheard
  have hlength := congrArg List.length (hheard.symm.trans heq)
  simp [message, Message.requests] at hlength

end ThingHub
