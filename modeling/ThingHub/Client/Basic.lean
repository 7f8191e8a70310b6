import ThingHub.Client.Error
import ThingHub.Connection.Basic
import ThingHub.Message.Delivery
import ThingHub.Settings.Hub

/-! A client of the hub: it publishes messages about things and listens to them, over
one connection. -/

namespace ThingHub

/-- What an application listens to: one kind of message about a thing, every kind, or
a pattern of its own. An empty thing id means every thing. -/
inductive Interest
  | messages (thing : String) (kind : Kind)
  | all (thing : String)
  | pattern (text : String)
  deriving DecidableEq, Repr

namespace Interest

/-- The pattern to subscribe to. -/
def text : Interest → String
  | messages thing kind => Thing.topic thing kind
  | all thing => Thing.catchAll thing
  | pattern written => written

/-- Documents of actions are taken apart, other documents come whole. -/
def subscription : Interest → Subscription
  | messages _ .action => .actions
  | messages _ kind => .typed kind
  | all _ => .catchAll
  | pattern _ => .raw

end Interest

/-- An application that listens. It may answer each call with a message, and may fail
at the end of a call. -/
structure Listener where
  label : String
  subscription : Subscription
  /-- The calls in which it fails. No two calls of one delivery are alike. -/
  fails : Delivery → Bool
  reply : Option (String × Bytes)

/-- What happens while a message is delivered. -/
inductive Heard
  | delivery (listener : Listener) (delivery : Delivery)
  | reply (listener : Listener) (result : Except PublishError Unit)

structure HubClient where
  auth : AuthMethod
  connection : Connection Listener

namespace HubClient

variable {σ : Type}

def new (settings : ConnectionSettings) (auth : AuthMethod) : HubClient :=
  ⟨auth, .new settings⟩

/-- A client that logs in with name and password. -/
def consumer (settings : ConnectionSettings) (username secret : String) : HubClient :=
  new settings (.password username secret)

/-- A client with a certificate of its own. -/
def device (settings : ConnectionSettings) (id certFile keyFile : String) : HubClient :=
  new settings (.certificate id certFile keyFile)

/-- A client with the certificate of the hub's configuration. -/
def plugin (id : String) (config : HubConfig) : HubClient :=
  new config.certSettings (.certificate id config.clientCertPath config.clientKeyPath)

/-- How a start ends. -/
inductive Started (σ : Type)
  | settled (result : Except ClientError Unit) (client : HubClient) (link : σ)
  /-- The attempts looked at are used up before the start comes to an end. -/
  | unfinished

/-- Loads the credential, then connects for as long as the settings allow. The files
are read at every start. -/
def start (link : Link σ) (folder : Folder) (host : String) (millis turns : Nat)
    (attempts : Nat → Attempt) (client : HubClient) (s : σ) : Started σ :=
  match client.auth.resolve folder with
  | .error reason => .settled (.error (.credential reason)) client s
  | .ok credential =>
    match client.connection.connect link folder host millis turns attempts credential
        client.connection.settings.connectTimeout s with
    | .unfinished => .unfinished
    | .settled result connection s =>
      .settled (result.mapError .connect) { client with connection := connection } s

/-- Ends the connection; registrations stay. -/
def stop (client : HubClient) : HubClient :=
  { client with connection := client.connection.close }

/-- Publishes a message about one thing. -/
def publish (thing : String) (message : Message) (client : HubClient) (channel : Channel) :
    Except ClientError Channel :=
  if Thing.isPublishable thing then
    (client.connection.publish (Thing.topic thing message.kind) message.encode channel).mapError
      .publish
  else .error (.invalidThingId thing)

/-- Registers an application for what it is interested in. -/
def subscribe (link : Link σ) (interest : Interest) (label : String)
    (fails : Delivery → Bool) (reply : Option (String × Bytes)) (client : HubClient) (s : σ) :
    Except ClientError (HandlerId × HubClient × σ) :=
  match client.connection.subscribe link interest.text
      ⟨label, interest.subscription, fails, reply⟩ s with
  | .error reason => .error (.subscription reason)
  | .ok (id, connection, s) => .ok (id, { client with connection := connection }, s)

/-- Drops every application that listens to just this; false if there was none. -/
def unsubscribe (link : Link σ) (interest : Interest) (client : HubClient) (s : σ) :
    Bool × HubClient × σ :=
  let (found, connection, s) := client.connection.unsubscribe link interest.text s
  (found, { client with connection := connection }, s)

/-- The calls to one application. The first one in which it fails ends the delivery to it. -/
def hear (topic : String) (payload : Bytes) (client : HubClient) (channel : Channel)
    (listener : Listener) : List Heard × Channel :=
  let calls := listener.subscription.deliver topic payload
  let calls := calls.take (calls.findIdx listener.fails + 1)
  calls.foldl (fun (heard, channel) call =>
    match listener.reply with
    | none => (heard ++ [.delivery listener call], channel)
    | some (topic, payload) =>
      match client.connection.tryPublish topic payload channel with
      | .ok channel => (heard ++ [.delivery listener call, .reply listener (.ok ())], channel)
      | .error reason =>
        (heard ++ [.delivery listener call, .reply listener (.error reason)], channel))
    ([], channel)

/-- Delivers a message to every application whose pattern accepts the topic, in the
order of registration. The number is that of the applications. -/
def deliver (topic : String) (payload : Bytes) (client : HubClient) (channel : Channel) :
    Nat × List Heard × Channel :=
  let recipients := client.connection.registry.recipients topic
  let (heard, channel) := recipients.foldl (fun (heard, channel) recipient =>
    let (more, channel) := client.hear topic payload channel recipient.handler
    (heard ++ more, channel)) ([], channel)
  (recipients.length, heard, channel)

end HubClient

end ThingHub
