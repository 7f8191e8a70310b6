import ThingHub.Client.Basic

/-! A client used step by step where no broker can be reached: every attempt to connect
fails at once, and nothing ever arrives. -/

namespace ThingHub

inductive ClientStep
  | start
  | stop
  /-- Waits for the broker to see a connect that is under way. -/
  | awaitConnect
  /-- Something that the broker does on an open connection. -/
  | broker
  | deliver (topic : String) (payload : Bytes)
  /-- The application fails in each call, or in none. -/
  | subscribe (interest : Interest) (label : String) (fails : Bool)
      (reply : Option (String × Bytes))
  | unsubscribe (interest : Interest)
  | publish (thing : String) (message : Message)
  | send (topic : String) (payload : Bytes)
  | trySend (topic : String) (payload : Bytes)
  | clientId

inductive ClientAnswer
  | done
  | succeeded
  | failed (reason : ClientError)
  | unsent (reason : PublishError)
  | count (n : Nat)
  | registered (id : HandlerId)
  | removed (found : Bool)
  | noConnection
  | name (clientId : Option String)

/-- Where a client runs: its files, the name of the host, and the queue it sends to. -/
structure ClientRun where
  folder : Folder
  host : String
  client : HubClient
  channel : Channel

namespace ClientRun

def new (folder : Folder) (host : String) (client : HubClient) : ClientRun :=
  ⟨folder, host, client, .new client.connection.settings.requestChannelCapacity.toNat⟩

/-- A client that starts anew has an empty queue. -/
def renew (run : ClientRun) : Channel :=
  .new run.client.connection.settings.requestChannelCapacity.toNat

/-- Performs a step. None if it waits for what never happens. -/
def perform (run : ClientRun) : ClientStep → Option (ClientAnswer × List Heard × ClientRun)
  | .start =>
    match run.client.start Channel.link run.folder run.host 0
        (mostAttempts run.client.connection.settings.connectTimeout) unreachable run.renew with
    | .unfinished => none
    | .settled result client channel =>
      let run := { run with client := client, channel := channel }
      match result with
      | .ok () => some (.succeeded, [], run)
      | .error reason => some (.failed reason, [], run)
  | .stop => some (.done, [], { run with client := run.client.stop })
  | .awaitConnect => none
  | .broker => some (if run.client.connection.isConnected then .done else .noConnection, [], run)
  | .deliver topic payload =>
    let (n, heard, channel) := run.client.deliver topic payload run.channel
    some (.count n, heard, { run with channel := channel })
  | .subscribe interest label fails reply =>
    match run.client.subscribe Channel.link interest label (fun _ => fails) reply run.channel with
    | .error reason => some (.failed reason, [], run)
    | .ok (id, client, channel) =>
      some (.registered id, [], { run with client := client, channel := channel })
  | .unsubscribe interest =>
    let (found, client, channel) := run.client.unsubscribe Channel.link interest run.channel
    some (.removed found, [], { run with client := client, channel := channel })
  | .publish thing message =>
    match run.client.publish thing message run.channel with
    | .ok channel => some (.succeeded, [], { run with channel := channel })
    | .error reason => some (.failed reason, [], run)
  | .send topic payload =>
    match run.client.connection.publish topic payload run.channel with
    | .ok channel => some (.succeeded, [], { run with channel := channel })
    | .error reason => some (.unsent reason, [], run)
  | .trySend topic payload =>
    match run.client.connection.tryPublish topic payload run.channel with
    | .ok channel => some (.succeeded, [], { run with channel := channel })
    | .error reason => some (.unsent reason, [], run)
  | .clientId => some (.name run.client.connection.clientId, [], run)

end ClientRun

end ThingHub
