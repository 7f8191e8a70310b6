import ThingHub.Json.Reader
import ThingHub.Json.Writer
import ThingHub.Topic.Kind

/-! Messages that things and the hub exchange. Each kind of message is a JSON object; a
message of requested actions names each action and gives its input as an object. -/

namespace ThingHub

inductive Message
  | description (members : JsonObject)
  | values (members : JsonObject)
  | event (members : JsonObject)
  | action (requests : Entries JsonObject)
  | config (members : JsonObject)

/-- One requested action. -/
structure ActionRequest where
  name : String
  input : JsonObject

/-- A kind by its name, behind the opening quote. -/
def Kind.readName (bytes : Bytes) : Except Json.Fault (Kind × Bytes) :=
  match Json.readString bytes with
  | .error fault => .error fault
  | .ok (name, rest) =>
    match Kind.ofName? name with
    | some kind => .ok (kind, rest)
    | none => .error .mismatched

/-- The rest of an object behind the name of its one member: a null and the closing
brace. -/
def Kind.readNull (bytes : Bytes) : Except Json.Fault Bytes := do
  match Json.skipBlank (← Json.readColon bytes) with
  | [] => .error .truncated
  | b :: rest =>
    if b = 0x6e then
      match Json.skipBlank (← Json.expect [0x75, 0x6c, 0x6c] rest) with
      | [] => .error .truncated
      | e :: rest => if e = 0x7d then .ok rest else .error .malformed
    else .error (Json.mismatch b rest)

/-- A kind by its name, or as an object with the name for its one member, whose value is
null. -/
def Kind.read : Json.Reader Kind
  | bytes =>
    match Json.skipBlank bytes with
    | [] => .error .truncated
    | b :: rest =>
      if b = 0x22 then Kind.readName rest
      else if b = 0x7b then
        match Json.skipBlank rest with
        | [] => .error .truncated
        | q :: rest =>
          if q = 0x22 then do
            let (kind, rest) ← Kind.readName rest
            return (kind, ← Kind.readNull rest)
          else .error .malformed
      else .error .malformed

def Kind.decode (bytes : Bytes) : Except Json.Fault Kind := Json.readAll Kind.read bytes

def Kind.render (kind : Kind) : String := String.ofList (Json.writeText kind.name)

namespace Message

def kind : Message → Kind
  | description _ => .description
  | values _ => .values
  | event _ => .event
  | action _ => .action
  | config _ => .config

/-- The document of a message as one object. -/
def document : Message → JsonObject
  | description members => members
  | values members => members
  | event members => members
  | action requests => requests.map fun entry => (entry.1, Json.object entry.2)
  | config members => members

/-- A message of a kind other than action with these members. -/
def ofMembers? : Kind → JsonObject → Option Message
  | .description, members => some (description members)
  | .values, members => some (values members)
  | .event, members => some (event members)
  | .config, members => some (config members)
  | .action, _ => none

/-- Reads the payload of a message of a kind. -/
def decode (kind : Kind) (payload : Bytes) : Except Json.Fault Message :=
  match kind with
  | .description => (Json.decodeObject payload).map description
  | .values => (Json.decodeObject payload).map values
  | .event => (Json.decodeObject payload).map event
  | .action => (Json.decodeObjects payload).map action
  | .config => (Json.decodeObject payload).map config

def render (message : Message) : String :=
  (Json.object message.document).render

def encode (message : Message) : Bytes :=
  (Json.object message.document).encode

/-- The message that requests one action. -/
def single (request : ActionRequest) : Message :=
  action [(request.name, request.input)]

/-- The requests of an action message, in ascending order of the action names. -/
def requests : Message → List ActionRequest
  | action requests => requests.map fun entry => ⟨entry.1, entry.2⟩
  | _ => []

/-- A member of the document that is a string. -/
def string? (name : String) (message : Message) : Option String :=
  (Entries.get? name message.document).bind Json.string?

end Message

end ThingHub
