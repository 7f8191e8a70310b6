import ThingHub.Text.Parts
import ThingHub.Topic.Kind

/-! Topics of things. A message of one kind about one thing travels on
`things/<id>/<kind>`; this module builds such topics, the patterns that select
them, and takes them apart again. -/

namespace ThingHub

/-- The segments of a topic, between its slashes. -/
def Topic.segments (topic : String) : List String :=
  Text.parts '/' topic

/-- Topics that start with a dollar sign belong to the broker itself. -/
def Topic.isSystem (topic : String) : Bool :=
  topic.toList.head? == some '$'

/-- Why a topic is not the topic of a thing. -/
inductive TopicError
  | foreignRoot (topic : String)
  | wrongDepth (topic : String) (depth : Nat)
  | unknownKind (name : String)
  deriving DecidableEq, Repr

def TopicError.message : TopicError → String
  | .foreignRoot topic => "Topic '" ++ topic ++ "' is not under the 'things' root"
  | .wrongDepth topic depth =>
    "Topic '" ++ topic ++ "' has " ++ depth.repr ++ " segments, expected 3"
  | .unknownKind name => "Unknown message kind '" ++ name ++ "'"

/-- The kind of that name, or the reason to reject the name. -/
def Kind.parse (name : String) : Except TopicError Kind :=
  match ofName? name with
  | some kind => .ok kind
  | none => .error (.unknownKind name)

namespace Thing

/-- First segment of every topic of a thing. -/
def root : String := "things"

/-- Selects every thing where a thing id is expected. -/
def anyId : String := "+"

/-- The segment that selects a thing; the empty id selects every thing. -/
def selector (id : String) : String :=
  if id = "" then anyId else id

/-- The topic of one kind of message about a thing. -/
def topic (id : String) (kind : Kind) : String :=
  root ++ "/" ++ selector id ++ "/" ++ kind.name

/-- The pattern of every message about a thing. -/
def catchAll (id : String) : String :=
  root ++ "/" ++ selector id ++ "/#"

/-- The second and third segment of a topic, wherever it is rooted. -/
def splitTopic? (topic : String) : Option (String × String) :=
  match Topic.segments topic with
  | _ :: id :: kind :: _ => some (id, kind)
  | _ => none

/-- The thing and the kind of a topic that `topic` can have built. -/
def parseTopic (topic : String) : Except TopicError (String × Kind) :=
  match Topic.segments topic with
  | [first, id, name] =>
    if first = root then (Kind.parse name).map (id, ·)
    else .error (.foreignRoot topic)
  | segments => .error (.wrongDepth topic segments.length)

/-- Publishing needs one concrete thing: an id that is one literal segment. -/
def isPublishable (id : String) : Bool :=
  id ≠ "" && id.toList.all fun c => c ≠ '/' && c ≠ '+' && c ≠ '#'

end Thing

end ThingHub
