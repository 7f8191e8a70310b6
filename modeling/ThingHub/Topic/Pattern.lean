import ThingHub.Topic.Thing

/-! Topic patterns with wildcards. A `+` segment stands for any one segment, a last
`#` segment for any number of further ones, the level above it included. -/

namespace ThingHub

/-- One segment of a pattern. -/
inductive Segment
  | literal (text : String)
  | single
  | multi
  deriving DecidableEq, Repr

namespace Segment

def text : Segment → String
  | .literal text => text
  | .single => "+"
  | .multi => "#"

def isWildcard : Segment → Bool
  | .literal _ => false
  | _ => true

/-- Reads the segments of a pattern. Only a segment that is exactly `+`, or exactly
`#` in last place, is a wildcard. -/
def readAll : List String → List Segment
  | [] => []
  | [text] => [if text = "+" then .single else if text = "#" then .multi else .literal text]
  | text :: rest => (if text = "+" then .single else .literal text) :: readAll rest

/-- Segment by segment comparison of a pattern with a topic. -/
def accept : List Segment → List String → Bool
  | [.multi], _ => true
  | [], [] => true
  | .single :: pattern, _ :: topic => accept pattern topic
  | .literal text :: pattern, segment :: topic => text == segment && accept pattern topic
  | _, _ => false

end Segment

inductive PatternError
  | empty
  deriving DecidableEq, Repr

def PatternError.message : PatternError → String
  | .empty => "Topic pattern cannot be empty"

/-- A pattern is any text but the empty one; patterns with the same text are equal. -/
structure Pattern where
  text : String
  ne_empty : text ≠ ""
  deriving DecidableEq

namespace Pattern

def parse (text : String) : Except PatternError Pattern :=
  if h : text = "" then .error .empty else .ok ⟨text, h⟩

def segments (pattern : Pattern) : List Segment :=
  Segment.readAll (Topic.segments pattern.text)

def hasWildcard (pattern : Pattern) : Bool :=
  pattern.segments.any Segment.isWildcard

/-- Whether a topic falls under a pattern. A leading wildcard does not reach the
topics of the broker itself. -/
def accepts (pattern : Pattern) (topic : String) : Bool :=
  !(Topic.isSystem topic && pattern.segments.head?.any Segment.isWildcard) &&
    Segment.accept pattern.segments (Topic.segments topic)

theorem ext_text {p q : Pattern} (h : p.text = q.text) : p = q := by
  cases p; cases q; cases h; rfl

theorem parse_text (p : Pattern) : parse p.text = .ok p := by
  simp [parse, p.ne_empty]

end Pattern

end ThingHub
