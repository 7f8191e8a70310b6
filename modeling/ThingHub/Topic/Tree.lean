import ThingHub.Data.Entries
import ThingHub.Topic.Pattern

/-! A tree of slots addressed by patterns. Looking up a topic walks the tree once,
instead of trying every pattern. -/

namespace ThingHub

/-- A node holds the slot of the pattern that ends at it and the slot of that pattern
with a further `#`, and leads to one node for each further segment. -/
structure Tree (α : Type) where
  exact : Option (List α)
  children : List (String × Tree α)
  single : Option (Tree α)
  multi : Option (List α)

/-- The walk along a pattern met no node, or no slot, at a position. -/
structure MissingNode where
  segment : String
  position : Nat
  deriving DecidableEq, Repr

def MissingNode.message (missing : MissingNode) : String :=
  "No subscription node for segment '" ++ missing.segment ++ "' at position " ++
    missing.position.repr

namespace Tree

variable {α : Type}

def empty : Tree α := ⟨none, [], none, none⟩

/-- A slot without entries counts as no slot. -/
def vacant (slot : Option (List α)) : Bool :=
  slot.all List.isEmpty

def isEmpty (tree : Tree α) : Bool :=
  vacant tree.exact && tree.children.isEmpty && tree.single.isNone && vacant tree.multi

/-- The slot of a pattern. -/
def slot? : List Segment → Tree α → Option (List α)
  | [], tree => tree.exact
  | .literal text :: rest, tree => (Entries.get? text tree.children).bind (slot? rest)
  | .single :: rest, tree => tree.single.bind (slot? rest)
  | .multi :: _, tree => tree.multi

/-- Applies `f` to the slot of a pattern, which is created where it is missing. -/
def alter (f : List α → List α) : List Segment → Tree α → Tree α
  | [], tree => { tree with exact := some (f (tree.exact.getD [])) }
  | .literal text :: rest, tree =>
    let child := (Entries.get? text tree.children).getD empty
    { tree with children := Entries.insert text (alter f rest child) tree.children }
  | .single :: rest, tree =>
    { tree with single := some (alter f rest (tree.single.getD empty)) }
  | .multi :: _, tree => { tree with multi := some (f (tree.multi.getD [])) }

/-- A slot that is left without entries is given up. -/
def keep (slot : List α) : Option (List α) :=
  if slot.isEmpty then none else some slot

/-- Applies `f` to the slot of a pattern, which must exist, and prunes what is empty
on the way back. A `#` addresses a slot wherever it stands; what follows it is not
looked at. The position is that of the next segment. -/
def updateFrom (f : List α → List α) (position : Nat) :
    List Segment → Tree α → Except MissingNode (Tree α)
  | [], tree =>
    match tree.exact with
    | none => .error ⟨"<end>", position⟩
    | some slot => .ok { tree with exact := keep (f slot) }
  | .literal text :: rest, tree =>
    match Entries.get? text tree.children with
    | none => .error ⟨text, position⟩
    | some child =>
      match updateFrom f (position + 1) rest child with
      | .error missing => .error missing
      | .ok child =>
        .ok { tree with
          children := if child.isEmpty then Entries.erase text tree.children
            else Entries.insert text child tree.children }
  | .single :: rest, tree =>
    match tree.single with
    | none => .error ⟨"+", position⟩
    | some child =>
      match updateFrom f (position + 1) rest child with
      | .error missing => .error missing
      | .ok child => .ok { tree with single := if child.isEmpty then none else some child }
  | .multi :: _, tree =>
    match tree.multi with
    | none => .error ⟨"#", position⟩
    | some slot => .ok { tree with multi := keep (f slot) }

def update (f : List α → List α) (segments : List Segment) (tree : Tree α) :
    Except MissingNode (Tree α) :=
  updateFrom f 0 segments tree

/-- What an update in place leaves behind: its answer, which tells whether the tree is empty
now, the tree, and the slots that the function was run on. -/
structure Updated (α : Type) where
  answer : Except MissingNode Bool
  tree : Tree α
  calls : List (List α)

/-- The update done in place. A child is changed where it stands, also by an update that fails
further down. -/
def updateInPlaceFrom (f : List α → List α) (position : Nat) :
    List Segment → Tree α → Updated α
  | [], tree =>
    match tree.exact with
    | none => ⟨.error ⟨"<end>", position⟩, tree, []⟩
    | some slot =>
      let after := { tree with exact := keep (f slot) }
      ⟨.ok after.isEmpty, after, [slot]⟩
  | .literal text :: rest, tree =>
    match Entries.get? text tree.children with
    | none => ⟨.error ⟨text, position⟩, tree, []⟩
    | some child =>
      let below := updateInPlaceFrom f (position + 1) rest child
      let changed := { tree with children := Entries.insert text below.tree tree.children }
      match below.answer with
      | .error missing => ⟨.error missing, changed, below.calls⟩
      | .ok false => ⟨.ok changed.isEmpty, changed, below.calls⟩
      | .ok true =>
        let after := { changed with children := Entries.erase text changed.children }
        ⟨.ok after.isEmpty, after, below.calls⟩
  | .single :: rest, tree =>
    match tree.single with
    | none => ⟨.error ⟨"+", position⟩, tree, []⟩
    | some child =>
      let below := updateInPlaceFrom f (position + 1) rest child
      let changed := { tree with single := some below.tree }
      match below.answer with
      | .error missing => ⟨.error missing, changed, below.calls⟩
      | .ok false => ⟨.ok changed.isEmpty, changed, below.calls⟩
      | .ok true =>
        let after := { changed with single := none }
        ⟨.ok after.isEmpty, after, below.calls⟩
  | .multi :: _, tree =>
    match tree.multi with
    | none => ⟨.error ⟨"#", position⟩, tree, []⟩
    | some slot =>
      let after := { tree with multi := keep (f slot) }
      ⟨.ok after.isEmpty, after, [slot]⟩

def updateInPlace (f : List α → List α) (segments : List Segment) (tree : Tree α) : Updated α :=
  updateInPlaceFrom f 0 segments tree

/-- The slots of all patterns that accept the rest of a topic: the literal branch
first, then `+`, then `#`. -/
def collect : List String → Tree α → List (List α)
  | [], tree => tree.exact.toList ++ tree.multi.toList
  | segment :: rest, tree =>
    ((Entries.get? segment tree.children).elim [] (collect rest)) ++
      tree.single.elim [] (collect rest) ++ tree.multi.toList

/-- The slots of all patterns that accept a topic. The wildcards of the root do not
reach the topics of the broker itself. -/
def find (topic : String) (tree : Tree α) : List (List α) :=
  match Topic.segments topic with
  | first :: rest =>
    if Topic.isSystem topic then (Entries.get? first tree.children).elim [] (collect rest)
    else collect (first :: rest) tree
  | [] => collect [] tree

end Tree

end ThingHub
