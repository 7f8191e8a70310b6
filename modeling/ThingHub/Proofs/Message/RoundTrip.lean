import ThingHub.Message.Basic
import ThingHub.Proofs.Json.RoundTrip

/-! # Messages read back as they were sent

The payload of a message decodes, as a message of its own kind, to that message, as long as
the document is not too deep for the reader. -/

namespace ThingHub.Message

/-- The document is one that a text holds exactly. -/
def Exact (message : Message) : Prop := (Json.object message.document).Exact

/-- How many arrays and objects stand inside one another at most in the document. -/
def depth (message : Message) : Nat := (Json.object message.document).depth

/-- Requested actions stand in ascending order of their names. -/
theorem Exact.ordered_requests {message : Message} (h : message.Exact) :
    (message.requests.map ActionRequest.name).Pairwise (· < ·) := by
  cases message with
  | action requests =>
      cases h with
      | object hordered _ =>
          rw [Entries.Ordered, Entries.keys, document, List.map_map] at hordered
          rwa [Message.requests, List.map_map]
  | _ => exact .nil

/-- A message decodes to itself if it is not too deep. -/
theorem decode_encode_eq {message : Message} (h : message.Exact) :
    decode message.kind message.encode = Json.within Json.maxDepth message.depth message := by
  have hwithin {α : Type} (form : α → Message) (depth : Nat) (members : α) :
      (Json.within Json.maxDepth depth members).map form =
        Json.within Json.maxDepth depth (form members) := by
    unfold Json.within
    split <;> rfl
  cases message with
  | description members =>
      exact (congrArg (Except.map description) (Json.decodeObject_encode h)).trans
        (hwithin description _ members)
  | values members =>
      exact (congrArg (Except.map values) (Json.decodeObject_encode h)).trans
        (hwithin values _ members)
  | event members =>
      exact (congrArg (Except.map event) (Json.decodeObject_encode h)).trans
        (hwithin event _ members)
  | action requests =>
      exact (congrArg (Except.map action) (Json.decodeObjects_encode h)).trans
        (hwithin action _ requests)
  | config members =>
      exact (congrArg (Except.map config) (Json.decodeObject_encode h)).trans
        (hwithin config _ members)

theorem decode_encode {message : Message} (h : message.Exact)
    (hdepth : message.depth ≤ Json.maxDepth) :
    decode message.kind message.encode = .ok message :=
  (decode_encode_eq h).trans (Json.within_of_le hdepth message)

/-! ## Messages that applications put together -/

/-- A document is put together member by member, requested actions one by one. -/
inductive Built : Message → Prop
  | document {kind : Kind} {members : JsonObject} {message : Message} :
      Entries.Assembled Json.Exact members → ofMembers? kind members = some message →
      Built message
  | action {requests : Entries JsonObject} :
      Entries.Assembled (fun input => Json.Exact (.object input)) requests →
      Built (action requests)

theorem built_single {request : ActionRequest} (h : Json.Exact (.object request.input)) :
    Built (single request) := by
  have hone : Entries.Assembled (fun input => Json.Exact (.object input))
      (Entries.insert request.name request.input []) := .insert request.name h .empty
  exact .action hone

theorem document_of_ofMembers? {kind : Kind} {members : JsonObject} {message : Message}
    (h : ofMembers? kind members = some message) : message.document = members := by
  cases kind <;> cases h <;> rfl

theorem Built.exact {message : Message} (h : message.Built) : message.Exact := by
  cases h with
  | document hmembers hmessage =>
      rw [Message.Exact, document_of_ofMembers? hmessage]
      exact .object hmembers.ordered hmembers.forall_mem
  | @action requests hrequests =>
      have hordered : Entries.Ordered (Message.action requests).document := by
        rw [Entries.Ordered, Message.document, Entries.keys_map]
        exact hrequests.ordered
      refine .object hordered ?_
      intro member hm
      obtain ⟨request, hr, rfl⟩ := List.mem_map.mp hm
      exact hrequests.forall_mem request hr

/-- Decoding undoes encoding. A message that an application put together is read back from
its octets, as a message of its kind, if its arrays and objects go at most 127 deep, and is
refused as malformed if they go deeper. -/
theorem Built.decode_encode_within {message : Message} (h : message.Built) :
    (message.depth ≤ 127 → decode message.kind message.encode = .ok message) ∧
      (127 < message.depth → decode message.kind message.encode = .error .malformed) := by
  have hdecode := decode_encode_eq h.exact
  constructor
  · intro hdepth
    rw [hdecode]
    exact Json.within_of_le hdepth message
  · intro hdepth
    rw [hdecode]
    exact Json.within_of_lt hdepth message

/-- An array that holds nothing but an array, and so on, to some depth. -/
def nest : Nat → Json
  | 0 => .array []
  | levels + 1 => .array [nest levels]

theorem exact_nest (levels : Nat) : (nest levels).Exact := by
  induction levels with
  | zero => exact .array (by simp)
  | succ levels ih => exact .array (by simpa using ih)

theorem depth_nest (levels : Nat) : (nest levels).depth = levels + 1 := by
  induction levels with
  | zero => rfl
  | succ levels ih => simp [nest, Json.depth, Json.depthItems, ih]

/-- The deepest input of an action that is read back, and an event one level too deep. -/
theorem Built.decode_encode_within_boundary :
    let deepest := single ⟨"dim", [("level", nest 124)]⟩
    let deeper := event (Entries.erase "old" (Entries.insert "\"ü\\" (nest 126)
      (Entries.insert "old" (.number (.int (-2 ^ 63))) [])))
    deepest.Built ∧ deepest.depth = 127 ∧ decode .action deepest.encode = .ok deepest ∧
      deeper.Built ∧ deeper.depth = 128 ∧ decode .event deeper.encode = .error .malformed := by
  intro deepest deeper
  have hdeepest : deepest.Built :=
    built_single (.object (by decide) (by simpa using exact_nest 124))
  have hdeeper : deeper.Built :=
    @Built.document .event _ _ (.erase _ (.insert _ (exact_nest 126)
      (.insert _ (.int (by decide) (by decide)) .empty))) rfl
  have hdepth : deepest.depth = 127 := by
    have hmembers : deepest.document = [("dim", .object [("level", nest 124)])] := rfl
    simp [depth, hmembers, Json.depth, Json.depthMembers, depth_nest]
  have hdepth' : deeper.depth = 128 := by
    have hmembers : deeper.document = [("\"ü\\", nest 126)] := rfl
    simp [depth, hmembers, Json.depth, Json.depthMembers, depth_nest]
  exact ⟨hdeepest, hdepth, (decode_encode_within hdeepest).1 (by omega), hdeeper, hdepth',
    (decode_encode_within hdeeper).2 (by omega)⟩

end ThingHub.Message
