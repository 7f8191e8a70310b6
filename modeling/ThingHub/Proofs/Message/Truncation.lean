import ThingHub.Message.Delivery
import ThingHub.Proofs.Json.Truncation
import ThingHub.Proofs.Message.RoundTrip

/-! # Messages cut short reach nobody

A payload that breaks off before the end of its document is reported as such, wherever it breaks
off, and a subscription that reads payloads stays silent about it. -/

namespace ThingHub.Message

/-- The numbers of the document are such as are written. -/
def Writable (message : Message) : Prop := (Json.object message.document).Writable

/-- A payload that is cut decodes as one that ends too early. -/
theorem decode_cuts {message : Message} (h : message.Writable)
    (hdepth : message.depth ≤ Json.maxDepth) {payload : Bytes}
    (hcut : Bytes.Cuts payload message.encode) :
    decode message.kind payload = .error .truncated := by
  cases message with
  | description members =>
      exact congrArg (Except.map description) (Json.decodeObject_cuts h hdepth hcut)
  | values members => exact congrArg (Except.map values) (Json.decodeObject_cuts h hdepth hcut)
  | event members => exact congrArg (Except.map event) (Json.decodeObject_cuts h hdepth hcut)
  | action requests => exact congrArg (Except.map action) (Json.decodeObjects_cuts h hdepth hcut)
  | config members => exact congrArg (Except.map config) (Json.decodeObject_cuts h hdepth hcut)

end ThingHub.Message

namespace ThingHub.Subscription

/-- A payload that cannot be read is not delivered as a document. -/
theorem deliver_typed_of_error {kind : Kind} {payload : Bytes} {fault : Json.Fault}
    (h : Message.decode kind payload = .error fault) (topic : String) :
    (typed kind).deliver topic payload = [] := by
  unfold deliver
  cases Thing.splitTopic? topic with
  | none => rfl
  | some parts => simp [h]

/-- A payload that cannot be read requests no action. -/
theorem deliver_actions_of_error {payload : Bytes} {fault : Json.Fault}
    (h : Message.decode .action payload = .error fault) (topic : String) :
    actions.deliver topic payload = [] := by
  unfold deliver
  cases Thing.splitTopic? topic with
  | none => rfl
  | some parts => simp [h]

end ThingHub.Subscription

namespace ThingHub.Message

/-- A message that is cut short never reaches an application. Whatever its document is, as long as
its numbers are such as are written and it is not too deep, every strict prefix of its octets is
refused as ending too early, and no subscription to its kind makes a call of it. -/
theorem cut_payload_reaches_nobody {message : Message} (h : message.Writable)
    (hdepth : message.depth ≤ 127) {payload : Bytes} (hfront : payload <+: message.encode)
    (hstrict : payload ≠ message.encode) :
    decode message.kind payload = .error .truncated ∧
      ∀ topic, (Subscription.typed message.kind).deliver topic payload = [] ∧
        (message.kind = .action → Subscription.actions.deliver topic payload = []) := by
  have hdecode := decode_cuts h hdepth ⟨hfront, hstrict⟩
  refine ⟨hdecode, fun topic => ⟨Subscription.deliver_typed_of_error hdecode topic, ?_⟩⟩
  intro hkind
  rw [hkind] at hdecode
  exact Subscription.deliver_actions_of_error hdecode topic

/-- Cuts in the exponent of a double, between the octets of a letter and inside an escape. -/
theorem cut_payload_reaches_nobody_within_tokens :
    let message := single ⟨"dim",
      [("level", .number (.real ⟨true, Magnitude.largest⟩)), ("ü", .string "\x01")]⟩
    let exponent := Bytes.ofText "\x7b\"dim\":\x7b\"level\":-1.7976931348623157e+"
    let letter := exponent ++ Bytes.ofText "308,\"" ++ [0xc3]
    let escape := letter ++ [0xbc] ++ Bytes.ofText "\":\"\\u00"
    message.Writable ∧ message.depth = 2 ∧
      ∀ payload ∈ [exponent, letter, escape],
        payload <+: message.encode ∧ payload ≠ message.encode ∧
          decode .action payload = .error .truncated ∧
          Subscription.actions.deliver "things/lamp/action" payload = [] := by
  intro message exponent letter escape
  have hlevel : Json.Writable (.number (.real ⟨true, Magnitude.largest⟩)) :=
    .number (.real (by decide))
  have hwritable : message.Writable := by
    refine .object fun member hm => ?_
    obtain rfl := List.mem_singleton.mp hm
    refine .object fun field hf => ?_
    rcases List.mem_cons.mp hf with rfl | hf
    · exact hlevel
    · obtain rfl := List.mem_singleton.mp hf
      exact .string "\x01"
  have hdepth : message.depth = 2 := rfl
  have hcuts : ∀ payload ∈ [exponent, letter, escape],
      payload <+: message.encode ∧ payload ≠ message.encode := by
    decide +kernel
  refine ⟨hwritable, hdepth, fun payload hp => ?_⟩
  obtain ⟨hfront, hstrict⟩ := hcuts payload hp
  obtain ⟨hdecode, hsilent⟩ :=
    cut_payload_reaches_nobody hwritable (hdepth ▸ by decide) hfront hstrict
  exact ⟨hfront, hstrict, hdecode, (hsilent "things/lamp/action").2 rfl⟩

end ThingHub.Message
