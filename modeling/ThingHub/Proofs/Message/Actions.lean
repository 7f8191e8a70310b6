import ThingHub.Proofs.Json.Members
import ThingHub.Proofs.Message.RoundTrip

/-! # Messages of actions among the other messages

A payload is a message of actions exactly if it is an object all of whose members are objects, as
they are written. For all other kinds of message any object will do, and they read it alike. -/

namespace ThingHub.Message

variable {payload : Bytes}

theorem decode_eq_of_ne_action {kind : Kind} (h : kind ≠ .action) (payload : Bytes) :
    ∃ form : JsonObject → Message,
      decode kind payload = (Json.decodeObject payload).map form ∧
        ∀ members, (form members).kind = kind ∧ (form members).document = members := by
  cases kind with
  | description => exact ⟨description, rfl, fun _ => ⟨rfl, rfl⟩⟩
  | values => exact ⟨values, rfl, fun _ => ⟨rfl, rfl⟩⟩
  | event => exact ⟨event, rfl, fun _ => ⟨rfl, rfl⟩⟩
  | action => exact absurd rfl h
  | config => exact ⟨config, rfl, fun _ => ⟨rfl, rfl⟩⟩

/-- What is read of a message of another kind is the object that the payload holds. -/
theorem map_document_decode {kind : Kind} (h : kind ≠ .action) (payload : Bytes) :
    (decode kind payload).map document = Json.decodeObject payload := by
  obtain ⟨form, hdecode, hform⟩ := decode_eq_of_ne_action h payload
  rw [hdecode]
  cases Json.decodeObject payload with
  | error fault => rfl
  | ok members => exact congrArg Except.ok (hform members).2

theorem exists_decode_of_decodeObject {kind : Kind} (h : kind ≠ .action) {members : JsonObject}
    (hmembers : Json.decodeObject payload = .ok members) :
    ∃ same, decode kind payload = .ok same ∧ same.kind = kind ∧ same.document = members := by
  obtain ⟨form, hdecode, hform⟩ := decode_eq_of_ne_action h payload
  rw [hmembers] at hdecode
  exact ⟨form members, hdecode, hform members⟩

/-- A message of actions is read from the members of the payload, if all of them are objects. -/
theorem decode_action_eq_ok_iff {message : Message} :
    decode .action payload = .ok message ↔
      ∃ written, Json.decodeMembers payload = .ok (Json.formed Json.object written) ∧
        message = action (Entries.ofList written) := by
  have hmap : decode .action payload = .ok message ↔
      ∃ requests, Json.decodeObjects payload = .ok requests ∧ message = action requests := by
    rw [decode]
    cases Json.decodeObjects payload <;> simp [Except.map, eq_comm]
  simp only [hmap, Json.decodeObjects_eq_ok_iff]
  constructor
  · rintro ⟨_, ⟨written, hwritten, rfl⟩, rfl⟩
    exact ⟨written, hwritten, rfl⟩
  · rintro ⟨written, hwritten, rfl⟩
    exact ⟨_, ⟨written, hwritten, rfl⟩, rfl⟩

theorem document_action_ofList (written : List (String × JsonObject)) :
    (action (Entries.ofList written)).document =
      Entries.ofList (Json.formed Json.object written) :=
  (Entries.ofList_map Json.object written).symm

theorem exists_decode_action {written : List (String × Json)}
    (hwritten : Json.decodeMembers payload = .ok written)
    (hall : ∀ member ∈ written, ∃ input, member.2 = Json.object input) :
    ∃ same, decode .action payload = .ok same ∧ same.document = Entries.ofList written := by
  obtain ⟨members, rfl⟩ := Json.exists_formed hall
  exact ⟨_, decode_action_eq_ok_iff.mpr ⟨members, hwritten, rfl⟩, document_action_ofList members⟩

theorem mem_requests_action {requests : Entries JsonObject} {request : ActionRequest} :
    request ∈ (action requests).requests ↔ (request.name, request.input) ∈ requests := by
  rw [Message.requests, List.mem_map]
  constructor
  · rintro ⟨entry, hentry, rfl⟩
    exact hentry
  · exact fun hm => ⟨_, hm, rfl⟩

/-- The requests come in the order of the octets of their names. -/
theorem pairwise_requests_action {requests : Entries JsonObject} (h : Entries.Ordered requests) :
    (action requests).requests.Pairwise
      fun first second => Bytes.ofText first.name < Bytes.ofText second.name := by
  rw [Message.requests, List.pairwise_map]
  apply List.Pairwise.imp _ (List.pairwise_map.mp h)
  exact fun hlt => Bytes.ofText_lt_ofText hlt

theorem map_name_requests_action (requests : Entries JsonObject) :
    (action requests).requests.map ActionRequest.name = Entries.keys requests := by
  rw [Message.requests, List.map_map]
  rfl

theorem mem_map_name_requests_iff {written : List (String × JsonObject)} {name : String} :
    name ∈ (action (Entries.ofList written)).requests.map ActionRequest.name ↔
      name ∈ (Json.formed Json.object written).map Prod.fst := by
  rw [map_name_requests_action, Entries.mem_keys_ofList, Json.formed, List.map_map]
  rfl

/-- Of requests for one action the last one in the text counts. -/
theorem lookup_of_mem_requests {written : List (String × JsonObject)} {request : ActionRequest}
    (h : request ∈ (action (Entries.ofList written)).requests) :
    (Json.formed Json.object written).reverse.lookup request.name =
      some (.object request.input) := by
  have hget := Entries.get?_eq_some_of_mem (Entries.ordered_ofList written)
    (mem_requests_action.mp h)
  rw [← Entries.get?_ofList, Json.formed, Entries.ofList_map, Entries.get?_map, hget]
  rfl

/-- Payloads with requested actions are the objects of objects. -/
theorem actions_are_objects_of_objects (payload : Bytes) :
    (∀ kind other, kind ≠ .action → other ≠ .action →
      (decode kind payload).map document = (decode other payload).map document) ∧
    (∀ message, decode .action payload = .ok message → ∀ kind, kind ≠ .action →
      ∃ same, decode kind payload = .ok same ∧ same.kind = kind ∧
        same.document = message.document) ∧
    (∀ message written, decode .values payload = .ok message →
      Json.decodeMembers payload = .ok written → (written.map Prod.fst).Nodup →
      (∀ member ∈ message.document, ∃ input, member.2 = .object input) →
      ∃ same, decode .action payload = .ok same ∧ same.document = message.document) ∧
    ((∃ message, decode .action payload = .ok message) ↔
      ∃ written, Json.decodeMembers payload = .ok written ∧
        ∀ member ∈ written, ∃ input, member.2 = .object input) ∧
    (∀ message, decode .action payload = .ok message →
      ∃ written, Json.decodeMembers payload = .ok written ∧
        message.requests.Pairwise
          (fun first second => Bytes.ofText first.name < Bytes.ofText second.name) ∧
        (∀ name, name ∈ message.requests.map ActionRequest.name ↔ name ∈ written.map Prod.fst) ∧
        ∀ request ∈ message.requests,
          written.reverse.lookup request.name = some (.object request.input)) := by
  have hobject {written : List (String × Json)}
      (hwritten : Json.decodeMembers payload = .ok written) :
      Json.decodeObject payload = .ok (Entries.ofList written) := by
    rw [Json.decodeObject_eq_decodeMembers, hwritten]
    rfl
  refine ⟨?_, ?_, ?_, ?_, ?_⟩
  · intro kind other hkind hother
    rw [map_document_decode hkind, map_document_decode hother]
  · intro message hmessage kind hkind
    obtain ⟨written, hwritten, rfl⟩ := decode_action_eq_ok_iff.mp hmessage
    rw [document_action_ofList]
    exact exists_decode_of_decodeObject hkind (hobject hwritten)
  · intro message written hmessage hwritten hnodup hall
    have hdocument : message.document = Entries.ofList written := by
      have hvalues : Kind.values ≠ .action := by decide
      have hmap := map_document_decode hvalues payload
      rw [hmessage, hobject hwritten] at hmap
      exact Except.ok.inj hmap
    rw [hdocument] at hall ⊢
    apply exists_decode_action hwritten
    exact fun member hm => hall member (Entries.mem_ofList_of_mem hnodup hm)
  · constructor
    · rintro ⟨message, hmessage⟩
      obtain ⟨members, hwritten, -⟩ := decode_action_eq_ok_iff.mp hmessage
      refine ⟨_, hwritten, fun member hm => ?_⟩
      obtain ⟨entry, -, rfl⟩ := List.mem_map.mp hm
      exact ⟨entry.2, rfl⟩
    · rintro ⟨written, hwritten, hall⟩
      obtain ⟨same, hsame, -⟩ := exists_decode_action hwritten hall
      exact ⟨same, hsame⟩
  · intro message hmessage
    obtain ⟨members, hwritten, rfl⟩ := decode_action_eq_ok_iff.mp hmessage
    exact ⟨_, hwritten, pairwise_requests_action (Entries.ordered_ofList members),
      fun name => mem_map_name_requests_iff, fun request hm => lookup_of_mem_requests hm⟩

/-- Three requests, the third in place of the first one. -/
theorem actions_are_objects_of_objects_repeated :
    let level := fun n : Int => [("level", Json.number (.int n))]
    let written := [("dim", Json.object (level 1)), ("add", .object []), ("dim", .object (level 2))]
    let payload := (Json.object written).encode
    ∃ message, decode .action payload = .ok message ∧
      message.requests.map ActionRequest.name = ["add", "dim"] ∧
      (∀ request ∈ message.requests,
        written.reverse.lookup request.name = some (.object request.input)) ∧
      ∃ same, decode .values payload = .ok same ∧ same.document = message.document := by
  intro level written payload
  have hlevel (n : Int) (hlow : -2 ^ 63 ≤ n) (hhigh : n < 2 ^ 64) :
      (Json.object (level n)).Exact :=
    .object (by simp [level, Entries.Ordered, Entries.keys])
      (by simpa [level] using .int hlow hhigh)
  have hempty : (Json.object []).Exact := .object .nil (by simp)
  have hwritten : Json.decodeMembers payload = .ok written := by
    apply Json.decodeMembers_encode
    · simp [written, hlevel 1, hlevel 2, hempty]
    · decide
  let requests := [("dim", level 1), ("add", []), ("dim", level 2)]
  have hmessage : decode .action payload = .ok (action (Entries.ofList requests)) :=
    decode_action_eq_ok_iff.mpr ⟨requests, hwritten, rfl⟩
  obtain ⟨-, hothers, -, -, hrequests⟩ := actions_are_objects_of_objects payload
  obtain ⟨found, hfound, -, -, hlast⟩ := hrequests _ hmessage
  cases hwritten.symm.trans hfound
  obtain ⟨same, hsame, -, hdocument⟩ := hothers _ hmessage .values (by decide)
  exact ⟨_, hmessage, by decide, hlast, same, hsame, hdocument⟩

end ThingHub.Message
