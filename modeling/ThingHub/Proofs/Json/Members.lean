import Mathlib.Data.Set.List
import ThingHub.Proofs.Data.Entries
import ThingHub.Proofs.Json.RoundTrip

/-! # Members as they are written

An object is read as the table of its members, in which a name stands once. Before that the members
stand in the order of the text, with every repetition. A text holds an object of objects exactly
if each of these members is an object, also those that a later one of the same name replaces. -/

namespace ThingHub.Json

variable {α : Type}

/-- The members of an object in the order of the text. -/
def readWritten (item : Reader α) : Reader (List (String × α))
  | bytes =>
    match skipBlank bytes with
    | [] => .error .truncated
    | b :: rest =>
      if b = 0x7b then readMembers item (rest.length + 1) [] rest else .error (mismatch b rest)

/-- The members of a text that holds one object, in the order of the text. -/
def decodeMembers (bytes : Bytes) : Except Fault (List (String × Json)) :=
  readAll (readWritten (readValue (maxDepth - 1))) bytes

theorem readObject_eq_readWritten (item : Reader α) (bytes : Bytes) :
    readObject item bytes =
      (readWritten item bytes).map fun found => (Entries.ofList found.1, found.2) := by
  rw [readObject, readWritten]
  cases skipBlank bytes with
  | nil => rfl
  | cons b rest =>
      dsimp only
      split <;> rfl

theorem readAll_readObject (item : Reader α) (bytes : Bytes) :
    readAll (readObject item) bytes = (readAll (readWritten item) bytes).map Entries.ofList := by
  rw [readAll, readAll, readObject_eq_readWritten]
  cases readWritten item bytes with
  | error fault => rfl
  | ok found =>
      simp only [Except.map]
      split <;> rfl

/-- An object is the table of its members. -/
theorem decodeObject_eq_decodeMembers (bytes : Bytes) :
    decodeObject bytes = (decodeMembers bytes).map Entries.ofList :=
  readAll_readObject _ bytes

/-- Members come back in the order in which they are written, repeated names included. -/
theorem decodeMembers_encode {members : List (String × Json)}
    (h : ∀ member ∈ members, Exact member.2) (hdepth : depthMembers members ≤ maxDepth - 1) :
    decodeMembers (Json.object members).encode = .ok members := by
  let outcome := fun value : Json => within (maxDepth - 1) (depth value) value
  have hreads : ∀ member ∈ members, Gives (readValue (maxDepth - 1)) (id member.2).encode
      (outcome member.2) := fun member hm => (h member hm).reads (maxDepth - 1)
  obtain ⟨bytes, hbytes, hread⟩ := readMembers_object hreads []
  have hall : eachValue outcome members = .ok members := by
    have hwithin := eachValue_within (maxDepth - 1) id members
    rwa [formed_id, within_of_le hdepth] at hwithin
  rw [formed_id] at hbytes
  rw [List.append_nil, hall] at hread
  rw [decodeMembers, readAll, hbytes, readWritten, skipBlank_cons (by decide)]
  simp only [if_true, hread]
  rfl

/-! ## Readers of objects only -/

/-- One reader takes what the other takes, as long as that has a certain form. -/
def Narrows {β : Type} (narrow : Reader α) (wide : Reader β) (form : α → β) : Prop :=
  ∀ bytes value rest, narrow bytes = .ok (value, rest) ↔ wide bytes = .ok (form value, rest)

theorem readScalar_ne_object (b : UInt8) (rest behind : Bytes) (members : JsonObject) :
    readScalar b rest ≠ .ok (.object members, behind) := by
  have hmap {α : Type} (result : Except Fault α) (form : α → Json × Bytes)
      (hform : ∀ found, (form found).1 ≠ .object members) :
      result.map form ≠ .ok (.object members, behind) := by
    cases result with
    | error fault => simp [Except.map]
    | ok found => exact fun heq => hform found (congrArg Prod.fst (Except.ok.inj heq))
  unfold readScalar
  repeat' split
  any_goals exact hmap _ _ (by simp)
  simp

theorem readObject_narrows_readValue (depth : Nat) :
    Narrows (readObject (readValue depth)) (readValue (depth + 1)) Json.object := by
  intro bytes members rest
  rw [readObject, readValue.eq_def]
  dsimp only
  cases skipBlank bytes with
  | nil => simp
  | cons b behind =>
      dsimp only
      by_cases hobject : b = 0x7b
      · subst hobject
        rw [if_pos rfl, if_neg (by decide), if_pos rfl]
        cases readMembers (readValue depth) (behind.length + 1) [] behind <;> simp [Except.map]
      rw [if_neg hobject, if_neg hobject]
      by_cases harray : b = 0x5b
      · rw [if_pos harray]
        cases readItems (readValue depth) (behind.length + 1) [] behind <;> simp [Except.map]
      · rw [if_neg harray]
        simp [readScalar_ne_object]

theorem readAll_eq_ok_iff {reader : Reader α} {bytes : Bytes} {value : α} :
    readAll reader bytes = .ok value ↔
      ∃ rest, reader bytes = .ok (value, rest) ∧ skipBlank rest = [] := by
  rw [readAll]
  cases reader bytes with
  | error fault => simp
  | ok found =>
      by_cases hend : skipBlank found.2 = []
      · simp [hend, Prod.ext_iff]
      · simp [hend, Prod.ext_iff]

section Members

variable {item narrow : Reader α} {wide : Reader Json} {form : α → Json}

/-- Either the object ends, or one more member is read before all others. -/
theorem readMembers_eq_ok_iff {turns : Nat} {found all : List (String × α)} {bytes rest : Bytes} :
    readMembers item (turns + 1) found bytes = .ok (all, rest) ↔
      (readName found.isEmpty bytes = .ok (none, rest) ∧ all = found.reverse) ∨
        ∃ name behind start value left, readName found.isEmpty bytes = .ok (some name, behind) ∧
          readColon behind = .ok start ∧ item start = .ok (value, left) ∧
          readMembers item turns ((name, value) :: found) left = .ok (all, rest) := by
  rw [readMembers]
  cases hname : readName found.isEmpty bytes with
  | error fault => simp
  | ok next =>
      obtain ⟨_ | name, behind⟩ := next
      · simp [eq_comm, and_comm]
      · cases hcolon : readColon behind with
        | error fault => simp [hcolon]
        | ok start =>
            cases hitem : item start with
            | error fault => simp [hcolon, hitem]
            | ok next =>
                obtain ⟨value, left⟩ := next
                simp [hcolon, hitem]

/-- Members that are found stay found. -/
theorem mem_of_readMembers {turns : Nat} {found all : List (String × α)} {bytes rest : Bytes}
    (h : readMembers item turns found bytes = .ok (all, rest)) {member : String × α}
    (hm : member ∈ found) : member ∈ all := by
  induction turns generalizing found bytes with
  | zero => simp [readMembers] at h
  | succ turns ih =>
      rcases readMembers_eq_ok_iff.mp h with
        ⟨-, rfl⟩ | ⟨name, behind, start, value, left, -, -, -, hmore⟩
      · simpa using hm
      · exact ih hmore (List.mem_cons_of_mem _ hm)

theorem isEmpty_formed (form : α → Json) (members : List (String × α)) :
    (formed form members).isEmpty = members.isEmpty := by
  simp [formed]

theorem Narrows.readMembers_formed (h : Narrows narrow wide form) {turns : Nat}
    {found members : List (String × α)} {bytes rest : Bytes}
    (hread : readMembers narrow turns found bytes = .ok (members, rest)) :
    readMembers wide turns (formed form found) bytes = .ok (formed form members, rest) := by
  induction turns generalizing found bytes with
  | zero => simp [readMembers] at hread
  | succ turns ih =>
      rw [readMembers_eq_ok_iff, isEmpty_formed]
      rcases readMembers_eq_ok_iff.mp hread with
        ⟨hend, rfl⟩ | ⟨name, behind, start, value, left, hname, hcolon, hitem, hmore⟩
      · exact .inl ⟨hend, by simp [formed]⟩
      · exact .inr ⟨name, behind, start, form value, left, hname, hcolon, (h _ _ _).mp hitem,
          ih hmore⟩

/-- Conversely the members are read again if all of them have the form. -/
theorem Narrows.exists_members (h : Narrows narrow wide form) {turns : Nat}
    {found : List (String × α)} {all : List (String × Json)} {bytes rest : Bytes}
    (hread : readMembers wide turns (formed form found) bytes = .ok (all, rest))
    (hall : ∀ member ∈ all, ∃ value, member.2 = form value) :
    ∃ members, all = formed form members ∧
      readMembers narrow turns found bytes = .ok (members, rest) := by
  induction turns generalizing found bytes with
  | zero => simp [readMembers] at hread
  | succ turns ih =>
      rcases readMembers_eq_ok_iff.mp hread with
        ⟨hend, rfl⟩ | ⟨name, behind, start, value, left, hname, hcolon, hitem, hmore⟩
      · rw [isEmpty_formed] at hend
        exact ⟨found.reverse, by simp [formed], readMembers_eq_ok_iff.mpr (.inl ⟨hend, rfl⟩)⟩
      · obtain ⟨inner, rfl⟩ := hall _ (mem_of_readMembers hmore List.mem_cons_self)
        have hmore : readMembers wide turns (formed form ((name, inner) :: found)) left =
            .ok (all, rest) := hmore
        obtain ⟨members, rfl, hmembers⟩ := ih hmore
        rw [isEmpty_formed] at hname
        exact ⟨members, rfl, readMembers_eq_ok_iff.mpr
          (.inr ⟨name, behind, start, inner, left, hname, hcolon, (h _ _ _).mpr hitem, hmembers⟩)⟩

theorem exists_formed {all : List (String × Json)}
    (hall : ∀ member ∈ all, ∃ value, member.2 = form value) :
    ∃ members, all = formed form members := by
  have hrange : all ∈ Set.range (List.map (Prod.map id form)) := by
    rw [Set.range_list_map]
    intro member hm
    obtain ⟨value, hvalue⟩ := hall member hm
    exact ⟨(member.1, value), Prod.ext rfl hvalue.symm⟩
  obtain ⟨members, hmembers⟩ := hrange
  exact ⟨members, hmembers.symm⟩

theorem formed_injective (hform : form.Injective) : (formed form).Injective := by
  intro members members' heq
  refine (List.map_inj_right ?_).mp heq
  rintro ⟨name, value⟩ ⟨name', value'⟩ hentry
  obtain ⟨rfl, hvalue⟩ := Prod.mk.inj hentry
  exact congrArg (Prod.mk name) (hform hvalue)

/-- What holds of the reader of a member holds of the reader of all members. -/
theorem Narrows.readWritten (h : Narrows narrow wide form) (hform : form.Injective) :
    Narrows (readWritten narrow) (readWritten wide) (formed form) := by
  intro bytes members rest
  rw [Json.readWritten, Json.readWritten]
  cases skipBlank bytes with
  | nil => simp
  | cons b behind =>
      dsimp only
      split
      · refine ⟨fun hread => h.readMembers_formed hread, fun hread => ?_⟩
        have hread : readMembers wide (behind.length + 1) (formed form []) behind =
            .ok (formed form members, rest) := hread
        obtain ⟨same, hsame, hnarrow⟩ := h.exists_members hread fun member hm => by
          obtain ⟨entry, -, rfl⟩ := List.mem_map.mp hm
          exact ⟨entry.2, rfl⟩
        rwa [formed_injective hform hsame]
      · simp

end Members

/-- An object of objects is an object whose members are all objects, as they are written. -/
theorem decodeObjects_eq_ok_iff {bytes : Bytes} {requests : Entries JsonObject} :
    decodeObjects bytes = .ok requests ↔
      ∃ members, decodeMembers bytes = .ok (formed Json.object members) ∧
        requests = Entries.ofList members := by
  have hnarrows := (readObject_narrows_readValue (maxDepth - 2)).readWritten
    fun first second heq => Json.object.inj heq
  have hmembers {members : List (String × JsonObject)} :
      readAll (readWritten (readObject (readValue (maxDepth - 2)))) bytes = .ok members ↔
        decodeMembers bytes = .ok (formed Json.object members) := by
    simp only [decodeMembers, readAll_eq_ok_iff, hnarrows _ _ _]
    rfl
  rw [decodeObjects, readAll_readObject]
  simp only [← hmembers]
  cases readAll (readWritten (readObject (readValue (maxDepth - 2)))) bytes with
  | error fault => simp [Except.map]
  | ok members => simp [Except.map, eq_comm]

end ThingHub.Json
