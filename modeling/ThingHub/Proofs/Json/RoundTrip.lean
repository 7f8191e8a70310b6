import ThingHub.Proofs.Data.Entries
import ThingHub.Proofs.Json.Numbers
import ThingHub.Proofs.Json.Strings

/-! # Values read back as they were written

What is written for a value is read as that value again, with whatever may follow it left
over, provided that its numbers are integers of 64 bits and that the reader allows for as many
arrays and objects inside one another as it has. A reader that allows for fewer refuses it. -/

namespace ThingHub.Json

/-! ## Exact values -/

/-- Values without doubles. Their integers fit 64 bits, with a sign or without, and their
objects have their members in order. -/
inductive Exact : Json → Prop
  | null : Exact .null
  | bool (value : Bool) : Exact (.bool value)
  | int {n : Int} : -2 ^ 63 ≤ n → n < 2 ^ 64 → Exact (.number (.int n))
  | string (text : String) : Exact (.string text)
  | array {items : List Json} : (∀ item ∈ items, Exact item) → Exact (.array items)
  | object {members : JsonObject} :
      Entries.Ordered members → (∀ member ∈ members, Exact member.2) → Exact (.object members)

mutual

/-- How many arrays and objects stand inside one another at most. -/
def depth : Json → Nat
  | .array items => depthItems items + 1
  | .object members => depthMembers members + 1
  | _ => 0

def depthItems : List Json → Nat
  | [] => 0
  | item :: items => max (depth item) (depthItems items)

def depthMembers : List (String × Json) → Nat
  | [] => 0
  | (_, item) :: members => max (depth item) (depthMembers members)

end

/-! ## First octets -/

theorem skipBlank_cons {b : UInt8} (h : isBlank b = false) (rest : Bytes) :
    skipBlank (b :: rest) = b :: rest :=
  List.dropWhile_cons_of_neg (by simp [h])

/-- Neither a blank nor a closing bracket comes first. -/
def Opens (octets : Bytes) : Prop :=
  ∃ b bytes, octets = b :: bytes ∧ isBlank b = false ∧ b ≠ 0x5d

theorem Opens.append {octets : Bytes} (h : Opens octets) (rest : Bytes) :
    Opens (octets ++ rest) := by
  obtain ⟨b, bytes, rfl, hb⟩ := h
  exact ⟨b, bytes ++ rest, rfl, hb⟩

/-- No value begins with a blank or with a closing bracket. -/
theorem Exact.opens {value : Json} (h : Exact value) : Opens value.encode := by
  cases h with
  | null => exact ⟨_, _, rfl, rfl, by decide⟩
  | bool value => cases value <;> exact ⟨_, _, rfl, rfl, by decide⟩
  | int hlow hhigh =>
      obtain ⟨b, bytes, hb, hfirst, -⟩ := readScalar_writeInt hlow hhigh
      refine ⟨b, bytes, hb, ?_⟩
      rcases hfirst with rfl | hdigit
      · exact ⟨rfl, by decide⟩
      · exact ⟨isBlank_of_isDigit hdigit, ne_of_isDigit hdigit rfl⟩
  | string text => exact ⟨_, _, rfl, rfl, by decide⟩
  | @array items _ => cases items <;> exact ⟨_, _, rfl, rfl, by decide⟩
  | @object members _ _ =>
      rcases members with _ | ⟨member, members⟩ <;> exact ⟨_, _, rfl, rfl, by decide⟩

/-! ## Readers that go so deep -/

variable {α β : Type}

/-- What comes of a value at some depth where so many levels are allowed. -/
def within (levels depth : Nat) (value : α) : Except Fault α :=
  if depth ≤ levels then .ok value else .error .malformed

theorem within_of_le {levels depth : Nat} (h : depth ≤ levels) (value : α) :
    within levels depth value = .ok value :=
  if_pos h

theorem within_of_lt {levels depth : Nat} (h : levels < depth) (value : α) :
    within levels depth value = .error .malformed :=
  if_neg (Nat.not_le_of_lt h)

theorem within_succ (levels depth : Nat) (value : α) :
    within (levels + 1) (depth + 1) value = within levels depth value := by
  simp [within]

theorem map_within (levels depth : Nat) (value : α) (f : α → β) :
    (within levels depth value).map f = within levels depth (f value) := by
  unfold within
  split <;> rfl

/-- Of two things that come one after the other the deeper one counts. -/
theorem within_bind {levels first second : Nat} {value : α} {result : β}
    {next : α → Except Fault β} (h : next value = within levels second result) :
    (within levels first value).bind next = within levels (max first second) result := by
  by_cases hfirst : first ≤ levels
  · rw [within_of_le hfirst]
    refine Eq.trans h ?_
    simp [within, hfirst]
  · have hlt : levels < first := Nat.lt_of_not_le hfirst
    rw [within_of_lt hlt, within_of_lt (Nat.lt_of_lt_of_le hlt (Nat.le_max_left _ _))]
    rfl

theorem mapM_cons_eq (outcome : α → Except Fault β) (value : α) (values : List α) :
    (value :: values).mapM outcome =
      (outcome value).bind fun first => (values.mapM outcome).map (first :: ·) := by
  rw [List.mapM_cons]
  cases outcome value with
  | error fault => rfl
  | ok first => cases values.mapM outcome <;> rfl

/-- A reader that reads a value back if it is at most so deep and refuses it otherwise,
whatever follows, as long as that does not go on with a number. -/
def Reads (levels : Nat) (reader : Reader α) (form : α → Json) (value : α) : Prop :=
  ∀ rest, Stops rest → reader ((form value).encode ++ rest) =
    (within levels (depth (form value)) value).map (·, rest)

/-! ## Arrays -/

theorem ofChars_writeItems (item : Json) (items : List Json) :
    Bytes.ofChars (writeItems (item :: items)) =
      0x2c :: (item.encode ++ Bytes.ofChars (writeItems items)) := by
  rw [writeItems, Bytes.ofChars_append]
  rfl

theorem stops_writeItems (items : List Json) (rest : Bytes) :
    Stops (Bytes.ofChars (writeItems items) ++ rest) := by
  cases items <;> exact stops_cons (by decide) _

theorem length_lt_writeItems (items : List Json) :
    items.length < (Bytes.ofChars (writeItems items)).length := by
  induction items with
  | nil => decide
  | cons item items ih =>
      rw [ofChars_writeItems, List.length_cons, List.length_cons, List.length_append]
      omega

theorem readItems_end (item : Reader Json) (turns : Nat) (found : List Json) (rest : Bytes) :
    readItems item (turns + 1) found (0x5d :: rest) = .ok (found.reverse, rest) := by
  rw [readItems, skipBlank_cons (by decide)]
  rfl

/-- What stands before the next item or member. -/
def comma (found : List α) : Bytes := if found.isEmpty then [] else [0x2c]

theorem comma_cons (first : α) (found : List α) : comma (first :: found) = [0x2c] := rfl

theorem readItems_step {octets : Bytes} (h : Opens octets) (item : Reader Json) (turns : Nat)
    (found : List Json) :
    readItems item (turns + 1) found (comma found ++ octets) =
      (item octets).bind fun (value, rest) => readItems item turns (value :: found) rest := by
  obtain ⟨b, bytes, rfl, hblank, hclose⟩ := h
  cases found with
  | nil =>
      rw [comma, List.isEmpty_nil, if_pos rfl, List.nil_append, readItems, skipBlank_cons hblank]
      simp only [hclose, if_false, List.isEmpty_nil, if_true]
      cases item (b :: bytes) <;> rfl
  | cons value found =>
      have hcomma : (0x2c : UInt8) ≠ 0x5d := by decide
      rw [comma_cons, List.singleton_append, readItems, skipBlank_cons (by decide)]
      simp only [skipBlank_cons hblank, hclose, hcomma, List.isEmpty_cons, Bool.false_eq_true,
        if_true, if_false]
      cases item (b :: bytes) <;> rfl

section Items

variable {item : Reader Json} {items : List Json} {outcome : Json → Except Fault Json}

/-- An item comes to its outcome before the items behind it are read. -/
theorem readItems_item {octets behind : Bytes} {first : Except Fault Json} (hopens : Opens octets)
    (h : Gives item octets first) (hbehind : Stops behind) (turns : Nat) (found : List Json) :
    readItems item (turns + 1) found (comma found ++ (octets ++ behind)) =
      first.bind fun value => readItems item turns (value :: found) behind := by
  rw [readItems_step (hopens.append behind), h behind hbehind]
  cases first <;> rfl

/-- The items behind the first come to their outcomes one after the other. -/
theorem readItems_writeItems
    (hitems : ∀ value ∈ items, Opens value.encode ∧ Gives item value.encode (outcome value))
    {turns : Nat} (hturns : items.length < turns) (first : Json) (found : List Json)
    (rest : Bytes) :
    readItems item turns (first :: found) (Bytes.ofChars (writeItems items) ++ rest) =
      (items.mapM outcome).map fun values => ((first :: found).reverse ++ values, rest) := by
  induction items generalizing turns first found with
  | nil =>
      obtain ⟨turns, rfl⟩ := Nat.exists_eq_add_of_lt hturns
      rw [List.length_nil, Nat.zero_add, List.mapM_nil]
      refine (readItems_end item turns (first :: found) rest).trans ?_
      simp [Except.map, pure, Except.pure]
  | cons value items ih =>
      obtain ⟨turns, rfl⟩ := Nat.exists_eq_add_of_lt hturns
      obtain ⟨hopens, hgives⟩ := hitems value List.mem_cons_self
      have hmore : items.length < items.length + 1 + turns := by omega
      have hbytes : Bytes.ofChars (writeItems (value :: items)) ++ rest =
          comma (first :: found) ++
            (value.encode ++ (Bytes.ofChars (writeItems items) ++ rest)) := by
        rw [ofChars_writeItems, List.cons_append, List.append_assoc]
        rfl
      rw [hbytes, List.length_cons, readItems_item hopens hgives (stops_writeItems items rest),
        mapM_cons_eq]
      cases outcome value with
      | error fault => rfl
      | ok second =>
          refine (ih (fun value hm => hitems value (List.mem_cons_of_mem _ hm)) hmore second
            (first :: found)).trans ?_
          rw [List.reverse_cons]
          cases items.mapM outcome with
          | error fault => rfl
          | ok values => simp [Except.map, Except.bind]

theorem readItems_array
    (hitems : ∀ value ∈ items, Opens value.encode ∧ Gives item value.encode (outcome value))
    (rest : Bytes) :
    ∃ bytes, (Json.array items).encode = 0x5b :: bytes ∧
      readItems item ((bytes ++ rest).length + 1) [] (bytes ++ rest) =
        (items.mapM outcome).map (·, rest) := by
  cases items with
  | nil => exact ⟨[0x5d], rfl, readItems_end item _ [] rest⟩
  | cons value items =>
      refine ⟨value.encode ++ Bytes.ofChars (writeItems items), ?_, ?_⟩
      · rw [encode, write, Bytes.ofChars_append]
        rfl
      · obtain ⟨hopens, hgives⟩ := hitems value List.mem_cons_self
        have hlength := length_lt_writeItems items
        have hturns : items.length <
            (value.encode ++ (Bytes.ofChars (writeItems items) ++ rest)).length := by
          simp only [List.length_append]
          omega
        have hitem := readItems_item hopens hgives (stops_writeItems items rest)
          (value.encode ++ (Bytes.ofChars (writeItems items) ++ rest)).length []
        rw [List.append_assoc]
        refine hitem.trans ?_
        rw [mapM_cons_eq]
        cases outcome value with
        | error fault => rfl
        | ok first =>
            refine (readItems_writeItems (fun value hm => hitems value (List.mem_cons_of_mem _ hm))
              hturns first [] rest).trans ?_
            cases items.mapM outcome <;> rfl

end Items

/-! ## Objects -/

theorem readName_end (first : Bool) (rest : Bytes) :
    readName first (0x7d :: rest) = .ok (none, rest) := by
  rw [readName, skipBlank_cons (by decide)]
  rfl

theorem readName_comma (found : List (String × α)) (name : String) (rest : Bytes) :
    readName found.isEmpty (comma found ++ (Bytes.ofChars (writeText name) ++ rest)) =
      .ok (some name, rest) := by
  obtain ⟨bytes, hbytes, hread⟩ := readString_writeText name rest
  have hquote : isBlank 0x22 = false := rfl
  rw [hbytes]
  cases found with
  | nil =>
      rw [comma, List.isEmpty_nil, if_pos rfl, List.nil_append, List.cons_append, readName,
        skipBlank_cons hquote]
      simp [hread, Except.map]
  | cons member found =>
      rw [comma_cons, List.singleton_append, List.cons_append, readName, skipBlank_cons (by decide)]
      simp [skipBlank_cons hquote, hread, Except.map]

variable {levels : Nat} {item : Reader α} {form : α → Json} {outcome : α → Except Fault α}

/-- The members as they are written. -/
def formed (form : α → Json) (members : Entries α) : JsonObject :=
  members.map fun member => (member.1, form member.2)

theorem formed_id (members : JsonObject) : formed id members = members :=
  List.map_id' members

/-- The members with what their values come to. -/
def eachValue (outcome : α → Except Fault β) (members : Entries α) :
    Except Fault (List (String × β)) :=
  members.mapM fun member => (outcome member.2).map (member.1, ·)

theorem eachValue_cons (outcome : α → Except Fault β) (name : String) (value : α)
    (members : Entries α) :
    eachValue outcome ((name, value) :: members) =
      (outcome value).bind fun first => (eachValue outcome members).map ((name, first) :: ·) := by
  rw [eachValue, mapM_cons_eq]
  cases outcome value <;> rfl

theorem ofChars_writeMembers (name : String) (value : Json) (members : JsonObject) :
    Bytes.ofChars (writeMembers ((name, value) :: members)) =
      0x2c :: (Bytes.ofChars (writeText name) ++
        0x3a :: (value.encode ++ Bytes.ofChars (writeMembers members))) := by
  rw [writeMembers, Bytes.ofChars_append, Bytes.ofChars_append, List.append_assoc]
  rfl

theorem stops_writeMembers (members : JsonObject) (rest : Bytes) :
    Stops (Bytes.ofChars (writeMembers members) ++ rest) := by
  rcases members with _ | ⟨member, members⟩ <;> exact stops_cons (by decide) _

theorem length_lt_writeMembers (members : JsonObject) :
    members.length < (Bytes.ofChars (writeMembers members)).length := by
  induction members with
  | nil => decide
  | cons member members ih =>
      obtain ⟨name, value⟩ := member
      rw [ofChars_writeMembers]
      simp only [List.length_append, List.length_cons]
      omega

theorem readMembers_end (turns : Nat) (found : List (String × α)) (rest : Bytes) :
    readMembers item (turns + 1) found (0x7d :: rest) = .ok (found.reverse, rest) := by
  rw [readMembers, readName_end]

theorem readColon_cons (bytes : Bytes) : readColon (0x3a :: bytes) = .ok bytes := by
  rw [readColon, skipBlank_cons (by decide)]
  rfl

theorem readMembers_step {name : String} {found : List (String × α)} {bytes rest : Bytes}
    (hname : readName found.isEmpty bytes = .ok (some name, 0x3a :: rest)) (turns : Nat) :
    readMembers item (turns + 1) found bytes =
      (item rest).bind fun (value, rest) =>
        readMembers item turns ((name, value) :: found) rest := by
  rw [readMembers, hname]
  simp only [readColon_cons]
  cases item rest <;> rfl

/-- A member comes to the outcome of its value before the members behind it are read. -/
theorem readMembers_member {octets behind : Bytes} {first : Except Fault α}
    (h : Gives item octets first) (hbehind : Stops behind) (name : String) (turns : Nat)
    (found : List (String × α)) :
    readMembers item (turns + 1) found
        (comma found ++ (Bytes.ofChars (writeText name) ++ 0x3a :: (octets ++ behind))) =
      first.bind fun value => readMembers item turns ((name, value) :: found) behind := by
  rw [readMembers_step (readName_comma found name _), h behind hbehind]
  cases first <;> rfl

/-- The members behind the first come to their outcomes one after the other. -/
theorem readMembers_writeMembers {members : Entries α}
    (hmembers : ∀ member ∈ members, Gives item (form member.2).encode (outcome member.2))
    {turns : Nat} (hturns : members.length < turns) (first : String × α)
    (found : List (String × α)) (rest : Bytes) :
    readMembers item turns (first :: found)
        (Bytes.ofChars (writeMembers (formed form members)) ++ rest) =
      (eachValue outcome members).map fun read => ((first :: found).reverse ++ read, rest) := by
  induction members generalizing turns first found with
  | nil =>
      obtain ⟨turns, rfl⟩ := Nat.exists_eq_add_of_lt hturns
      rw [List.length_nil, Nat.zero_add, eachValue, List.mapM_nil]
      refine (readMembers_end turns (first :: found) rest).trans ?_
      simp [Except.map, pure, Except.pure]
  | cons member members ih =>
      obtain ⟨name, value⟩ := member
      obtain ⟨turns, rfl⟩ := Nat.exists_eq_add_of_lt hturns
      have hmore : members.length < members.length + 1 + turns := by omega
      have hbytes : Bytes.ofChars (writeMembers (formed form ((name, value) :: members))) ++ rest =
          comma (first :: found) ++ (Bytes.ofChars (writeText name) ++ 0x3a ::
            ((form value).encode ++
              (Bytes.ofChars (writeMembers (formed form members)) ++ rest))) := by
        rw [formed, List.map_cons, ofChars_writeMembers, comma_cons]
        simp [formed]
      rw [hbytes, List.length_cons, readMembers_member (hmembers _ List.mem_cons_self)
        (stops_writeMembers (formed form members) rest), eachValue_cons]
      cases outcome value with
      | error fault => rfl
      | ok second =>
          refine (ih (fun member hm => hmembers member (List.mem_cons_of_mem _ hm)) hmore
            (name, second) (first :: found)).trans ?_
          rw [List.reverse_cons]
          cases eachValue outcome members with
          | error fault => rfl
          | ok read => simp [Except.map, Except.bind]

theorem readMembers_object {members : Entries α}
    (hmembers : ∀ member ∈ members, Gives item (form member.2).encode (outcome member.2))
    (rest : Bytes) :
    ∃ bytes, (Json.object (formed form members)).encode = 0x7b :: bytes ∧
      readMembers item ((bytes ++ rest).length + 1) [] (bytes ++ rest) =
        (eachValue outcome members).map (·, rest) := by
  rcases members with _ | ⟨⟨name, value⟩, members⟩
  · exact ⟨[0x7d], rfl, readMembers_end _ [] rest⟩
  · let behind := Bytes.ofChars (writeMembers (formed form members))
    refine ⟨Bytes.ofChars (writeText name) ++ 0x3a :: ((form value).encode ++ behind), ?_, ?_⟩
    · rw [encode, formed, List.map_cons, write, Bytes.ofChars_append, Bytes.ofChars_append,
        List.append_assoc]
      rfl
    · have hlength := length_lt_writeMembers (formed form members)
      have hbytes : Bytes.ofChars (writeText name) ++ 0x3a :: ((form value).encode ++ behind) ++
          rest = Bytes.ofChars (writeText name) ++
            0x3a :: ((form value).encode ++ (behind ++ rest)) := by
        simp
      have hturns : members.length < (Bytes.ofChars (writeText name) ++
          0x3a :: ((form value).encode ++ (behind ++ rest))).length := by
        rw [formed, List.length_map] at hlength
        simp only [List.length_append, List.length_cons, behind, formed]
        omega
      have hmember := readMembers_member (hmembers _ List.mem_cons_self)
        (stops_writeMembers (formed form members) rest) name (Bytes.ofChars (writeText name) ++
          0x3a :: ((form value).encode ++ (behind ++ rest))).length []
      rw [hbytes]
      refine hmember.trans ?_
      rw [eachValue_cons]
      cases outcome value with
      | error fault => rfl
      | ok first =>
          refine (readMembers_writeMembers
            (fun member hm => hmembers member (List.mem_cons_of_mem _ hm)) hturns (name, first) []
            rest).trans ?_
          cases eachValue outcome members <;> rfl

/-! ## Values -/

theorem readValue_array (depth : Nat) (bytes : Bytes) :
    readValue (depth + 1) (0x5b :: bytes) =
      (readItems (readValue depth) (bytes.length + 1) [] bytes).map fun (items, rest) =>
        (Json.array items, rest) := by
  rw [readValue.eq_def]
  dsimp only
  rw [skipBlank_cons (by decide)]
  rfl

theorem readValue_object (depth : Nat) (bytes : Bytes) :
    readValue (depth + 1) (0x7b :: bytes) =
      (readMembers (readValue depth) (bytes.length + 1) [] bytes).map fun (members, rest) =>
        (Json.object (Entries.ofList members), rest) := by
  rw [readValue.eq_def]
  dsimp only
  rw [skipBlank_cons (by decide)]
  rfl

/-- No array or object is read where none is allowed. -/
theorem readValue_zero {b : UInt8} (h : b = 0x5b ∨ b = 0x7b) (bytes : Bytes) :
    readValue 0 (b :: bytes) = .error .malformed := by
  rw [readValue.eq_def]
  dsimp only
  rcases h with rfl | rfl
  · rw [skipBlank_cons (by decide)]
    rfl
  · rw [skipBlank_cons (by decide)]
    rfl

theorem readValue_scalar {b : UInt8} (hblank : isBlank b = false) (hitems : b ≠ 0x5b)
    (hmembers : b ≠ 0x7b) (depth : Nat) (bytes : Bytes) :
    readValue depth (b :: bytes) = readScalar b bytes := by
  rw [readValue.eq_def]
  dsimp only
  rw [skipBlank_cons hblank]
  simp [hitems, hmembers]

theorem readValue_string (depth : Nat) (bytes : Bytes) :
    readValue depth (0x22 :: bytes) =
      (readString bytes).map fun found => (Json.string found.1, found.2) := by
  rw [readValue_scalar rfl (by decide) (by decide)]
  rfl

theorem gives_string (text : String) (levels : Nat) :
    Gives (readValue levels) (Json.string text).encode (.ok (.string text)) := by
  intro rest _
  obtain ⟨bytes, hbytes, hread⟩ := readString_writeText text rest
  have hencode : (Json.string text).encode = 0x22 :: bytes := hbytes
  rw [hencode, List.cons_append, readValue_string, hread]
  rfl

/-- An array comes to its items, or to the first fault among them. -/
theorem Gives.array (outcome : Json → Except Fault Json) {items : List Json}
    (h : ∀ value ∈ items,
      Opens value.encode ∧ Gives (readValue levels) value.encode (outcome value)) :
    Gives (readValue (levels + 1)) (Json.array items).encode
      ((items.mapM outcome).map Json.array) := by
  intro rest _
  obtain ⟨bytes, hbytes, hread⟩ := readItems_array h rest
  rw [hbytes, List.cons_append, readValue_array, hread]
  cases items.mapM outcome <;> rfl

/-- An object comes to its members by their names. -/
theorem Gives.object (outcome : Json → Except Fault Json) {members : JsonObject}
    (h : ∀ member ∈ members, Gives (readValue levels) member.2.encode (outcome member.2)) :
    Gives (readValue (levels + 1)) (Json.object members).encode
      ((eachValue outcome members).map fun read => .object (Entries.ofList read)) := by
  intro rest _
  have hmembers : ∀ member ∈ members,
      Gives (readValue levels) (id member.2).encode (outcome member.2) := h
  obtain ⟨bytes, hbytes, hread⟩ := readMembers_object hmembers rest
  rw [formed_id] at hbytes
  rw [hbytes, List.cons_append, readValue_object, hread]
  cases eachValue outcome members <;> rfl

theorem readObject_cons (item : Reader α) (bytes : Bytes) :
    readObject item (0x7b :: bytes) =
      (readMembers item (bytes.length + 1) [] bytes).map fun (members, rest) =>
        (Entries.ofList members, rest) := by
  rw [readObject, skipBlank_cons (by decide)]
  rfl

theorem Gives.readObject (outcome : α → Except Fault α) {members : Entries α}
    (h : ∀ member ∈ members, Gives item (form member.2).encode (outcome member.2)) :
    Gives (Json.readObject item) (Json.object (formed form members)).encode
      ((eachValue outcome members).map Entries.ofList) := by
  intro rest _
  obtain ⟨bytes, hbytes, hread⟩ := readMembers_object h rest
  rw [hbytes, List.cons_append, readObject_cons, hread]
  cases eachValue outcome members <;> rfl

theorem mapM_within (levels : Nat) (items : List Json) :
    (items.mapM fun value => within levels (depth value) value) =
      within levels (depthItems items) items := by
  induction items with
  | nil => exact (within_of_le (Nat.zero_le levels) []).symm
  | cons value items ih =>
      rw [mapM_cons_eq, depthItems]
      refine within_bind ?_
      rw [ih, map_within]

theorem eachValue_within (levels : Nat) (form : α → Json) (members : Entries α) :
    eachValue (fun value => within levels (depth (form value)) value) members =
      within levels (depthMembers (formed form members)) members := by
  induction members with
  | nil => exact (within_of_le (Nat.zero_le levels) []).symm
  | cons member members ih =>
      obtain ⟨name, value⟩ := member
      rw [eachValue_cons, formed, List.map_cons, depthMembers]
      refine within_bind ?_
      rw [ih, map_within]
      rfl

/-- Where no level is left, arrays and objects are refused. -/
theorem reads_zero {value : Json} (h : ∃ b bytes, value.encode = b :: bytes ∧ (b = 0x5b ∨ b = 0x7b))
    (hdepth : 0 < depth value) : Reads 0 (readValue 0) id value := by
  intro rest _
  obtain ⟨b, bytes, hbytes, hb⟩ := h
  rw [id, hbytes, List.cons_append, readValue_zero hb, within_of_lt hdepth]
  rfl

/-- An exact value is read back by every reader that goes as deep as it, and refused by
every other. -/
theorem Exact.reads {value : Json} (h : Exact value) (levels : Nat) :
    Reads levels (readValue levels) id value := by
  induction h generalizing levels with
  | null => exact fun rest _ => readValue_scalar rfl (by decide) (by decide) levels _
  | bool value =>
      cases value with
      | false => exact fun rest _ => readValue_scalar rfl (by decide) (by decide) levels _
      | true => exact fun rest _ => readValue_scalar rfl (by decide) (by decide) levels _
  | @int n hlow hhigh =>
      intro rest hrest
      obtain ⟨b, bytes, hbytes, hfirst, hread⟩ := readScalar_writeInt hlow hhigh
      have hencode : (id (Json.number (.int n))).encode = b :: bytes := hbytes
      rw [hencode, List.cons_append]
      rcases hfirst with rfl | hdigit
      · rw [readValue_scalar rfl (by decide) (by decide), hread rest hrest]
        rfl
      · rw [readValue_scalar (isBlank_of_isDigit hdigit) (ne_of_isDigit hdigit rfl)
          (ne_of_isDigit hdigit rfl), hread rest hrest]
        rfl
  | string text => exact gives_string text levels
  | @array items hitems ih =>
      cases levels with
      | zero =>
          refine reads_zero ?_ (Nat.succ_pos _)
          cases items <;> exact ⟨_, _, rfl, .inl rfl⟩
      | succ levels =>
          have hgives := Gives.array (fun value => within levels (depth value) value)
            fun value hm => ⟨(hitems value hm).opens, ih value hm levels⟩
          rw [mapM_within, map_within, ← within_succ] at hgives
          exact hgives
  | @object members hordered _ ih =>
      cases levels with
      | zero =>
          refine reads_zero ?_ (Nat.succ_pos _)
          rcases members with _ | ⟨member, members⟩ <;> exact ⟨_, _, rfl, .inr rfl⟩
      | succ levels =>
          have hgives := Gives.object (fun value => within levels (depth value) value)
            fun member hm => ih member hm levels
          have hwithin := eachValue_within levels id members
          simp only [formed_id, id_eq] at hwithin
          rw [hwithin, map_within, Entries.ofList_eq_self hordered, ← within_succ] at hgives
          exact hgives

/-! ## Whole texts -/

theorem reads_readObject {members : Entries α} (hordered : Entries.Ordered members)
    (hmembers : ∀ member ∈ members, Reads levels item form member.2) :
    Reads (levels + 1) (readObject item) (fun members => .object (formed form members))
      members := by
  have hgives :=
    Gives.readObject (fun value => within levels (depth (form value)) value) hmembers
  rw [eachValue_within, map_within, Entries.ofList_eq_self hordered, ← within_succ] at hgives
  exact hgives

theorem Reads.readAll_eq {value : α} (h : Reads levels item form value) :
    readAll item (form value).encode = within levels (depth (form value)) value := by
  have hread := h [] stops_nil
  rw [List.append_nil] at hread
  rw [readAll, hread]
  by_cases hdeep : depth (form value) ≤ levels
  · rw [within_of_le hdeep]
    rfl
  · rw [within_of_lt (Nat.lt_of_not_le hdeep)]
    rfl

theorem Exact.reads_object {members : JsonObject} (h : Exact (.object members))
    (levels : Nat) : Reads (levels + 1) (readObject (readValue levels)) Json.object members := by
  cases h with
  | object hordered hmembers =>
      have hread : ∀ member ∈ members, Reads levels (readValue levels) id member.2 :=
        fun member hm => (hmembers member hm).reads levels
      have hobject := reads_readObject hordered hread
      simpa only [Reads, formed_id] using hobject

/-- An exact object that is not too deep decodes to its members. -/
theorem decodeObject_encode {members : JsonObject} (h : Exact (.object members)) :
    decodeObject (Json.object members).encode =
      within maxDepth (depth (.object members)) members :=
  (h.reads_object _).readAll_eq

/-- The same for an object of objects. -/
theorem decodeObjects_encode {members : Entries JsonObject}
    (h : Exact (.object (formed Json.object members))) :
    decodeObjects (Json.object (formed Json.object members)).encode =
      within maxDepth (depth (.object (formed Json.object members))) members := by
  cases h with
  | object hordered hmembers =>
      have hkeys : Entries.Ordered members := by
        rwa [Entries.Ordered, Entries.keys, formed, List.map_map] at hordered
      have hread : ∀ member ∈ members,
          Reads (maxDepth - 1) (readObject (readValue (maxDepth - 2))) Json.object member.2 := by
        intro member hm
        have hformed : (member.1, Json.object member.2) ∈ formed Json.object members :=
          List.mem_map_of_mem hm
        exact (hmembers _ hformed).reads_object _
      exact (reads_readObject hkeys hread).readAll_eq

end ThingHub.Json
