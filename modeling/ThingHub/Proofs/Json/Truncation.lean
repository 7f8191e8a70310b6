import ThingHub.Proofs.Json.Numerals
import ThingHub.Proofs.Json.RoundTrip

/-! # Values cut short

What is left of a written value when it is cut anywhere before its end is never taken for
another value, nor for something that is no JSON: the reader reports that the text ends. Only a
number may be read to the cut, and then the array or object around it does not end. -/

namespace ThingHub.Json

/-! ## Readers on cut texts -/

variable {α β : Type}

/-- The end of the text is met: as a fault, or right behind what was read. -/
def Starves (result : Except Fault (α × Bytes)) : Prop :=
  result = .error .truncated ∨ ∃ value, result = .ok (value, [])

theorem Starves.map {result : Except Fault (α × Bytes)} (h : Starves result) (f : α → β) :
    Starves (result.map fun (value, rest) => (f value, rest)) := by
  rcases h with rfl | ⟨value, rfl⟩
  · exact .inl rfl
  · exact .inr ⟨f value, rfl⟩

/-- What goes on at the end of the text reports it. -/
theorem Starves.bind {result : Except Fault (α × Bytes)} (h : Starves result)
    {next : α × Bytes → Except Fault β} (hnext : ∀ value, next (value, []) = .error .truncated) :
    result.bind next = .error .truncated := by
  rcases h with rfl | ⟨value, rfl⟩
  · rfl
  · exact hnext value

/-- A reader that takes a text to its end, and misses the rest of it wherever it is cut. -/
structure Takes (item : Reader α) (octets : Bytes) : Prop where
  opens : Opens octets
  whole : ∃ value, Gives item octets (.ok value)
  cut : ∀ front, Bytes.Cuts front octets → Starves (item front)

/-- What a reader finds first in a text, or how it fails. -/
def finds (item : Reader α) (octets : Bytes) : Except Fault α := (item octets).map Prod.fst

theorem Gives.finds_eq {item : Reader α} {octets : Bytes} {outcome : Except Fault α}
    (h : Gives item octets outcome) : finds item octets = outcome := by
  have hend := h [] stops_nil
  rw [List.append_nil] at hend
  rw [finds, hend]
  cases outcome <;> rfl

theorem Takes.exists_finds {item : Reader α} {octets : Bytes} (h : Takes item octets) :
    ∃ value, finds item octets = .ok value := by
  obtain ⟨value, hvalue⟩ := h.whole
  exact ⟨value, hvalue.finds_eq⟩

theorem Takes.gives {item : Reader α} {octets : Bytes} (h : Takes item octets) :
    Gives item octets (finds item octets) := by
  obtain ⟨value, hvalue⟩ := h.whole
  rwa [hvalue.finds_eq]

theorem exists_mapM_ok {outcome : α → Except Fault β} {values : List α}
    (h : ∀ value ∈ values, ∃ read, outcome value = .ok read) :
    ∃ all, values.mapM outcome = .ok all := by
  induction values with
  | nil => exact ⟨[], rfl⟩
  | cons value values ih =>
      obtain ⟨read, hread⟩ := h value List.mem_cons_self
      obtain ⟨all, hall⟩ := ih fun value hm => h value (List.mem_cons_of_mem _ hm)
      refine ⟨read :: all, ?_⟩
      rw [mapM_cons_eq, hread, hall]
      rfl

theorem exists_eachValue_ok (outcome : α → Except Fault β) {members : Entries α}
    (h : ∀ member ∈ members, ∃ read, outcome member.2 = .ok read) :
    ∃ all, eachValue outcome members = .ok all := by
  refine exists_mapM_ok fun member hm => ?_
  obtain ⟨read, hread⟩ := h member hm
  exact ⟨(member.1, read), by rw [hread]; rfl⟩

theorem Stops.of_cuts {front octets : Bytes} (h : Stops octets) (hcut : Bytes.Cuts front octets) :
    Stops front := by
  cases octets with
  | nil => exact absurd hcut (Bytes.not_cuts_nil front)
  | cons b octets =>
      rcases Bytes.cuts_cons_iff.mp hcut with rfl | ⟨left, rfl, -⟩
      · exact stops_nil
      · exact h

theorem Opens.of_cuts {front octets : Bytes} (h : Opens octets) (hcut : Bytes.Cuts front octets)
    (hne : front ≠ []) : Opens front := by
  obtain ⟨b, bytes, rfl, hb⟩ := h
  rcases Bytes.cuts_cons_iff.mp hcut with rfl | ⟨left, rfl, -⟩
  · exact absurd rfl hne
  · exact ⟨b, left, rfl, hb⟩

/-- A cut is met by a reader or by what goes on behind it. -/
theorem Takes.bind_of_cuts {item : Reader α} {octets behind front : Bytes} (h : Takes item octets)
    (hbehind : Stops behind) (hcut : Bytes.Cuts front (octets ++ behind))
    {next : α × Bytes → Except Fault β} (hend : ∀ value, next (value, []) = .error .truncated)
    (hnext : ∀ value left, Bytes.Cuts left behind → next (value, left) = .error .truncated) :
    (item front).bind next = .error .truncated := by
  rcases Bytes.cuts_append_iff.mp hcut with hfirst | ⟨left, rfl, hleft⟩
  · exact (h.cut front hfirst).bind hend
  · obtain ⟨value, hvalue⟩ := h.whole
    rw [hvalue left (hbehind.of_cuts hleft)]
    exact hnext value left hleft

/-! ## Strings -/

theorem readContent_nil (found : Bytes) : readContent found [] = .error .truncated := by
  rw [readContent]

theorem readContent_truncated {bytes : Bytes} (h : readEscape bytes = .error .truncated)
    (found : Bytes) : readContent found (0x5c :: bytes) = .error .truncated := by
  rw [readContent, if_neg (by decide), if_pos rfl]
  split
  · next fault hf =>
      rw [h] at hf
      cases hf
      rfl
  · next octets behind hf =>
      rw [h] at hf
      cases hf

/-- An escape of one letter ends behind its backslash if it is cut. -/
theorem readContent_cuts_escape {front : Bytes} {e : UInt8} (h : Bytes.Cuts front [0x5c, e])
    (found : Bytes) : readContent found front = .error .truncated := by
  rcases Bytes.cuts_cons_iff.mp h with rfl | ⟨left, rfl, hleft⟩
  · exact readContent_nil found
  · rcases Bytes.cuts_cons_iff.mp hleft with rfl | ⟨left, rfl, hnil⟩
    · exact readContent_truncated rfl found
    · exact absurd hnil (Bytes.not_cuts_nil left)

theorem readUnit_short {bytes : Bytes} (h : bytes.length < 4) :
    readUnit bytes = .error .truncated := by
  match bytes with
  | [] => rfl
  | [_] => rfl
  | [_, _] => rfl
  | [_, _, _] => rfl
  | _ :: _ :: _ :: _ :: _ => simp at h; omega

theorem length_lt_of_cuts {front octets : Bytes} (h : Bytes.Cuts front octets) :
    front.length < octets.length :=
  lt_of_le_of_ne h.1.length_le fun heq => h.2 (h.1.eq_of_length heq)

/-- An escape by a number misses digits if it is cut. -/
theorem readContent_cuts_control {front : Bytes} {a b c d : UInt8}
    (h : Bytes.Cuts front [0x5c, 0x75, a, b, c, d]) (found : Bytes) :
    readContent found front = .error .truncated := by
  rcases Bytes.cuts_cons_iff.mp h with rfl | ⟨left, rfl, hleft⟩
  · exact readContent_nil found
  refine readContent_truncated ?_ found
  rcases Bytes.cuts_cons_iff.mp hleft with rfl | ⟨digits, rfl, hdigits⟩
  · rfl
  · have hshort : readUnit digits = .error .truncated := readUnit_short (length_lt_of_cuts hdigits)
    rw [readEscape, if_pos rfl, readCode, hshort]
    rfl

/-- A character that is cut, between its octets or inside its escape, is missed. -/
theorem readContent_cuts_writeChar {c : Char} {front : Bytes}
    (h : Bytes.Cuts front (Bytes.ofChars (writeChar c))) (found : Bytes) :
    readContent found front = .error .truncated := by
  unfold writeChar at h
  split at h
  · exact readContent_cuts_escape h found
  · exact readContent_cuts_escape h found
  · exact readContent_cuts_escape h found
  · exact readContent_cuts_escape h found
  · exact readContent_cuts_escape h found
  · exact readContent_cuts_escape h found
  · exact readContent_cuts_escape h found
  · next hquote hescape _ _ _ _ _ =>
      split at h
      · next hcontrol =>
          rw [Bytes.ofChars_cons, ofChars_control hcontrol] at h
          exact readContent_cuts_control h found
      · next hcontrol =>
          have hplain : ∀ b ∈ front, IsPlain b := by
            intro b hb
            refine isPlain_of_mem_utf8EncodeChar hquote hescape hcontrol ?_
            simpa [Bytes.ofChars] using h.1.subset hb
          have hread := readContent_append_plain hplain found []
          rw [List.append_nil, readContent_nil] at hread
          exact hread

theorem readContent_cuts_flatMap {chars : List Char} {front : Bytes}
    (h : Bytes.Cuts front (Bytes.ofChars (chars.flatMap writeChar) ++ [0x22])) (found : Bytes) :
    readContent found front = .error .truncated := by
  induction chars generalizing front found with
  | nil =>
      rcases Bytes.cuts_cons_iff.mp h with rfl | ⟨left, rfl, hnil⟩
      · exact readContent_nil found
      · exact absurd hnil (Bytes.not_cuts_nil left)
  | cons c chars ih =>
      rw [List.flatMap_cons, Bytes.ofChars_append, List.append_assoc] at h
      rcases Bytes.cuts_append_iff.mp h with hfirst | ⟨left, rfl, hleft⟩
      · exact readContent_cuts_writeChar hfirst found
      · rw [readContent_writeChar]
        exact ih hleft _

/-- A string that is cut does not end. -/
theorem readString_cuts_writeText {text : String} {front : Bytes}
    (h : Bytes.Cuts (0x22 :: front) (Bytes.ofChars (writeText text))) :
    readString front = .error .truncated := by
  have hwritten : Bytes.ofChars (writeText text) =
      0x22 :: (Bytes.ofChars (text.toList.flatMap writeChar) ++ [0x22]) := by
    rw [writeText, List.cons_append, Bytes.ofChars_cons, Bytes.ofChars_append]
    rfl
  rw [hwritten] at h
  rcases Bytes.cuts_cons_iff.mp h with hnil | ⟨left, heq, hleft⟩
  · cases hnil
  · obtain rfl := (List.cons.inj heq).2
    rw [readString, readContent_cuts_flatMap hleft]

/-! ## Numbers -/

theorem readValue_nil (depth : Nat) : readValue depth [] = .error .truncated := by
  rw [readValue.eq_def]
  rfl

theorem readValue_digit {b : UInt8} (h : isDigit b = true) (depth : Nat) (bytes : Bytes) :
    readValue depth (b :: bytes) =
      (readUnsigned false (b :: bytes)).map fun (n, rest) => (Json.number n, rest) := by
  rw [readValue_scalar (isBlank_of_isDigit h) (ne_of_isDigit h rfl) (ne_of_isDigit h rfl),
    readScalar_digit h]

theorem readValue_minus (depth : Nat) (bytes : Bytes) :
    readValue depth (0x2d :: bytes) =
      (readUnsigned true bytes).map fun (n, rest) => (Json.number n, rest) := by
  rw [readValue_scalar rfl (by decide) (by decide), readScalar_minus]

theorem Numeral.Readable.exists_first {n : Numeral} (h : n.Readable) :
    ∃ b bytes, n.octets = b :: bytes ∧ isDigit b = true := by
  obtain ⟨b, more, hwhole⟩ := List.exists_cons_of_ne_nil h.whole.ne_nil
  refine ⟨b, more ++ (n.pointed ++ n.scaled), by rw [octets, hwhole, List.cons_append], ?_⟩
  exact h.whole.isDigit b (hwhole ▸ List.mem_cons_self)

/-- A number is read behind its sign, if it has one. -/
theorem readValue_numeral {n : Numeral} (h : n.Readable) (negative : Bool) (depth : Nat)
    {octets : Bytes} (hne : octets ≠ []) (hfront : octets <+: n.octets) (rest : Bytes) :
    readValue depth (minus negative ++ (octets ++ rest)) =
      (readUnsigned negative (octets ++ rest)).map fun (n, rest) => (Json.number n, rest) := by
  cases negative with
  | true => exact readValue_minus depth _
  | false =>
      obtain ⟨b, bytes, hb, hdigit⟩ := h.exists_first
      obtain ⟨c, more, rfl⟩ := List.exists_cons_of_ne_nil hne
      rw [hb, List.cons_prefix_cons] at hfront
      obtain rfl := hfront.1
      exact readValue_digit hdigit depth _

theorem readValue_sign (negative : Bool) (depth : Nat) {front : Bytes}
    (h : front <+: minus negative) : readValue depth front = .error .truncated := by
  cases negative with
  | true =>
      rcases List.prefix_cons_iff.mp h with rfl | ⟨left, rfl, hleft⟩
      · exact readValue_nil depth
      · obtain rfl := List.prefix_nil.mp hleft
        rw [readValue_minus]
        rfl
  | false =>
      obtain rfl := List.prefix_nil.mp h
      exact readValue_nil depth

/-- A number that is cut is read as a shorter one, or misses a digit. -/
theorem Written.takes {number : JsonNumber} (h : Written number) (depth : Nat) :
    Takes (readValue depth) (Json.number number).encode := by
  obtain ⟨negative, n, hn, hwritten⟩ := h.exists_numeral
  obtain ⟨b, bytes, hb, hdigit⟩ := hn.exists_first
  have hne : n.octets ≠ [] := by rw [hb]; exact List.cons_ne_nil b bytes
  have hencode : (Json.number number).encode = minus negative ++ n.octets := hwritten
  rw [hencode]
  refine ⟨?_, ?_, ?_⟩
  · cases negative with
    | true => exact ⟨_, _, rfl, rfl, by decide⟩
    | false => exact ⟨b, bytes, hb, isBlank_of_isDigit hdigit, ne_of_isDigit hdigit rfl⟩
  · obtain ⟨value, hvalue⟩ := hn.exists_number negative
    refine ⟨.number value, fun rest hrest => ?_⟩
    rw [List.append_assoc, readValue_numeral hn negative depth hne List.prefix_rfl,
      hvalue rest hrest]
    rfl
  · intro front hcut
    rcases Bytes.cuts_append_iff.mp hcut with hsign | ⟨left, rfl, hleft⟩
    · exact .inl (readValue_sign negative depth hsign.1)
    by_cases hempty : left = []
    · subst hempty
      exact .inl (readValue_sign negative depth (by rw [List.append_nil]))
    have hread := readValue_numeral hn negative depth hempty hleft.1 []
    rw [List.append_nil] at hread
    rw [hread]
    refine Starves.map ?_ Json.number
    rcases hn.ends_of_cuts hleft with ⟨shorter, hshorter, rfl⟩ | htruncated
    · obtain ⟨value, hvalue⟩ := hshorter.exists_number negative
      have hend := hvalue [] stops_nil
      rw [List.append_nil] at hend
      exact .inr ⟨value, hend⟩
    · exact .inl (htruncated negative)

/-! ## Arrays -/

section Arrays

variable {item : Reader Json} {items : List Json}

theorem readItems_nil (turns : Nat) (found : List Json) :
    readItems item turns found [] = .error .truncated := by
  cases turns <;> rfl

theorem readItems_comma (turns : Nat) (found : List Json) :
    readItems item turns found (comma found) = .error .truncated := by
  cases turns with
  | zero => rfl
  | succ turns =>
      cases found with
      | nil => rfl
      | cons value found =>
          rw [comma_cons, readItems, skipBlank_cons (by decide)]
          simp [skipBlank]

/-- An item that is cut is missed. -/
theorem readItems_cuts_item {octets behind front : Bytes} (h : Takes item octets)
    (hbehind : Stops behind) (hcut : Bytes.Cuts front (octets ++ behind)) (turns : Nat)
    (found : List Json)
    (hnext : ∀ turns value left, Bytes.Cuts left behind →
      readItems item turns (value :: found) left = .error .truncated) :
    readItems item turns found (comma found ++ front) = .error .truncated := by
  by_cases hempty : front = []
  · rw [hempty, List.append_nil]
    exact readItems_comma turns found
  cases turns with
  | zero => rfl
  | succ turns =>
      rw [readItems_step ((h.opens.append behind).of_cuts hcut hempty)]
      exact h.bind_of_cuts hbehind hcut (fun _ => readItems_nil turns _) (hnext turns)

theorem stops_of_writeItems (items : List Json) : Stops (Bytes.ofChars (writeItems items)) := by
  simpa using stops_writeItems items []

/-- Wherever the items behind the first are cut, the end of the array is missed. -/
theorem readItems_cuts (hitems : ∀ value ∈ items, Takes item value.encode) {front : Bytes}
    (hcut : Bytes.Cuts front (Bytes.ofChars (writeItems items))) (turns : Nat) (first : Json)
    (found : List Json) : readItems item turns (first :: found) front = .error .truncated := by
  induction items generalizing turns first found front with
  | nil =>
      rcases Bytes.cuts_cons_iff.mp hcut with rfl | ⟨left, rfl, hleft⟩
      · exact readItems_nil turns _
      · exact absurd hleft (Bytes.not_cuts_nil left)
  | cons value items ih =>
      rw [ofChars_writeItems] at hcut
      rcases Bytes.cuts_cons_iff.mp hcut with rfl | ⟨left, rfl, hleft⟩
      · exact readItems_nil turns _
      refine readItems_cuts_item (hitems value List.mem_cons_self) (stops_of_writeItems items) hleft
        turns (first :: found) fun turns second behind hbehind => ?_
      exact ih (fun value hm => hitems value (List.mem_cons_of_mem _ hm)) hbehind turns second _

/-- Wherever an array is cut behind its bracket, its end is missed. -/
theorem readItems_cuts_array (hitems : ∀ value ∈ items, Takes item value.encode) :
    ∃ bytes, (Json.array items).encode = 0x5b :: bytes ∧ ∀ front, Bytes.Cuts front bytes →
      ∀ turns, readItems item turns [] front = .error .truncated := by
  cases items with
  | nil =>
      refine ⟨[0x5d], rfl, fun front hcut turns => ?_⟩
      rcases Bytes.cuts_cons_iff.mp hcut with rfl | ⟨left, rfl, hleft⟩
      · exact readItems_nil turns []
      · exact absurd hleft (Bytes.not_cuts_nil left)
  | cons value items =>
      refine ⟨value.encode ++ Bytes.ofChars (writeItems items), ?_, fun front hcut turns => ?_⟩
      · rw [encode, write, Bytes.ofChars_append]
        rfl
      · refine readItems_cuts_item (hitems value List.mem_cons_self) (stops_of_writeItems items)
          hcut turns [] fun turns first behind hbehind => ?_
        exact readItems_cuts (fun value hm => hitems value (List.mem_cons_of_mem _ hm)) hbehind
          turns first []

end Arrays

/-! ## Objects -/

section Objects

variable {item : Reader α} {form : α → Json} {members : Entries α}

theorem readString_of_cuts {name : String} {b : UInt8} {left : Bytes}
    (h : Bytes.Cuts (b :: left) (Bytes.ofChars (writeText name))) :
    b = 0x22 ∧ readString left = .error .truncated := by
  obtain ⟨bytes, hbytes, -⟩ := readString_writeText name []
  have hquote : b = 0x22 := by
    rw [hbytes] at h
    exact (List.cons_prefix_cons.mp h.1).1
  exact ⟨hquote, readString_cuts_writeText (hquote ▸ h)⟩

theorem readName_cuts (found : List (String × α)) {name : String} {front : Bytes}
    (h : Bytes.Cuts front (Bytes.ofChars (writeText name))) :
    readName found.isEmpty (comma found ++ front) = .error .truncated := by
  have hquote : isBlank 0x22 = false := rfl
  cases found with
  | nil =>
      rw [comma, List.isEmpty_nil, if_pos rfl, List.nil_append]
      cases front with
      | nil => rfl
      | cons b left =>
          obtain ⟨rfl, hread⟩ := readString_of_cuts h
          rw [readName, skipBlank_cons hquote]
          simp [hread, Except.map]
  | cons member found =>
      rw [comma_cons, List.singleton_append, readName, skipBlank_cons (by decide)]
      cases front with
      | nil => rfl
      | cons b left =>
          obtain ⟨rfl, hread⟩ := readString_of_cuts h
          simp [skipBlank_cons hquote, hread, Except.map]

theorem readMembers_nil (turns : Nat) (found : List (String × α)) :
    readMembers item turns found [] = .error .truncated := by
  cases turns <;> rfl

theorem readMembers_step_truncated {turns : Nat} {found : List (String × α)} {bytes : Bytes}
    (h : readName found.isEmpty bytes = .error .truncated) :
    readMembers item turns found bytes = .error .truncated := by
  cases turns with
  | zero => rfl
  | succ turns => rw [readMembers, h]

/-- A member that is cut, in its name or in its value, is missed. -/
theorem readMembers_cuts_member {octets behind front : Bytes} (h : Takes item octets)
    (hbehind : Stops behind) {name : String}
    (hcut : Bytes.Cuts front (Bytes.ofChars (writeText name) ++ 0x3a :: (octets ++ behind)))
    (turns : Nat) (found : List (String × α))
    (hnext : ∀ turns value left, Bytes.Cuts left behind →
      readMembers item turns ((name, value) :: found) left = .error .truncated) :
    readMembers item turns found (comma found ++ front) = .error .truncated := by
  rcases Bytes.cuts_append_iff.mp hcut with hname | ⟨left, rfl, hleft⟩
  · exact readMembers_step_truncated (readName_cuts found hname)
  cases turns with
  | zero => rfl
  | succ turns =>
      have hname := readName_comma found name left
      rcases Bytes.cuts_cons_iff.mp hleft with rfl | ⟨value, rfl, hvalue⟩
      · rw [readMembers, hname]
        rfl
      · rw [readMembers_step hname]
        exact h.bind_of_cuts hbehind hvalue (fun _ => readMembers_nil turns _) (hnext turns)

theorem stops_of_writeMembers (members : JsonObject) :
    Stops (Bytes.ofChars (writeMembers members)) := by
  simpa using stops_writeMembers members []

/-- Wherever the members behind the first are cut, the end of the object is missed. -/
theorem readMembers_cuts (hmembers : ∀ member ∈ members, Takes item (form member.2).encode)
    {front : Bytes} (hcut : Bytes.Cuts front (Bytes.ofChars (writeMembers (formed form members))))
    (turns : Nat) (first : String × α) (found : List (String × α)) :
    readMembers item turns (first :: found) front = .error .truncated := by
  induction members generalizing turns first found front with
  | nil =>
      rcases Bytes.cuts_cons_iff.mp hcut with rfl | ⟨left, rfl, hleft⟩
      · exact readMembers_nil turns _
      · exact absurd hleft (Bytes.not_cuts_nil left)
  | cons member members ih =>
      rw [formed, List.map_cons, ofChars_writeMembers] at hcut
      rcases Bytes.cuts_cons_iff.mp hcut with rfl | ⟨left, rfl, hleft⟩
      · exact readMembers_nil turns _
      refine readMembers_cuts_member (hmembers member List.mem_cons_self) (stops_of_writeMembers _)
        hleft turns (first :: found) fun turns value behind hbehind => ?_
      exact ih (fun member hm => hmembers member (List.mem_cons_of_mem _ hm)) hbehind turns
        (member.1, value) _

/-- Wherever an object is cut behind its brace, its end is missed. -/
theorem readMembers_cuts_object (hmembers : ∀ member ∈ members, Takes item (form member.2).encode) :
    ∃ bytes, (Json.object (formed form members)).encode = 0x7b :: bytes ∧
      ∀ front, Bytes.Cuts front bytes → ∀ turns,
        readMembers item turns [] front = .error .truncated := by
  cases members with
  | nil =>
      refine ⟨[0x7d], rfl, fun front hcut turns => ?_⟩
      rcases Bytes.cuts_cons_iff.mp hcut with rfl | ⟨left, rfl, hleft⟩
      · exact readMembers_nil turns []
      · exact absurd hleft (Bytes.not_cuts_nil left)
  | cons member members =>
      refine ⟨Bytes.ofChars (writeText member.1) ++ 0x3a :: ((form member.2).encode ++
        Bytes.ofChars (writeMembers (formed form members))), ?_, fun front hcut turns => ?_⟩
      · rw [encode, formed, List.map_cons, write, Bytes.ofChars_append, Bytes.ofChars_append,
          List.append_assoc]
        rfl
      · refine readMembers_cuts_member (hmembers member List.mem_cons_self)
          (stops_of_writeMembers _) hcut turns [] fun turns value behind hbehind => ?_
        exact readMembers_cuts (fun member hm => hmembers member (List.mem_cons_of_mem _ hm))
          hbehind turns (member.1, value) []

end Objects

/-! ## Values -/

/-- Values whose numbers are such as are written. -/
inductive Writable : Json → Prop
  | null : Writable .null
  | bool (value : Bool) : Writable (.bool value)
  | number {number : JsonNumber} : Written number → Writable (.number number)
  | string (text : String) : Writable (.string text)
  | array {items : List Json} : (∀ item ∈ items, Writable item) → Writable (.array items)
  | object {members : JsonObject} : (∀ member ∈ members, Writable member.2) →
      Writable (.object members)

theorem depth_le_of_mem_items {items : List Json} {item : Json} (h : item ∈ items) :
    depth item ≤ depthItems items := by
  induction items with
  | nil => exact absurd h List.not_mem_nil
  | cons first items ih =>
      rw [depthItems]
      rcases List.mem_cons.mp h with rfl | h
      · exact Nat.le_max_left _ _
      · exact Nat.le_trans (ih h) (Nat.le_max_right _ _)

theorem depth_le_of_mem_members {members : JsonObject} {member : String × Json}
    (h : member ∈ members) : depth member.2 ≤ depthMembers members := by
  induction members with
  | nil => exact absurd h List.not_mem_nil
  | cons first members ih =>
      obtain ⟨name, value⟩ := first
      rw [depthMembers]
      rcases List.mem_cons.mp h with rfl | h
      · exact Nat.le_max_left _ _
      · exact Nat.le_trans (ih h) (Nat.le_max_right _ _)

/-- The literals are missed in part wherever they are cut. -/
theorem expect_cuts {es front : Bytes} (h : Bytes.Cuts front es) :
    expect es front = .error .truncated := by
  induction es generalizing front with
  | nil => exact absurd h (Bytes.not_cuts_nil front)
  | cons e es ih =>
      rcases Bytes.cuts_cons_iff.mp h with rfl | ⟨left, rfl, hleft⟩
      · rfl
      · rw [expect, if_pos rfl]
        exact ih hleft

theorem expect_append (es rest : Bytes) : expect es (es ++ rest) = .ok rest := by
  induction es with
  | nil => rfl
  | cons e es ih => rwa [List.cons_append, expect, if_pos rfl]

/-- A literal is told by its first octet. -/
theorem takes_literal {levels : Nat} {b : UInt8} {es : Bytes} {value : Json}
    (hblank : isBlank b = false) (hitems : b ≠ 0x5b) (hmembers : b ≠ 0x7b) (hclose : b ≠ 0x5d)
    (hread : ∀ rest, readScalar b rest = (expect es rest).map (value, ·)) :
    Takes (readValue levels) (b :: es) := by
  have hscalar := readValue_scalar hblank hitems hmembers levels
  refine ⟨⟨b, es, rfl, hblank, hclose⟩, ?_, ?_⟩
  · refine ⟨value, fun rest _ => ?_⟩
    rw [List.cons_append, hscalar, hread, expect_append]
    rfl
  · intro front hcut
    rcases Bytes.cuts_cons_iff.mp hcut with rfl | ⟨left, rfl, hleft⟩
    · exact .inl (readValue_nil levels)
    · refine .inl ?_
      rw [hscalar, hread, expect_cuts hleft]
      rfl

theorem takes_string (text : String) (levels : Nat) :
    Takes (readValue levels) (Json.string text).encode := by
  refine ⟨⟨_, _, rfl, rfl, by decide⟩, ⟨.string text, gives_string text levels⟩, ?_⟩
  intro front hcut
  cases front with
  | nil => exact .inl (readValue_nil levels)
  | cons b left =>
      obtain ⟨rfl, hstring⟩ := readString_of_cuts hcut
      refine .inl ?_
      rw [readValue_string, hstring]
      rfl

theorem takes_array {items : List Json} {levels : Nat}
    (hitems : ∀ value ∈ items, Takes (readValue levels) value.encode) :
    Takes (readValue (levels + 1)) (Json.array items).encode := by
  obtain ⟨bytes, hbytes, hcuts⟩ := readItems_cuts_array hitems
  refine ⟨⟨_, _, hbytes, rfl, by decide⟩, ?_, ?_⟩
  · have hwhole := Gives.array (fun value => finds (readValue levels) value.encode)
      fun value hm => ⟨(hitems value hm).opens, (hitems value hm).gives⟩
    obtain ⟨values, hvalues⟩ := exists_mapM_ok fun value hm => (hitems value hm).exists_finds
    rw [hvalues] at hwhole
    exact ⟨.array values, hwhole⟩
  · intro front hcut
    rw [hbytes] at hcut
    rcases Bytes.cuts_cons_iff.mp hcut with rfl | ⟨left, rfl, hleft⟩
    · exact .inl (readValue_nil _)
    · refine .inl ?_
      rw [readValue_array, hcuts left hleft]
      rfl

theorem takes_object {members : JsonObject} {levels : Nat}
    (hmembers : ∀ member ∈ members, Takes (readValue levels) member.2.encode) :
    Takes (readValue (levels + 1)) (Json.object members).encode := by
  have htakes : ∀ member ∈ members, Takes (readValue levels) (id member.2).encode := hmembers
  obtain ⟨bytes, hbytes, hcuts⟩ := readMembers_cuts_object htakes
  rw [formed_id] at hbytes
  refine ⟨⟨_, _, hbytes, rfl, by decide⟩, ?_, ?_⟩
  · let outcome := fun value : Json => finds (readValue levels) value.encode
    have hwhole := Gives.object outcome fun member hm => (hmembers member hm).gives
    obtain ⟨values, hvalues⟩ :=
      exists_eachValue_ok outcome fun member hm => (hmembers member hm).exists_finds
    rw [hvalues] at hwhole
    exact ⟨.object (Entries.ofList values), hwhole⟩
  · intro front hcut
    rw [hbytes] at hcut
    rcases Bytes.cuts_cons_iff.mp hcut with rfl | ⟨left, rfl, hleft⟩
    · exact .inl (readValue_nil _)
    · refine .inl ?_
      rw [readValue_object, hcuts left hleft]
      rfl

/-- A value is taken by every reader that goes as deep as it. -/
theorem Writable.takes {value : Json} (h : Writable value) {levels : Nat}
    (hdepth : depth value ≤ levels) : Takes (readValue levels) value.encode := by
  induction h generalizing levels with
  | null => exact takes_literal rfl (by decide) (by decide) (by decide) fun _ => rfl
  | bool value =>
      cases value with
      | false => exact takes_literal rfl (by decide) (by decide) (by decide) fun _ => rfl
      | true => exact takes_literal rfl (by decide) (by decide) (by decide) fun _ => rfl
  | number hnumber => exact hnumber.takes levels
  | string text => exact takes_string text levels
  | @array items _ ih =>
      obtain ⟨inner, rfl⟩ := Nat.exists_eq_add_one_of_ne_zero (Nat.ne_zero_of_lt hdepth)
      refine takes_array fun value hm => ih value hm ?_
      exact (depth_le_of_mem_items hm).trans (Nat.le_of_succ_le_succ hdepth)
  | @object members _ ih =>
      obtain ⟨inner, rfl⟩ := Nat.exists_eq_add_one_of_ne_zero (Nat.ne_zero_of_lt hdepth)
      refine takes_object fun member hm => ih member hm ?_
      exact (depth_le_of_mem_members hm).trans (Nat.le_of_succ_le_succ hdepth)

/-! ## Whole texts -/

variable {item : Reader α} {form : α → Json} {members : Entries α}

/-- An object that is cut is missed, wherever that is. -/
theorem readObject_cuts (hmembers : ∀ member ∈ members, Takes item (form member.2).encode)
    {front : Bytes} (hcut : Bytes.Cuts front (Json.object (formed form members)).encode) :
    readObject item front = .error .truncated := by
  obtain ⟨bytes, hbytes, hcuts⟩ := readMembers_cuts_object hmembers
  rw [hbytes] at hcut
  rcases Bytes.cuts_cons_iff.mp hcut with rfl | ⟨left, rfl, hleft⟩
  · rfl
  · rw [readObject_cons, hcuts left hleft]
    rfl

theorem takes_readObject (hmembers : ∀ member ∈ members, Takes item (form member.2).encode) :
    Takes (readObject item) (Json.object (formed form members)).encode := by
  obtain ⟨bytes, hbytes, -⟩ := readMembers_cuts_object hmembers
  refine ⟨⟨_, _, hbytes, rfl, by decide⟩, ?_,
    fun front hcut => .inl (readObject_cuts hmembers hcut)⟩
  let outcome := fun value : α => finds item (form value).encode
  have hwhole := Gives.readObject outcome fun member hm => (hmembers member hm).gives
  obtain ⟨values, hvalues⟩ :=
    exists_eachValue_ok outcome fun member hm => (hmembers member hm).exists_finds
  rw [hvalues] at hwhole
  exact ⟨Entries.ofList values, hwhole⟩

/-- The text of an object decodes as one that ends too early, wherever it is cut. -/
theorem decodeObject_cuts {members : JsonObject} (h : Writable (.object members))
    (hdepth : depth (.object members) ≤ maxDepth) {front : Bytes}
    (hcut : Bytes.Cuts front (Json.object members).encode) :
    decodeObject front = .error .truncated := by
  cases h with
  | object hmembers =>
      have htakes : ∀ member ∈ members, Takes (readValue (maxDepth - 1)) (id member.2).encode :=
        fun member hm => (hmembers member hm).takes
          ((depth_le_of_mem_members hm).trans (Nat.le_of_succ_le_succ hdepth))
      rw [← formed_id members] at hcut
      rw [decodeObject, readAll, readObject_cuts htakes hcut]

/-- The same for an object of objects. -/
theorem decodeObjects_cuts {members : Entries JsonObject}
    (h : Writable (.object (formed Json.object members)))
    (hdepth : depth (.object (formed Json.object members)) ≤ maxDepth) {front : Bytes}
    (hcut : Bytes.Cuts front (Json.object (formed Json.object members)).encode) :
    decodeObjects front = .error .truncated := by
  cases h with
  | object hmembers =>
      have htakes : ∀ member ∈ members,
          Takes (readObject (readValue (maxDepth - 2))) (Json.object member.2).encode := by
        intro member hm
        have hformed : (member.1, Json.object member.2) ∈ formed Json.object members :=
          List.mem_map_of_mem hm
        have hinner : depth (.object member.2) ≤ maxDepth - 1 :=
          (depth_le_of_mem_members hformed).trans (Nat.le_of_succ_le_succ hdepth)
        rw [← formed_id member.2] at hinner ⊢
        cases hmembers _ hformed with
        | object hfields =>
            refine takes_readObject fun field hf => (hfields field hf).takes ?_
            rw [formed_id] at hinner
            exact (depth_le_of_mem_members hf).trans (Nat.le_of_succ_le_succ hinner)
      rw [decodeObjects, readAll, readObject_cuts htakes hcut]

end ThingHub.Json
