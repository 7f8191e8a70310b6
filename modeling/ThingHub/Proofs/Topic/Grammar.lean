import Mathlib.Data.List.Basic
import ThingHub.Proofs.Topic.Thing

/-! # The grammar of topics

Reading a topic strictly takes exactly the texts `things/<id>/<kind>` whose id is one segment,
and tells of any other text the first thing that is wrong with it: its depth, its root, its
kind. Building a topic and reading it back agree but for the ids that are not one segment. -/

namespace ThingHub

/-! ## Segments joined again -/

theorem Topic.not_mem_of_mem_segments {topic part : String} (h : part ∈ segments topic) :
    '/' ∉ part.toList := by
  rcases List.mem_cons.mp h with rfl | h
  · simpa using Text.not_mem_cut_fst '/' topic.toList
  · obtain ⟨chars, hchars, rfl⟩ := List.mem_map.mp h
    simpa using Text.not_mem_cut_snd '/' topic.toList chars hchars

theorem Topic.segments_intercalate {parts : List String} (hne : parts ≠ [])
    (h : ∀ part ∈ parts, '/' ∉ part.toList) : segments ("/".intercalate parts) = parts := by
  induction parts with
  | nil => exact absurd rfl hne
  | cons part parts ih =>
      obtain ⟨hpart, hparts⟩ := List.forall_mem_cons.mp h
      have hone : segments part = [part] := Text.parts_eq_singleton_iff.mpr ⟨rfl, hpart⟩
      cases parts with
      | nil => rw [String.intercalate_singleton, hone]
      | cons next rest =>
          rw [String.intercalate_cons_cons, segments_append, hone, ih (by simp) hparts]
          rfl

/-- The segments of a topic are the one way to write it as texts without slashes between
slashes. -/
theorem Topic.segments_eq_iff {topic : String} {parts : List String} :
    segments topic = parts ↔
      parts ≠ [] ∧ (∀ part ∈ parts, '/' ∉ part.toList) ∧ topic = "/".intercalate parts := by
  constructor
  · rintro rfl
    have hne := Text.parts_ne_nil '/' topic
    have hfree : ∀ part ∈ segments topic, '/' ∉ part.toList :=
      fun part => not_mem_of_mem_segments
    exact ⟨hne, hfree, Text.parts_injective '/' (segments_intercalate hne hfree).symm⟩
  · rintro ⟨hne, hfree, rfl⟩
    exact segments_intercalate hne hfree

theorem Topic.segments_eq_three_iff {topic first second third : String} :
    segments topic = [first, second, third] ↔
      ('/' ∉ first.toList ∧ '/' ∉ second.toList ∧ '/' ∉ third.toList) ∧
        topic = first ++ "/" ++ second ++ "/" ++ third := by
  rw [segments_eq_iff]
  simp [String.append_assoc]

theorem Text.length_cut (sep : Char) (cs : List Char) :
    (cut sep cs).2.length = cs.count sep := by
  induction cs with
  | nil => rfl
  | cons c cs ih => by_cases h : c = sep <;> simp [cut, h, ih]

/-- There is one segment more than there are slashes. -/
theorem Topic.length_segments (topic : String) :
    (segments topic).length = topic.toList.count '/' + 1 := by
  simp [segments, Text.parts, Text.length_cut]

namespace Thing

/-! ## Strict reading -/

/-- What a topic is read as, by its form. -/
inductive Reading : String → Except TopicError (String × Kind) → Prop
  | thing {id : String} (kind : Kind) : '/' ∉ id.toList →
      Reading ("things/" ++ id ++ "/" ++ kind.name) (.ok (id, kind))
  | wrongDepth {topic : String} : topic.toList.count '/' ≠ 2 →
      Reading topic (.error (.wrongDepth topic (topic.toList.count '/' + 1)))
  | foreignRoot {topic first id name : String} : topic = first ++ "/" ++ id ++ "/" ++ name →
      '/' ∉ first.toList → '/' ∉ id.toList → '/' ∉ name.toList → first ≠ "things" →
      Reading topic (.error (.foreignRoot topic))
  | unknownKind {id name : String} : '/' ∉ id.toList → '/' ∉ name.toList →
      (∀ kind : Kind, kind.name ≠ name) →
      Reading ("things/" ++ id ++ "/" ++ name) (.error (.unknownKind name))

theorem not_mem_name (kind : Kind) : '/' ∉ kind.name.toList := by
  cases kind <;> decide

theorem kind_parse_eq_error {name : String} (h : ∀ kind : Kind, kind.name ≠ name) :
    Kind.parse name = .error (.unknownKind name) := by
  unfold Kind.parse
  cases hname : Kind.ofName? name with
  | none => rfl
  | some kind => exact absurd (Kind.name_of_ofName? hname) (h kind)

theorem kind_parse_name (kind : Kind) : Kind.parse kind.name = .ok kind := by
  rw [Kind.parse, Kind.ofName?_name]

theorem parseTopic_of_segments {topic id name : String}
    (h : Topic.segments topic = [root, id, name]) :
    parseTopic topic = (Kind.parse name).map (id, ·) := by
  rw [parseTopic, h]
  exact if_pos rfl

theorem parseTopic_of_length_ne {topic : String} (h : (Topic.segments topic).length ≠ 3) :
    parseTopic topic = .error (.wrongDepth topic (Topic.segments topic).length) := by
  unfold parseTopic
  split
  · rename_i hsegments
    rw [hsegments] at h
    exact absurd rfl h
  · rfl

theorem Reading.parseTopic_eq {topic : String} {result : Except TopicError (String × Kind)}
    (h : Reading topic result) : parseTopic topic = result := by
  cases h with
  | @thing id kind hid =>
      have hsegments : Topic.segments ("things/" ++ id ++ "/" ++ kind.name) =
          [root, id, kind.name] :=
        Topic.segments_eq_three_iff.mpr ⟨⟨by decide, hid, not_mem_name kind⟩, rfl⟩
      rw [parseTopic_of_segments hsegments, kind_parse_name]
      rfl
  | wrongDepth hdepth =>
      rw [← Topic.length_segments]
      apply parseTopic_of_length_ne
      rw [Topic.length_segments]
      exact fun hlength => hdepth (Nat.succ.inj hlength)
  | @foreignRoot topic first id name htopic hfirst hid hname hroot =>
      have hsegments := Topic.segments_eq_three_iff.mpr ⟨⟨hfirst, hid, hname⟩, htopic⟩
      rw [parseTopic, hsegments]
      exact if_neg hroot
  | @unknownKind id name hid hname hkind =>
      have hsegments : Topic.segments ("things/" ++ id ++ "/" ++ name) = [root, id, name] :=
        Topic.segments_eq_three_iff.mpr ⟨⟨by decide, hid, hname⟩, rfl⟩
      rw [parseTopic_of_segments hsegments, kind_parse_eq_error hkind]
      rfl

theorem reading_parseTopic (topic : String) : Reading topic (parseTopic topic) := by
  by_cases hdepth : topic.toList.count '/' = 2
  · have hlength : (Topic.segments topic).length = 3 := by rw [Topic.length_segments, hdepth]
    obtain ⟨first, id, name, hsegments⟩ := List.length_eq_three.mp hlength
    obtain ⟨⟨hfirst, hid, hname⟩, htopic⟩ := Topic.segments_eq_three_iff.mp hsegments
    by_cases hroot : first = root
    · subst hroot
      rw [parseTopic_of_segments hsegments, htopic]
      by_cases hkind : ∃ kind : Kind, kind.name = name
      · obtain ⟨kind, rfl⟩ := hkind
        rw [kind_parse_name]
        exact .thing kind hid
      · have hunknown : ∀ kind : Kind, kind.name ≠ name := not_exists.mp hkind
        rw [kind_parse_eq_error hunknown]
        exact .unknownKind hid hname hunknown
    · have hreading : Reading topic (.error (.foreignRoot topic)) :=
        .foreignRoot htopic hfirst hid hname hroot
      exact hreading.parseTopic_eq ▸ hreading
  · have hreading : Reading topic (.error (.wrongDepth topic (topic.toList.count '/' + 1))) :=
      .wrongDepth hdepth
    exact hreading.parseTopic_eq ▸ hreading

/-- Strict reading gives of every topic the one thing that its form says. -/
theorem parseTopic_eq_iff {topic : String} {result : Except TopicError (String × Kind)} :
    parseTopic topic = result ↔ Reading topic result :=
  ⟨fun h => h ▸ reading_parseTopic topic, Reading.parseTopic_eq⟩

theorem parseTopic_eq_ok_iff {topic id : String} {kind : Kind} :
    parseTopic topic = .ok (id, kind) ↔
      topic = "things/" ++ id ++ "/" ++ kind.name ∧ '/' ∉ id.toList := by
  rw [parseTopic_eq_iff]
  constructor
  · rintro ⟨⟩
    exact ⟨rfl, ‹_›⟩
  · rintro ⟨rfl, hid⟩
    exact .thing kind hid

/-! ## Built topics read back -/

theorem count_topic (id : String) (kind : Kind) :
    (topic id kind).toList.count '/' = (selector id).toList.count '/' + 2 := by
  have hname : kind.name.toList.count '/' = 0 := List.count_eq_zero.mpr (not_mem_name kind)
  simp [topic, root, hname]

theorem selector_of_ne {id : String} (h : id ≠ "") : selector id = id :=
  if_neg h

/-- What a built topic is read as. The empty id was rewritten, and an id of several segments
makes the topic too deep. -/
theorem parseTopic_topic (id : String) (kind : Kind) :
    parseTopic (topic id kind) =
      if id = "" then .ok ("+", kind)
      else if '/' ∈ id.toList then
        .error (.wrongDepth (topic id kind) (3 + id.toList.count '/'))
      else .ok (id, kind) := by
  split
  · rename_i hempty
    subst hempty
    exact parseTopic_eq_ok_iff.mpr ⟨rfl, by decide⟩
  · rename_i hne
    have hcount := count_topic id kind
    rw [selector_of_ne hne] at hcount
    split
    · rename_i hslash
      have hpos : 0 < id.toList.count '/' := List.count_pos_iff.mpr hslash
      have hdepth : (topic id kind).toList.count '/' ≠ 2 := by omega
      rw [(Reading.wrongDepth hdepth).parseTopic_eq, hcount]
      congr 2
      omega
    · rename_i hfree
      refine parseTopic_eq_ok_iff.mpr ⟨?_, hfree⟩
      rw [topic, selector_of_ne hne]
      rfl

theorem parseTopic_topic_eq_ok_iff (id : String) (kind : Kind) :
    parseTopic (topic id kind) = .ok (id, kind) ↔ id ≠ "" ∧ '/' ∉ id.toList := by
  rw [parseTopic_topic]
  by_cases hempty : id = ""
  · simp [hempty]
  · by_cases hslash : '/' ∈ id.toList <;> simp [hempty, hslash]

/-- Building topics and reading them strictly are inverse on just the grammar of topics. A text
is read as its form says; of all built topics those read back whose id is one segment and not
empty; and every topic that is read as a thing that is not empty is the topic built for it. -/
theorem parseTopic_inverts_topic :
    (∀ topic result, parseTopic topic = result ↔ Reading topic result) ∧
    (∀ topic id kind, parseTopic topic = .ok (id, kind) ↔
      topic = "things/" ++ id ++ "/" ++ kind.name ∧ '/' ∉ id.toList) ∧
    (∀ id kind, parseTopic (Thing.topic id kind) =
      if id = "" then .ok ("+", kind)
      else if '/' ∈ id.toList then
        .error (.wrongDepth (Thing.topic id kind) (3 + id.toList.count '/'))
      else .ok (id, kind)) ∧
    (∀ id kind, parseTopic (Thing.topic id kind) = .ok (id, kind) ↔
      id ≠ "" ∧ '/' ∉ id.toList) ∧
    (∀ topic id kind, parseTopic topic = .ok (id, kind) ∧ id ≠ "" ↔
      topic = Thing.topic id kind ∧ id ≠ "" ∧ '/' ∉ id.toList) := by
  refine ⟨fun _ _ => parseTopic_eq_iff, fun _ _ _ => parseTopic_eq_ok_iff, parseTopic_topic,
    parseTopic_topic_eq_ok_iff, ?_⟩
  intro topic id kind
  constructor
  · rintro ⟨hread, hne⟩
    obtain ⟨rfl, hfree⟩ := parseTopic_eq_ok_iff.mp hread
    refine ⟨?_, hne, hfree⟩
    rw [Thing.topic, selector_of_ne hne]
    rfl
  · rintro ⟨rfl, hone⟩
    exact ⟨(parseTopic_topic_eq_ok_iff id kind).mpr hone, hone.1⟩

end Thing

end ThingHub
