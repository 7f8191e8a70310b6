import ThingHub.Proofs.Topic.Grammar
import ThingHub.Proofs.Topic.Slots

/-! # Canonical segments

Reading a pattern and joining its segments undo each other: on one side stand the texts that are
not empty, on the other the lists of segments in which every wildcard is named as one. So a slot of
a tree belongs to a single text. -/

namespace ThingHub

namespace Segment

/-! ## Single segments -/

/-- The two things that no text in an inner place is read as. -/
theorem ofInner_eq_iff {written : String} {segment : Segment} :
    ofInner written = segment ↔
      segment.text = written ∧ segment ≠ .multi ∧ segment ≠ .literal "+" := by
  constructor
  · rintro rfl
    unfold ofInner
    split <;> rename_i hplus <;> simp [text, hplus]
  · rintro ⟨rfl, hmulti, hplus⟩
    cases segment with
    | literal other => exact if_neg fun h => hplus (congrArg literal h)
    | single => rfl
    | multi => exact absurd rfl hmulti

/-- What a segment stands for that is the last one of a pattern. -/
def ofLast (text : String) : Segment :=
  if text = "+" then .single else if text = "#" then .multi else .literal text

/-- The two things that no text in last place is read as. -/
theorem ofLast_eq_iff {written : String} {segment : Segment} :
    ofLast written = segment ↔
      segment.text = written ∧ segment ≠ .literal "+" ∧ segment ≠ .literal "#" := by
  constructor
  · rintro rfl
    unfold ofLast
    split
    · rename_i hplus
      simp [text, hplus]
    · rename_i hplus
      split <;> rename_i hhash <;> simp [text, hplus, hhash]
  · rintro ⟨rfl, hplus, hhash⟩
    cases segment with
    | literal other =>
        have hne : other ≠ "+" := fun h => hplus (congrArg literal h)
        have hne' : other ≠ "#" := fun h => hhash (congrArg literal h)
        exact (if_neg hne).trans (if_neg hne')
    | single => rfl
    | multi => rfl

/-! ## Lists of segments -/

theorem readAll_concat (front : List String) (last : String) :
    readAll (front ++ [last]) = front.map ofInner ++ [ofLast last] :=
  readAll_append front (List.cons_ne_nil _ _)

theorem map_ofInner_eq_iff {parts : List String} {segments : List Segment} :
    parts.map ofInner = segments ↔
      segments.map text = parts ∧ .multi ∉ segments ∧ .literal "+" ∉ segments := by
  induction parts generalizing segments with
  | nil => cases segments <;> simp
  | cons part parts ih =>
      cases segments with
      | nil => simp
      | cons segment segments =>
          rw [List.map_cons, List.cons.injEq, ofInner_eq_iff, ih, List.map_cons, List.cons.injEq,
            List.mem_cons, List.mem_cons]
          grind

/-- What the texts are read as: the segments that spell them and name every wildcard as one. -/
theorem readAll_eq_iff {parts : List String} {segments : List Segment} :
    readAll parts = segments ↔
      segments.map text = parts ∧ .multi ∉ segments.dropLast ∧ .literal "+" ∉ segments ∧
        segments.getLast? ≠ some (.literal "#") := by
  rcases List.eq_nil_or_concat' parts with rfl | ⟨front, last, rfl⟩
  · cases segments <;> simp [readAll]
  · rcases List.eq_nil_or_concat' segments with rfl | ⟨inner, segment, rfl⟩
    · simp [readAll_concat]
    · rw [readAll_concat, List.append_singleton_inj, map_ofInner_eq_iff, ofLast_eq_iff,
        List.map_append, List.map_singleton, List.append_singleton_inj, List.dropLast_concat,
        List.getLast?_concat, List.mem_append, List.mem_singleton]
      grind

/-- A list of segments as patterns are read: no text holds a slash, and none stands where it would
be read as a wildcard. -/
structure Canonical (segments : List Segment) : Prop where
  ne_nil : segments ≠ []
  free : ∀ text, .literal text ∈ segments → '/' ∉ text.toList
  /-- The wildcard for any number of segments stands last only. -/
  multi_last : .multi ∉ segments.dropLast
  ne_plus : .literal "+" ∉ segments
  last_ne_hash : segments.getLast? ≠ some (.literal "#")

theorem forall_mem_map_text_iff {segments : List Segment} :
    (∀ part ∈ segments.map text, '/' ∉ part.toList) ↔
      ∀ text, .literal text ∈ segments → '/' ∉ text.toList := by
  rw [List.forall_mem_map]
  constructor
  · exact fun h text hm => h (.literal text) hm
  · intro h segment hm
    cases segment with
    | literal text => exact h text hm
    | single | multi => decide

end Segment

open Segment (Canonical)

namespace Pattern

/-- The segments of a pattern are the one canonical list that spells it. -/
theorem segments_eq_iff {p : Pattern} {segments : List Segment} :
    p.segments = segments ↔
      Canonical segments ∧ p.text = "/".intercalate (segments.map Segment.text) := by
  rw [Pattern.segments, Segment.readAll_eq_iff, eq_comm, Topic.segments_eq_iff,
    Segment.forall_mem_map_text_iff, ne_eq, List.map_eq_nil_iff]
  constructor
  · rintro ⟨⟨hne, hfree, htext⟩, hmulti, hplus, hhash⟩
    exact ⟨⟨hne, hfree, hmulti, hplus, hhash⟩, htext⟩
  · rintro ⟨⟨hne, hfree, hmulti, hplus, hhash⟩, htext⟩
    exact ⟨⟨hne, hfree, htext⟩, hmulti, hplus, hhash⟩

theorem length_segments (p : Pattern) : p.segments.length = p.text.toList.count '/' + 1 := by
  rw [← Topic.length_segments, ← Segment.map_text_readAll (Topic.segments p.text),
    List.length_map, Pattern.segments]

/-- Of all canonical lists only the one empty text spells no pattern. -/
theorem exists_segments_eq {segments : List Segment} (h : Canonical segments)
    (hne : segments ≠ [.literal ""]) : ∃ p : Pattern, p.segments = segments := by
  have htext : "/".intercalate (segments.map Segment.text) ≠ "" := by
    intro hempty
    have hparts : Topic.segments "" = segments.map Segment.text :=
      Topic.segments_eq_iff.mpr ⟨mt List.map_eq_nil_iff.mp h.ne_nil,
        Segment.forall_mem_map_text_iff.mpr h.free, hempty.symm⟩
    have hone : [""] = segments.map Segment.text := hparts
    obtain ⟨segment, rfl, hsegment⟩ := List.map_eq_singleton_iff.mp hone.symm
    cases segment with
    | literal text =>
        obtain rfl : text = "" := hsegment
        exact hne rfl
    | single | multi => exact absurd hsegment (by decide)
  exact ⟨⟨_, htext⟩, segments_eq_iff.mpr ⟨h, rfl⟩⟩

theorem text_of_parse {text : String} {p : Pattern} (h : parse text = .ok p) :
    p.text = text := by
  unfold parse at h
  split at h
  · cases h
  · cases h
    rfl

end Pattern

namespace Tree

variable {α : Type}

/-- Creating the slot of a pattern does nothing to the slot of another pattern. -/
theorem slot?_alter_segments (f : List α → List α) (p q : Pattern) (tree : Tree α) :
    (tree.alter f p.segments).slot? q.segments =
      if q = p then some (f ((tree.slot? p.segments).getD [])) else tree.slot? q.segments := by
  rw [slot?_alter]
  simp only [address_segments_inj]

/-- Patterns that find the same in every tree are the same pattern. -/
theorem slot?_segments_inj {p q : Pattern} :
    (∀ tree : Tree α, tree.slot? p.segments = tree.slot? q.segments) ↔ p = q := by
  constructor
  · intro h
    by_contra hne
    have hboth := h (empty.alter id p.segments)
    rw [slot?_alter_segments, slot?_alter_segments, if_pos rfl, if_neg (Ne.symm hne),
      slot?_empty q.segments] at hboth
    cases hboth
  · rintro rfl tree
    rfl

end Tree

namespace Pattern

/-- Patterns and canonical lists of segments correspond one to one. Every text but the empty one is
read as a canonical list that spells it, and every canonical list but that of the empty text is
read from one text only; so a slot of a tree is that of one text. -/
theorem parse_one_to_one :
    (∀ text, text ≠ "" → ∃ p, parse text = .ok p ∧
      "/".intercalate (p.segments.map Segment.text) = text ∧
      p.segments.length = text.toList.count '/' + 1 ∧ Canonical p.segments) ∧
    (∀ segments, Canonical segments → segments ≠ [.literal ""] →
      ∃! text, ∃ p, parse text = .ok p ∧ p.segments = segments) ∧
    (∀ (α : Type) (a b : String) (p q : Pattern), parse a = .ok p → parse b = .ok q →
      ((∀ tree : Tree α, tree.slot? p.segments = tree.slot? q.segments) ↔ a = b) ∧
      (a ≠ b → ∀ (f : List α → List α) (tree : Tree α),
        (tree.alter f p.segments).slot? q.segments = tree.slot? q.segments)) := by
  refine ⟨?_, ?_, ?_⟩
  · intro text hne
    have hspelled := segments_eq_iff.mp (rfl : segments ⟨text, hne⟩ = _)
    exact ⟨⟨text, hne⟩, dif_neg hne, hspelled.2.symm, length_segments _, hspelled.1⟩
  · intro segments hcanonical hne
    obtain ⟨p, hp⟩ := exists_segments_eq hcanonical hne
    refine ⟨p.text, ⟨p, parse_text p, hp⟩, ?_⟩
    rintro text ⟨q, hparse, hq⟩
    rw [← text_of_parse hparse, segments_injective (hq.trans hp.symm)]
  · intro α a b p q hp hq
    rw [← text_of_parse hp, ← text_of_parse hq]
    have htext : p.text = q.text ↔ p = q := ⟨ext_text, congrArg text⟩
    refine ⟨Tree.slot?_segments_inj.trans htext.symm, fun hne f tree => ?_⟩
    rw [Tree.slot?_alter_segments, if_neg fun h => hne (congrArg text h.symm)]

/-- A text with a misplaced `#` and an empty segment, the list that it is read as, and two patterns
that differ in their last wildcard. -/
theorem parse_one_to_one_misplaced :
    (∃ p, parse "#/+//#" = .ok p ∧
      "/".intercalate (p.segments.map Segment.text) = "#/+//#" ∧ p.segments.length = 4) ∧
    (∃! text, ∃ p, parse text = .ok p ∧
      p.segments = [.literal "#", .single, .literal "", .multi]) ∧
    (¬ ∀ tree : Tree Nat,
      tree.slot? [.literal "a", .single] = tree.slot? [.literal "a", .multi]) := by
  obtain ⟨hread, hspelled, hslots⟩ := parse_one_to_one
  refine ⟨?_, ?_, ?_⟩
  · obtain ⟨p, hparse, htext, hlength, -⟩ := hread "#/+//#" (by decide)
    exact ⟨p, hparse, htext, hlength.trans (by decide)⟩
  · apply hspelled
    · exact ⟨by decide, by simp, by decide, by decide, by decide⟩
    · decide
  · let single : Pattern := ⟨"a/+", by decide⟩
    let multi : Pattern := ⟨"a/#", by decide⟩
    have hsingle : single.segments = [.literal "a", .single] := by decide
    have hmulti : multi.segments = [.literal "a", .multi] := by decide
    obtain ⟨hslot, -⟩ := hslots Nat "a/+" "a/#" single multi (parse_text single) (parse_text multi)
    rw [hsingle, hmulti] at hslot
    exact mt hslot.mp (by decide)

end Pattern

end ThingHub
