import ThingHub.Proofs.Topic.Thing

/-! # The wildcard rule

A pattern accepts a topic position by position: `+` stands for one segment, a last `#` for any
number of further ones, and everything else for itself. Wildcards in first place leave the
topics of the broker itself alone. -/

namespace ThingHub

namespace Segment

/-! ## Positions -/

/-- The segments before the last one are compared position by position. -/
theorem accept_map_ofInner_append (front : List String) (back : List Segment)
    (topic : List String) :
    accept (front.map ofInner ++ back) topic = true ↔
      front.length ≤ topic.length ∧
        (∀ i < front.length, front[i]? = some "+" ∨ front[i]? = topic[i]?) ∧
        accept back (topic.drop front.length) = true := by
  induction front generalizing topic with
  | nil => simp
  | cons text front ih =>
      cases topic with
      | nil => simp [accept_ofInner_nil]
      | cons first topic =>
          rw [List.map_cons, List.cons_append, accept_ofInner, Bool.and_eq_true, ih,
            List.length_cons, Nat.forall_lt_succ_left]
          simp [and_left_comm, and_assoc]

/-! ## Readings -/

/-- Without `#` in last place every segment is read alike. -/
theorem readAll_eq_map_ofInner {parts : List String} (h : parts.getLast? ≠ some "#") :
    readAll parts = parts.map ofInner := by
  rcases List.eq_nil_or_concat parts with rfl | ⟨front, last, rfl⟩
  · rfl
  · have hlast : last ≠ "#" := by simpa using h
    rw [List.concat_eq_append, readAll_append front (List.cons_ne_nil _ _), List.map_append]
    simp [readAll, ofInner, hlast]

theorem readAll_concat_multi (front : List String) :
    readAll (front ++ ["#"]) = front.map ofInner ++ [.multi] :=
  readAll_append front (List.cons_ne_nil _ _)

/-- A pattern begins with a wildcard if its first segment is `+`, or `#` and the only one. -/
theorem isWildcard_head?_readAll {parts : List String} :
    (readAll parts).head?.any isWildcard = true ↔ parts.head? = some "+" ∨ parts = ["#"] := by
  rcases parts with _ | ⟨text, _ | ⟨next, rest⟩⟩
  · simp [readAll]
  · by_cases hs : text = "+"
    · simp [readAll, isWildcard, hs]
    · by_cases hm : text = "#" <;> simp [readAll, isWildcard, hs, hm]
  · by_cases hs : text = "+" <;> simp [readAll, isWildcard, hs]

/-- The rule by positions, for a pattern read from its parts. -/
theorem accept_readAll_iff (parts topic : List String) :
    accept (readAll parts) topic = true ↔
      parts.getLast? = some "#" ∧ parts.length - 1 ≤ topic.length ∧
          (∀ i < parts.length - 1, parts[i]? = some "+" ∨ parts[i]? = topic[i]?) ∨
        parts.getLast? ≠ some "#" ∧ topic.length = parts.length ∧
          ∀ i < parts.length, parts[i]? = some "+" ∨ parts[i]? = topic[i]? := by
  by_cases hlast : parts.getLast? = some "#"
  · obtain ⟨front, rfl⟩ := List.getLast?_eq_some_iff.mp hlast
    have hpositions : (∀ i < front.length,
          (front ++ ["#"])[i]? = some "+" ∨ (front ++ ["#"])[i]? = topic[i]?) ↔
        ∀ i < front.length, front[i]? = some "+" ∨ front[i]? = topic[i]? :=
      forall₂_congr fun i hi => by rw [List.getElem?_append_left hi]
    rw [readAll_concat_multi, accept_map_ofInner_append]
    simp [accept, hpositions]
  · have hmap := accept_map_ofInner_append parts [] topic
    -- With nothing behind the compared segments, the topic has to end with them.
    have hend : accept [] (topic.drop parts.length) = true ↔ topic.length ≤ parts.length := by
      rw [← List.drop_eq_nil_iff]
      cases topic.drop parts.length <;> simp [accept]
    rw [List.append_nil, hend] at hmap
    rw [readAll_eq_map_ofInner hlast, hmap]
    constructor
    · rintro ⟨hle, hpositions, hge⟩
      exact .inr ⟨hlast, Nat.le_antisymm hge hle, hpositions⟩
    · rintro (⟨h, -⟩ | ⟨-, hlength, hpositions⟩)
      · exact absurd h hlast
      · exact ⟨Nat.le_of_eq hlength.symm, hpositions, Nat.le_of_eq hlength⟩

end Segment

/-- The wildcard rule. A pattern accepts a topic just when the topic is not one of the broker
itself or the pattern does not begin with a wildcard, and their parts agree: all of them in
equal number, or all before a last `#`. -/
theorem Pattern.accepts_iff_positions (p : Pattern) (topic : String) :
    let parts := Topic.segments p.text
    let segments := Topic.segments topic
    p.accepts topic = true ↔
      (topic.toList.head? ≠ some '$' ∨ parts.head? ≠ some "+" ∧ parts ≠ ["#"]) ∧
      (parts.getLast? = some "#" ∧ parts.length - 1 ≤ segments.length ∧
          (∀ i < parts.length - 1, parts[i]? = some "+" ∨ parts[i]? = segments[i]?) ∨
        parts.getLast? ≠ some "#" ∧ segments.length = parts.length ∧
          ∀ i < parts.length, parts[i]? = some "+" ∨ parts[i]? = segments[i]?) := by
  intro parts segments
  have hsystem : Topic.isSystem topic = true ↔ topic.toList.head? = some '$' := beq_iff_eq
  have hfirst : p.segments.head?.any Segment.isWildcard = true ↔
      parts.head? = some "+" ∨ parts = ["#"] := Segment.isWildcard_head?_readAll
  have haccept : p.accepts topic = true ↔
      ¬(topic.toList.head? = some '$' ∧ (parts.head? = some "+" ∨ parts = ["#"])) ∧
        Segment.accept (Segment.readAll parts) segments = true := by
    rw [← hsystem, ← hfirst, ← Bool.and_eq_true, Bool.not_eq_true, ← Bool.not_eq_true',
      ← Bool.and_eq_true]
    rfl
  rw [haccept, Segment.accept_readAll_iff, Classical.not_and_iff_not_or_not, not_or]

/-- A last `#` stands for no segment as well; elsewhere it is a text like any other. -/
example :
    let last : Pattern := ⟨"a/+/#", by decide⟩
    let misplaced : Pattern := ⟨"a/#/b", by decide⟩
    last.accepts "a/b" = true ∧ last.accepts "a" = false ∧
      misplaced.accepts "a/#/b" = true ∧ misplaced.accepts "a/x/b" = false := by
  decide

end ThingHub
