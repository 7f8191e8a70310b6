import ThingHub.Topic.Pattern

/-! # Reading patterns into segments

Reading a pattern loses nothing: its segments spell its text again, so two patterns
with the same segments are the same pattern. -/

namespace ThingHub

/-! ## Cutting texts -/

/-- Cutting is injective, since joining the parts gives the text back. -/
theorem Text.parts_injective (sep : Char) {s t : String}
    (h : Text.parts sep s = Text.parts sep t) : s = t := by
  obtain ⟨hfirst, hrest⟩ := List.cons.inj h
  have hcut : Text.cut sep s.toList = Text.cut sep t.toList := by
    apply Prod.ext
    · exact String.ofList_injective hfirst
    · exact (List.map_inj_right fun _ _ => String.ofList_injective).mp hrest
  have hlist : s.toList = t.toList := by
    rw [← Text.cut_join sep s.toList, hcut, Text.cut_join]
  exact String.toList_inj.mp hlist

namespace Segment

/-! ## Segments spell their pattern -/

theorem map_text_readAll (parts : List String) : (readAll parts).map text = parts := by
  induction parts with
  | nil => rfl
  | cons part rest ih =>
      cases rest with
      | nil =>
          by_cases hs : part = "+"
          · simp [readAll, hs, text]
          · by_cases hm : part = "#"
            · simp [readAll, hm, text]
            · simp [readAll, hs, hm, text]
      | cons next rest =>
          by_cases hs : part = "+"
          · simpa [readAll, hs, text] using ih
          · simpa [readAll, hs, text] using ih

/-! ## Addresses -/

/-- The part of a segment list that a walk through a tree looks at: nothing behind the
first `#`. -/
def address : List Segment → List Segment
  | [] => []
  | .multi :: _ => [.multi]
  | segment :: rest => segment :: address rest

@[simp] theorem address_nil : address [] = [] := rfl

@[simp] theorem address_multi (rest : List Segment) : address (.multi :: rest) = [.multi] := rfl

@[simp] theorem address_single (rest : List Segment) :
    address (.single :: rest) = .single :: address rest := rfl

@[simp] theorem address_literal (text : String) (rest : List Segment) :
    address (.literal text :: rest) = .literal text :: address rest := rfl

/-- In a pattern that is read from text, `#` stands last only. -/
theorem address_readAll (parts : List String) : address (readAll parts) = readAll parts := by
  induction parts with
  | nil => rfl
  | cons part rest ih =>
      cases rest with
      | nil =>
          by_cases hs : part = "+"
          · simp [readAll, hs]
          · by_cases hm : part = "#"
            · simp [readAll, hm]
            · simp [readAll, hs, hm]
      | cons next rest =>
          by_cases hs : part = "+"
          · simpa [readAll, hs] using ih
          · simpa [readAll, hs] using ih

/-- A list that accepts any topic at all has `#` in last place only. -/
theorem address_of_accept {pattern : List Segment} {topic : List String}
    (h : accept pattern topic = true) : address pattern = pattern := by
  induction pattern generalizing topic with
  | nil => rfl
  | cons segment rest ih =>
      cases segment with
      | literal text =>
          cases topic with
          | nil => simp [accept] at h
          | cons first topic =>
              have hrest : accept rest topic = true := by
                simp only [accept, Bool.and_eq_true] at h
                exact h.2
              rw [address_literal, ih hrest]
      | single =>
          cases topic with
          | nil => simp [accept] at h
          | cons first topic =>
              have hrest : accept rest topic = true := by simpa [accept] using h
              rw [address_single, ih hrest]
      | multi =>
          cases rest with
          | nil => rfl
          | cons next rest => simp [accept] at h

end Segment

namespace Pattern

@[simp] theorem address_segments (p : Pattern) : Segment.address p.segments = p.segments :=
  Segment.address_readAll _

theorem segments_injective {p q : Pattern} (h : p.segments = q.segments) : p = q := by
  apply ext_text
  apply Text.parts_injective '/'
  have hp := Segment.map_text_readAll (Topic.segments p.text)
  have hq := Segment.map_text_readAll (Topic.segments q.text)
  rw [← Pattern.segments] at hp hq
  exact hp.symm.trans (h ▸ hq)

theorem segments_inj {p q : Pattern} : p.segments = q.segments ↔ p = q :=
  ⟨segments_injective, fun h => h ▸ rfl⟩

end Pattern

end ThingHub
