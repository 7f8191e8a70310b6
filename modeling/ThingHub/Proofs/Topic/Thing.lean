import Mathlib.Data.List.Forall2
import ThingHub.Proofs.Topic.Segments

/-! # Which subscriptions a message about a thing reaches

The pattern for a thing id of any form accepts the topics that end in its kind and have, in
between, as many segments as the id, each of them one that the id stands for there. A thing that
messages can be published for has an id of one segment without wildcards, so it is reached just
by the patterns for that thing, or for every thing. -/

namespace ThingHub

/-! ## Joined texts -/

theorem Text.cut_append_sep (sep : Char) (front back : List Char) :
    cut sep (front ++ sep :: back) =
      ((cut sep front).1, (cut sep front).2 ++ (cut sep back).1 :: (cut sep back).2) := by
  induction front with
  | nil => simp [cut]
  | cons c front ih =>
      by_cases h : c = sep
      · simp [cut, h, ih]
      · simp [cut, h, ih]

theorem Text.parts_eq_singleton_iff {sep : Char} {text part : String} :
    parts sep text = [part] ↔ text = part ∧ sep ∉ text.toList := by
  have hjoin := cut_join sep text.toList
  constructor
  · intro h
    obtain ⟨hfirst, hrest⟩ := List.cons.inj h
    rw [List.map_eq_nil_iff.mp hrest, chain, List.append_nil] at hjoin
    rw [hjoin, String.ofList_toList] at hfirst
    exact ⟨hfirst, hjoin ▸ not_mem_cut_fst sep text.toList⟩
  · rintro ⟨rfl, h⟩
    have hcut := cut_append sep text.toList [] h
    rw [List.append_nil] at hcut
    simp [parts, hcut, cut]

theorem Topic.segments_append (front back : String) :
    segments (front ++ "/" ++ back) = segments front ++ segments back := by
  have hlist : (front ++ "/" ++ back).toList = front.toList ++ '/' :: back.toList := by simp
  simp [segments, Text.parts, hlist, Text.cut_append_sep]

/-! ## Patterns of several segments -/

namespace Segment

/-- What a segment stands for that is not the last one of a pattern. -/
def ofInner (text : String) : Segment :=
  if text = "+" then .single else .literal text

theorem readAll_append (front : List String) {back : List String} (h : back ≠ []) :
    readAll (front ++ back) = front.map ofInner ++ readAll back := by
  induction front with
  | nil => rfl
  | cons text front ih =>
      obtain ⟨next, rest, hnext⟩ := List.exists_cons_of_ne_nil
        (List.append_ne_nil_of_right_ne_nil front h)
      rw [List.map_cons, List.cons_append, List.cons_append, ← ih, hnext]
      rfl

theorem accept_ofInner_nil (text : String) (pattern : List Segment) :
    accept (ofInner text :: pattern) [] = false := by
  unfold ofInner
  split <;> rfl

theorem accept_ofInner (text first : String) (pattern : List Segment) (topic : List String) :
    accept (ofInner text :: pattern) (first :: topic) =
      (decide (text = "+" ∨ text = first) && accept pattern topic) := by
  by_cases h : text = "+"
  · simp [ofInner, h, accept]
  · rw [ofInner, if_neg h, accept]
    by_cases heq : text = first <;> simp [h, heq]

/-- What a segment of a topic may be where a pattern has this text in an inner place. -/
def Fits (written part : String) : Prop := written = "+" ∨ written = part

theorem accept_inner_append_iff {written topic : List String} {last : String} :
    accept (written.map ofInner ++ [.literal last]) topic = true ↔
      ∃ parts, topic = parts ++ [last] ∧ List.Forall₂ Fits written parts := by
  induction written generalizing topic with
  | nil =>
      have hone : accept [.literal last] topic = true ↔ topic = [last] := by
        rcases topic with _ | ⟨first, _ | ⟨second, topic⟩⟩
        · simp [accept]
        · rw [accept, accept, Bool.and_true, beq_iff_eq, List.cons.injEq]
          exact ⟨fun h => ⟨h.symm, rfl⟩, fun h => h.1.symm⟩
        · simp [accept]
      simpa [List.forall₂_nil_left_iff] using hone
  | cons text written ih =>
      cases topic with
      | nil => simp [accept_ofInner_nil]
      | cons first topic =>
          rw [List.map_cons, List.cons_append, accept_ofInner, Bool.and_eq_true,
            decide_eq_true_iff, ih]
          constructor
          · rintro ⟨hfits, parts, rfl, hparts⟩
            exact ⟨first :: parts, rfl, .cons hfits hparts⟩
          · rintro ⟨parts, htopic, hparts⟩
            obtain ⟨part, rest, hpart, hrest, rfl⟩ := List.forall₂_cons_left_iff.mp hparts
            obtain ⟨rfl, rfl⟩ := List.cons.inj htopic
            exact ⟨hpart, rest, rfl, hrest⟩

end Segment

namespace Thing

/-! ## Topics of things -/

theorem segments_topic (id : String) (kind : Kind) :
    Topic.segments (topic id kind) =
      root :: (Topic.segments (selector id) ++ [kind.name]) := by
  have hroot : Topic.segments root = [root] := Text.parts_eq_singleton_iff.mpr ⟨rfl, by decide⟩
  have hname : Topic.segments kind.name = [kind.name] :=
    Text.parts_eq_singleton_iff.mpr ⟨rfl, by cases kind <;> decide⟩
  rw [topic, Topic.segments_append, Topic.segments_append, hroot, hname]
  rfl

theorem segments_catchAll (id : String) :
    Topic.segments (catchAll id) = root :: (Topic.segments (selector id) ++ ["#"]) := by
  have hroot : Topic.segments root = [root] := Text.parts_eq_singleton_iff.mpr ⟨rfl, by decide⟩
  have hlast : Topic.segments "#" = ["#"] := Text.parts_eq_singleton_iff.mpr ⟨rfl, by decide⟩
  have htext : catchAll id = root ++ "/" ++ selector id ++ "/" ++ "#" := by
    simp [catchAll, String.append_assoc]
  rw [htext, Topic.segments_append, Topic.segments_append, hroot, hlast]
  rfl

theorem topic_ne_empty (id : String) (kind : Kind) : topic id kind ≠ "" := by
  simp [topic, root]

theorem catchAll_ne_empty (id : String) : catchAll id ≠ "" := by
  simp [catchAll, root]

theorem isSystem_topic (id : String) (kind : Kind) : Topic.isSystem (topic id kind) = false := by
  have hlist : (topic id kind).toList =
      root.toList ++ ("/" ++ selector id ++ "/" ++ kind.name).toList := by
    simp [topic]
  rw [Topic.isSystem, hlist]
  rfl

/-- The topics under the pattern for messages of a kind, whatever the id is. -/
theorem accepts_topic_iff_segments {p : Pattern} {id : String} {kind : Kind}
    (hp : p.text = topic id kind) (received : String) :
    p.accepts received = true ↔
      ∃ parts, Topic.segments received = root :: (parts ++ [kind.name]) ∧
        List.Forall₂ Segment.Fits (Topic.segments (selector id)) parts := by
  have hname : Segment.readAll [kind.name] = [.literal kind.name] := by cases kind <;> rfl
  have hsegments : p.segments = .literal root ::
      ((Topic.segments (selector id)).map Segment.ofInner ++ [.literal kind.name]) := by
    rw [Pattern.segments, hp, segments_topic, ← List.cons_append,
      Segment.readAll_append _ (by simp), hname]
    rfl
  have hhead : p.segments.head?.any Segment.isWildcard = false := by
    rw [hsegments]
    rfl
  rw [Pattern.accepts, hhead, Bool.and_false, Bool.not_false, Bool.true_and, hsegments]
  cases Topic.segments received with
  | nil => simp [Segment.accept]
  | cons first rest =>
      rw [Segment.accept, Bool.and_eq_true, beq_iff_eq, Segment.accept_inner_append_iff]
      constructor
      · rintro ⟨rfl, parts, rfl, hparts⟩
        exact ⟨parts, rfl, hparts⟩
      · rintro ⟨parts, htopic, hparts⟩
        obtain ⟨rfl, rfl⟩ := List.cons.inj htopic
        exact ⟨rfl, parts, rfl, hparts⟩

/-! ## Things that messages can be published for -/

theorem isPublishable_iff {id : String} :
    isPublishable id = true ↔
      id ≠ "" ∧ '/' ∉ id.toList ∧ '+' ∉ id.toList ∧ '#' ∉ id.toList := by
  simp only [isPublishable, Bool.and_eq_true, decide_eq_true_eq, List.all_eq_true]
  refine and_congr_right fun _ => ⟨fun h => ?_, fun h c hc => ?_⟩
  · exact ⟨fun hm => (h _ hm).1.1 rfl, fun hm => (h _ hm).1.2 rfl, fun hm => (h _ hm).2 rfl⟩
  · obtain ⟨hslash, hplus, hhash⟩ := h
    refine ⟨⟨?_, ?_⟩, ?_⟩ <;> rintro rfl <;> contradiction

section Published

variable {id : String} (h : isPublishable id = true)

include h

theorem ne_anyId : id ≠ "+" := by
  rintro rfl
  exact absurd h (by decide)

theorem selector_eq_self : selector id = id :=
  if_neg (isPublishable_iff.mp h).1

theorem segments_published (kind : Kind) :
    Topic.segments (topic id kind) = [root, id, kind.name] := by
  have hid : Topic.segments id = [id] :=
    Text.parts_eq_singleton_iff.mpr ⟨rfl, (isPublishable_iff.mp h).2.1⟩
  rw [segments_topic, selector_eq_self h, hid]
  rfl

/-- Such a topic comes apart into the thing and the kind. -/
theorem splitTopic?_published (kind : Kind) :
    splitTopic? (topic id kind) = some (id, kind.name) := by
  rw [splitTopic?, segments_published h]

/-- The thing ids that select a thing, alone or with all others. -/
theorem selector_selects_iff (other : String) :
    (selector other = "+" ∨ selector other = id) ↔ other = id ∨ other = "" ∨ other = "+" := by
  have hne := (isPublishable_iff.mp h).1
  have hany := ne_anyId h
  by_cases hother : other = ""
  · simp [selector, hother, anyId]
  · simp only [selector, hother, if_false, false_or]
    exact or_comm

theorem accepts_published (p : Pattern) (sent : Kind) :
    p.accepts (topic id sent) = Segment.accept p.segments [root, id, sent.name] := by
  rw [Pattern.accepts, isSystem_topic, segments_published h]
  rfl

/-- A subscription to one kind of message hears of that kind only, about one thing or all. -/
theorem accepts_topic_iff {p : Pattern} {other : String} {kind : Kind}
    (hp : p.text = topic other kind) (sent : Kind) :
    p.accepts (topic id sent) = true ↔
      kind = sent ∧ (other = id ∨ other = "" ∨ other = "+") := by
  rw [accepts_topic_iff_segments hp, segments_published h, ← selector_selects_iff h other]
  constructor
  · rintro ⟨parts, htopic, hparts⟩
    have hbehind : [id] ++ [sent.name] = parts ++ [kind.name] := (List.cons.inj htopic).2
    obtain ⟨rfl, hname⟩ := List.append_inj' hbehind rfl
    obtain ⟨written, rest, hfits, hnil, hselector⟩ := List.forall₂_cons_right_iff.mp hparts
    obtain rfl := List.forall₂_nil_right_iff.mp hnil
    rw [(Text.parts_eq_singleton_iff.mp hselector).1]
    exact ⟨Kind.name_injective (List.cons.inj hname).1.symm, hfits⟩
  · rintro ⟨rfl, hselects⟩
    have hslash : '/' ∉ (selector other).toList := by
      rcases hselects with hany | hthing
      · rw [hany]
        decide
      · rw [hthing]
        exact (isPublishable_iff.mp h).2.1
    have hselector : Topic.segments (selector other) = [selector other] :=
      Text.parts_eq_singleton_iff.mpr ⟨rfl, hslash⟩
    exact ⟨[id], rfl, hselector ▸ .cons hselects .nil⟩

/-- A subscription to every kind of message hears all about one thing or all. -/
theorem accepts_catchAll_iff {p : Pattern} {other : String} (hp : p.text = catchAll other)
    (hslash : '/' ∉ other.toList) (sent : Kind) :
    p.accepts (topic id sent) = true ↔ other = id ∨ other = "" ∨ other = "+" := by
  have hselector : '/' ∉ (selector other).toList := by
    unfold selector
    split
    · decide
    · exact hslash
  have hparts : Topic.segments (selector other) = [selector other] :=
    Text.parts_eq_singleton_iff.mpr ⟨rfl, hselector⟩
  have hsegments : p.segments =
      [Segment.ofInner root, Segment.ofInner (selector other), .multi] := by
    rw [Pattern.segments, hp, segments_catchAll, hparts, ← List.cons_append,
      Segment.readAll_append _ (by simp)]
    rfl
  rw [accepts_published h, hsegments, ← selector_selects_iff h other, Segment.accept_ofInner,
    Segment.accept_ofInner]
  simp [Segment.accept]

end Published

end Thing

end ThingHub
