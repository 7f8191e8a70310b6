/-! Texts cut into parts at a separator character, and parts joined again. Cutting
always yields at least one part, and joining undoes cutting. -/

namespace ThingHub.Text

/-- The part before the first separator, with the parts behind it. -/
def cut (sep : Char) : List Char → List Char × List (List Char)
  | [] => ([], [])
  | c :: cs =>
    let (part, parts) := cut sep cs
    if c = sep then ([], part :: parts) else (c :: part, parts)

/-- The parts behind the first one, each led by its separator. -/
def chain (sep : Char) : List (List Char) → List Char
  | [] => []
  | part :: parts => sep :: part ++ chain sep parts

theorem cut_join (sep : Char) (cs : List Char) :
    (cut sep cs).1 ++ chain sep (cut sep cs).2 = cs := by
  induction cs with
  | nil => rfl
  | cons c cs ih =>
      by_cases h : c = sep
      · simp [cut, h, chain, ih]
      · simp [cut, h, ih]

theorem not_mem_cut_fst (sep : Char) (cs : List Char) : sep ∉ (cut sep cs).1 := by
  induction cs with
  | nil => simp [cut]
  | cons c cs ih =>
      by_cases h : c = sep
      · simp [cut, h]
      · simp [cut, h, ih, Ne.symm h]

theorem not_mem_cut_snd (sep : Char) (cs : List Char) :
    ∀ part ∈ (cut sep cs).2, sep ∉ part := by
  induction cs with
  | nil => simp [cut]
  | cons c cs ih =>
      by_cases h : c = sep
      · simpa [cut, h] using ⟨not_mem_cut_fst sep cs, ih⟩
      · simpa [cut, h] using ih

/-- A text without separators is one part, whatever separated parts follow it. -/
theorem cut_append (sep : Char) (part rest : List Char) (h : sep ∉ part) :
    cut sep (part ++ rest) = (part ++ (cut sep rest).1, (cut sep rest).2) := by
  induction part with
  | nil => simp
  | cons c cs ih =>
      have hc : c ≠ sep := fun e => h (by simp [e])
      have hs : sep ∉ cs := fun m => h (List.mem_cons_of_mem _ m)
      simp [cut, ih hs, hc]

/-- The parts of a text, in order. -/
def parts (sep : Char) (text : String) : List String :=
  let (first, rest) := cut sep text.toList
  String.ofList first :: rest.map String.ofList

/-- The text before the last separator and the text after it, if there is one. -/
def cutLast? (sep : Char) (text : String) : Option (String × String) :=
  let (back, front) := cut sep text.toList.reverse
  match front with
  | [] => none
  | first :: rest =>
    some (String.ofList (first ++ chain sep rest).reverse, String.ofList back.reverse)

/-- What is cut off at the last separator stands in front of it and behind it. -/
theorem cutLast?_eq_some_iff {sep : Char} {text front back : String} :
    cutLast? sep text = some (front, back) ↔
      text = front ++ String.singleton sep ++ back ∧ sep ∉ back.toList := by
  constructor
  · intro h
    have hjoin := cut_join sep text.toList.reverse
    have hfree := not_mem_cut_fst sep text.toList.reverse
    unfold cutLast? at h
    generalize cut sep text.toList.reverse = parts at h hjoin hfree
    obtain ⟨last, _ | ⟨first, rest⟩⟩ := parts
    · cases h
    · cases h
      refine ⟨?_, by simpa using hfree⟩
      rw [← String.toList_inj, ← List.reverse_inj, ← hjoin]
      simp [chain]
  · rintro ⟨rfl, hfree⟩
    have hcut : cut sep (front ++ String.singleton sep ++ back).toList.reverse =
        (back.toList.reverse,
          (cut sep front.toList.reverse).1 :: (cut sep front.toList.reverse).2) := by
      have hback : sep ∉ back.toList.reverse := by simpa using hfree
      simp [cut_append sep _ _ hback, cut]
    rw [cutLast?, hcut]
    simp only [cut_join, List.reverse_reverse, String.ofList_toList]

theorem exists_cutLast?_eq_some {sep : Char} {text : String} (h : sep ∈ text.toList) :
    ∃ front back, cutLast? sep text = some (front, back) := by
  obtain ⟨back, front, hreverse, hfree⟩ := List.eq_append_cons_of_mem (List.mem_reverse.mpr h)
  refine ⟨String.ofList front.reverse, String.ofList back.reverse, ?_⟩
  apply cutLast?_eq_some_iff.mpr
  refine ⟨?_, by simpa using hfree⟩
  rw [← String.toList_inj, ← List.reverse_inj, hreverse]
  simp

theorem parts_ne_nil (sep : Char) (text : String) : parts sep text ≠ [] := by
  simp [parts]

end ThingHub.Text
