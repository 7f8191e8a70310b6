import Mathlib.Data.List.Nodup
import ThingHub.Proofs.Json.Skipping

/-! # Records as texts give them

A text of a record gives some of its fields, in any order and between members that are passed over.
It is read as the default with the given fields put into it. The order does not matter as long as no
field comes twice, and a field that comes twice is a fault. -/

namespace ThingHub.Json

/-- What texts may give for a record: which field, what the record becomes, and the octets of the
value. A value with fields of its own is unsound if it gives one of them twice. -/
structure Vocabulary (ρ γ : Type) where
  name : γ → String
  put : γ → ρ → ρ
  Spelled : γ → Bytes → Prop
  sound : γ → Bool

/-- A name with the colon behind it, and blanks around. -/
def Names (name : String) (lead : Bytes) : Prop :=
  ∃ before octets after, Blanks before ∧ SpellsText name octets ∧ Blanks after ∧
    lead = before ++ (octets ++ (after ++ [0x3a]))

/-- What stands between a member and the one before. -/
def separator (first : Bool) : Bytes := if first then [] else [0x2c]

namespace Vocabulary

variable {ρ γ : Type} (v : Vocabulary ρ γ)

/-- The record with what is given put into it, one after the other. -/
def overlay (givens : List γ) (value : ρ) : ρ :=
  givens.foldl (fun value given => v.put given value) value

/-- No field is given twice, neither here nor within a value. -/
def Distinct (givens : List γ) : Prop :=
  (givens.map v.name).Nodup ∧ ∀ given ∈ givens, v.sound given = true

instance (givens : List γ) : Decidable (v.Distinct givens) :=
  inferInstanceAs (Decidable (_ ∧ _))

/-- The members of an object behind its brace or behind a member, with what is given among them.
The other members have names that are not known, and any values. -/
inductive Members : (first : Bool) → List γ → Bytes → Prop
  | close {first : Bool} {gap : Bytes} : Blanks gap → Members first [] (gap ++ [0x7d])
  | known {first : Bool} {given : γ} {givens : List γ} {gap lead before octets rest : Bytes} :
      Blanks gap → Names (v.name given) lead → Blanks before → v.Spelled given octets →
      Members false givens rest →
      Members first (given :: givens)
        (gap ++ (separator first ++ (lead ++ (before ++ (octets ++ rest)))))
  | unknown {first : Bool} {name : String} {givens : List γ}
      {gap lead before octets rest : Bytes} :
      Blanks gap → (∀ given, v.name given ≠ name) → Names name lead → Blanks before →
      Forms .value octets → Members false givens rest →
      Members first givens (gap ++ (separator first ++ (lead ++ (before ++ (octets ++ rest)))))

/-- The octets are an object that gives these fields, in this order. -/
def Object (givens : List γ) (octets : Bytes) : Prop :=
  ∃ behind, octets = 0x7b :: behind ∧ v.Members true givens behind

/-- The text holds such an object and nothing else. -/
def Text (givens : List γ) (text : Bytes) : Prop :=
  ∃ before octets after, Blanks before ∧ v.Object givens octets ∧ Blanks after ∧
    text = before ++ (octets ++ after)

/-- The fields of a record are those of its vocabulary, and putting one leaves the others. -/
structure Describes (fields : List (Field ρ)) : Prop where
  known : ∀ given, ∃ field, fields.find? (·.name == v.name given) = some field ∧
    ∀ gap octets, Blanks gap → v.Spelled given octets → Gives field.read (gap ++ octets)
      (if v.sound given then .ok (v.put given) else .error .mismatched)
  named : ∀ field ∈ fields, ∃ given, v.name given = field.name
  comm : ∀ given other, v.name given ≠ v.name other → ∀ value,
    v.put given (v.put other value) = v.put other (v.put given value)

/-! ## The order does not matter -/

variable {v}

theorem Distinct.perm {givens others : List γ} (h : v.Distinct givens)
    (hperm : givens.Perm others) : v.Distinct others :=
  ⟨(hperm.map v.name).nodup_iff.mp h.1, fun given hm => h.2 given (hperm.mem_iff.mpr hm)⟩

theorem Describes.overlay_perm {fields : List (Field ρ)} (hv : v.Describes fields)
    {givens others : List γ} (h : v.Distinct givens) (hperm : givens.Perm others) (value : ρ) :
    v.overlay givens value = v.overlay others value := by
  apply hperm.foldl_eq'
  intro given hgiven other hother value
  by_cases heq : v.name given = v.name other
  · rw [List.inj_on_of_nodup_map h.1 hgiven hother heq]
  · exact (hv.comm given other heq value).symm

/-! ## Reading -/

/-- Nothing is given that was seen before, and nothing twice. -/
def accepts (v : Vocabulary ρ γ) : (seen : List String) → List γ → Bool
  | _, [] => true
  | seen, given :: givens =>
    v.name given ∉ seen && v.sound given && v.accepts (v.name given :: seen) givens

theorem accepts_iff {seen : List String} {givens : List γ} :
    v.accepts seen givens = true ↔ (∀ given ∈ givens, v.name given ∉ seen) ∧ v.Distinct givens := by
  induction givens generalizing seen with
  | nil => simp [accepts, Distinct]
  | cons given givens ih =>
      simp only [accepts, Bool.and_eq_true, decide_eq_true_eq, ih, Distinct, List.mem_cons,
        List.map_cons, List.nodup_cons, List.mem_map]
      grind

/-- What reading a record comes to. -/
def verdict (v : Vocabulary ρ γ) (seen : List String) (givens : List γ) (value : ρ) :
    Except Fault ρ :=
  if v.accepts seen givens then .ok (v.overlay givens value) else .error .mismatched

theorem verdict_of_distinct {givens : List γ} (h : v.Distinct givens) (value : ρ) :
    v.verdict [] givens value = .ok (v.overlay givens value) :=
  if_pos (accepts_iff.mpr ⟨by simp, h⟩)

theorem verdict_of_not_distinct {givens : List γ} (h : ¬ v.Distinct givens) (value : ρ) :
    v.verdict [] givens value = .error .mismatched :=
  if_neg fun haccepts => h (accepts_iff.mp haccepts).2

end Vocabulary

theorem readName_close (first : Bool) {gap : Bytes} (hgap : Blanks gap) (rest : Bytes) :
    readName first (gap ++ 0x7d :: rest) = .ok (none, rest) := by
  rw [readName, skipBlank_append_cons hgap rfl]
  rfl

/-- A name is read, and the colon behind it. -/
theorem Names.readName_eq {name : String} {lead : Bytes} (h : Names name lead) (first : Bool)
    {gap : Bytes} (hgap : Blanks gap) (rest : Bytes) :
    ∃ behind, readColon behind = .ok rest ∧
      readName first (gap ++ (separator first ++ (lead ++ rest))) = .ok (some name, behind) := by
  obtain ⟨before, octets, after, hbefore, ⟨content, rfl, hcontent⟩, hafter, rfl⟩ := h
  refine ⟨after ++ 0x3a :: rest, ?_, ?_⟩
  · rw [readColon, skipBlank_append_cons hafter rfl]
    rfl
  · have hname : skipBlank (before ++ (quoted content ++ (after ++ [0x3a])) ++ rest) =
        0x22 :: (content ++ 0x22 :: (after ++ 0x3a :: rest)) := by
      simp only [quoted, List.append_assoc, List.cons_append, List.nil_append]
      exact skipBlank_append_cons hbefore rfl _
    cases first with
    | true =>
        rw [readName, skipBlank_append hgap, show separator true = [] from rfl, List.nil_append,
          hname]
        simp [hcontent.readString_eq, Except.map]
    | false =>
        rw [readName, show separator false = [0x2c] from rfl, List.singleton_append,
          skipBlank_append_cons hgap rfl]
        simp only [hname]
        simp [hcontent.readString_eq, Except.map]

namespace Vocabulary

variable {ρ γ : Type} {v : Vocabulary ρ γ} {fields : List (Field ρ)}

theorem Members.stops {givens : List γ} {bytes : Bytes} (h : v.Members false givens bytes)
    (rest : Bytes) : Stops (bytes ++ rest) := by
  cases h with
  | close hgap =>
      rw [List.append_assoc]
      exact hgap.stops (stops_cons (by decide) _)
  | known hgap _ _ _ _ =>
      rw [List.append_assoc]
      exact hgap.stops (stops_cons (by decide) _)
  | unknown hgap _ _ _ _ _ =>
      rw [List.append_assoc]
      exact hgap.stops (stops_cons (by decide) _)

theorem Describes.find?_eq_none (hv : v.Describes fields) {name : String}
    (h : ∀ given, v.name given ≠ name) : fields.find? (·.name == name) = none := by
  rw [List.find?_eq_none]
  intro field hm hname
  obtain ⟨given, hgiven⟩ := hv.named field hm
  exact h given (hgiven.trans (eq_of_beq hname))

theorem length_pos_of_names {name : String} {lead : Bytes} (h : Names name lead) :
    0 < lead.length := by
  obtain ⟨before, octets, after, -, -, -, rfl⟩ := h
  simp

/-- One member is read: its name first, and then either the value of its field or any value. -/
theorem recordMembers_cons (fields : List (Field ρ)) {name : String} {lead : Bytes}
    (h : Names name lead) {first : Bool} {gap : Bytes} (hgap : Blanks gap) (turns : Nat)
    (seen : List String) (value : ρ) (rest : Bytes) :
    recordMembers fields (turns + 1) first seen value
        (gap ++ (separator first ++ (lead ++ rest))) =
      (fields.find? (·.name == name)).elim
        ((skipValue rest).bind (recordMembers fields turns false seen value))
        fun field => if name ∈ seen then .error .mismatched else (field.read rest).bind fun next =>
          recordMembers fields turns false (name :: seen) (next.1 value) next.2 := by
  obtain ⟨behind, hcolon, hname⟩ := h.readName_eq first hgap rest
  rw [recordMembers, hname]
  dsimp only
  cases fields.find? (·.name == name) with
  | none =>
      simp only [hcolon, Option.elim_none]
      cases skipValue rest <;> rfl
  | some field =>
      simp only [hcolon, Option.elim_some]
      split
      · rfl
      · cases field.read rest <;> rfl

/-- The members are read to the end of the object, unless one of them is given twice. The induction
is on the members; what was seen before them grows on the way. -/
theorem Describes.recordMembers_eq (hv : v.Describes fields) {first : Bool} {givens : List γ}
    {bytes : Bytes} (h : v.Members first givens bytes) {turns : Nat} (hturns : bytes.length < turns)
    (seen : List String) (value : ρ) (rest : Bytes) :
    recordMembers fields turns first seen value (bytes ++ rest) =
      (v.verdict seen givens value).map (·, rest) := by
  induction h generalizing turns seen value with
  | close hgap =>
      obtain ⟨turns, rfl⟩ := Nat.exists_eq_add_one_of_ne_zero (Nat.ne_zero_of_lt hturns)
      rw [List.append_assoc, List.singleton_append, recordMembers, readName_close _ hgap]
      rfl
  | @known first given givens gap lead before octets tail hgap hnames hbefore hspelled htail ih =>
      obtain ⟨turns, rfl⟩ := Nat.exists_eq_add_one_of_ne_zero (Nat.ne_zero_of_lt hturns)
      have hlength : tail.length < turns := by
        have := length_pos_of_names hnames
        simp only [List.length_append] at hturns
        omega
      obtain ⟨field, hfield, hread⟩ := hv.known given
      have hvalue := hread before octets hbefore hspelled (tail ++ rest) (htail.stops rest)
      rw [List.append_assoc] at hvalue
      simp only [List.append_assoc]
      rw [recordMembers_cons fields hnames hgap, hfield]
      simp only [Option.elim_some, hvalue, verdict, accepts]
      by_cases hseen : v.name given ∈ seen
      · simp [hseen, Except.map]
      · by_cases hsound : v.sound given = true
        · simp [hseen, hsound, Except.map, Except.bind, ih hlength, verdict, overlay]
        · simp [hseen, hsound, Except.map, Except.bind]
  | @unknown first name givens gap lead before octets tail hgap hnot hnames hbefore hforms htail
      ih =>
      obtain ⟨turns, rfl⟩ := Nat.exists_eq_add_one_of_ne_zero (Nat.ne_zero_of_lt hturns)
      have hlength : tail.length < turns := by
        have := length_pos_of_names hnames
        simp only [List.length_append] at hturns
        omega
      simp only [List.append_assoc]
      rw [recordMembers_cons fields hnames hgap, hv.find?_eq_none hnot, Option.elim_none,
        hforms.skipValue_eq hbefore (htail.stops rest)]
      exact ih hlength seen value

theorem Describes.gives_record (hv : v.Describes fields) {givens : List γ} {octets : Bytes}
    (h : v.Object givens octets) {gap : Bytes} (hgap : Blanks gap) (default : ρ) :
    Gives (record fields default) (gap ++ octets) (v.verdict [] givens default) := by
  intro rest _
  obtain ⟨behind, rfl, hmembers⟩ := h
  have hlength : behind.length < (behind ++ rest).length + 1 := by
    rw [List.length_append]
    omega
  rw [record, List.append_assoc, List.cons_append, skipBlank_append_cons hgap rfl]
  exact hv.recordMembers_eq hmembers hlength [] default rest

theorem Describes.readAll_eq (hv : v.Describes fields) {givens : List γ} {text : Bytes}
    (h : v.Text givens text) (default : ρ) :
    readAll (record fields default) text = v.verdict [] givens default := by
  obtain ⟨before, octets, after, hbefore, hobject, hafter, rfl⟩ := h
  have hend : Stops after := by
    rw [← List.append_nil after]
    exact hafter.stops stops_nil
  have hblank : skipBlank after = [] := by
    rw [← List.append_nil after]
    exact skipBlank_append hafter []
  rw [readAll, ← List.append_assoc, hv.gives_record hobject hbefore default after hend]
  cases v.verdict [] givens default with
  | error fault => rfl
  | ok value => simp [Except.map, hblank]

/-! ## Records as they are written -/

theorem names_writeText (name : String) :
    Names name (Bytes.ofChars (writeText name) ++ [0x3a]) :=
  ⟨[], _, [], blanks_nil, spellsText_writeText name, blanks_nil, rfl⟩

variable {written : γ → List Char}

/-- A member behind others as it is written. -/
theorem Members.write {given : γ} (hgiven : v.Spelled given (Bytes.ofChars (written given)))
    {givens : List γ} {rest : Bytes} (hrest : v.Members false givens rest) (first : Bool) :
    v.Members first (given :: givens) (separator first ++
      (Bytes.ofChars (writeText (v.name given) ++ ':' :: written given) ++ rest)) := by
  have hmember : v.Members first (given :: givens) _ :=
    .known blanks_nil (names_writeText (v.name given)) blanks_nil hgiven hrest
  have hcolon : String.utf8EncodeChar ':' = [0x3a] := rfl
  rw [Bytes.ofChars_append, Bytes.ofChars_cons, hcolon]
  simpa using hmember

theorem members_writeRecord {givens : List γ}
    (h : ∀ given ∈ givens, v.Spelled given (Bytes.ofChars (written given))) :
    v.Members false givens (Bytes.ofChars (givens.flatMap fun given =>
      ',' :: writeText (v.name given) ++ ':' :: written given) ++ [0x7d]) := by
  induction givens with
  | nil => exact .close blanks_nil
  | cons given givens ih =>
      obtain ⟨hgiven, hgivens⟩ := List.forall_mem_cons.mp h
      have hmember := (ih hgivens).write hgiven false
      rw [List.flatMap_cons, Bytes.ofChars_append, List.append_assoc]
      exact hmember

/-- A record is written as a text of all the fields that are given. -/
theorem object_writeRecord {givens : List γ}
    (h : ∀ given ∈ givens, v.Spelled given (Bytes.ofChars (written given))) :
    v.Object givens (Bytes.ofChars
      (writeRecord (givens.map fun given => (v.name given, written given)))) := by
  cases givens with
  | nil => exact ⟨[0x7d], rfl, .close blanks_nil⟩
  | cons given givens =>
      obtain ⟨hgiven, hgivens⟩ := List.forall_mem_cons.mp h
      refine ⟨_, ?_, (members_writeRecord hgivens).write hgiven true⟩
      rw [List.map_cons, writeRecord, List.flatMap_map, Bytes.ofChars_append, Bytes.ofChars_append,
        List.append_assoc, List.cons_append, Bytes.ofChars_cons]
      rfl

theorem Object.text {givens : List γ} {octets : Bytes} (h : v.Object givens octets) :
    v.Text givens octets :=
  ⟨[], octets, [], blanks_nil, h, blanks_nil, (List.append_nil octets).symm⟩

end Vocabulary

end ThingHub.Json
