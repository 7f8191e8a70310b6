/-! Association lists kept in ascending order of their keys, so that a table has one
form and reads out in key order. Putting and erasing change the value under one key
and keep the order. -/

namespace ThingHub

/-- Values under texts. The operations below keep the keys strictly ascending. -/
abbrev Entries (α : Type) := List (String × α)

namespace Entries

variable {α : Type}

def get? (key : String) : Entries α → Option α
  | [] => none
  | (k, v) :: rest => if k = key then some v else get? key rest

/-- Puts a value under a key, in place of the value that was there. -/
def insert (key : String) (value : α) : Entries α → Entries α
  | [] => [(key, value)]
  | (k, v) :: rest =>
    if key = k then (key, value) :: rest
    else if key < k then (key, value) :: (k, v) :: rest
    else (k, v) :: insert key value rest

def erase (key : String) : Entries α → Entries α
  | [] => []
  | (k, v) :: rest => if k = key then rest else (k, v) :: erase key rest

def keys (entries : Entries α) : List String :=
  entries.map Prod.fst

def contains (key : String) (entries : Entries α) : Bool :=
  (get? key entries).isSome

/-- Entries put into an empty table one after the other. -/
def ofList (entries : List (String × α)) : Entries α :=
  entries.foldl (fun table entry => insert entry.1 entry.2 table) []

/-- Puts a value under a key that has none, and leaves a table with the key alone. -/
def insertNew (key : String) (value : α) (entries : Entries α) : Entries α :=
  if contains key entries then entries else insert key value entries

/-- The keys are strictly ascending. -/
def Ordered (entries : Entries α) : Prop :=
  (keys entries).Pairwise (· < ·)

theorem get?_insert_self (key : String) (value : α) (entries : Entries α) :
    get? key (insert key value entries) = some value := by
  induction entries with
  | nil => simp [insert, get?]
  | cons entry rest ih =>
      by_cases h : key = entry.1
      · simp [insert, get?, h]
      · by_cases hl : key < entry.1
        · simp [insert, get?, h, hl]
        · simp [insert, get?, h, hl, Ne.symm h, ih]

theorem get?_insert_of_ne {key other : String} (value : α) (entries : Entries α)
    (h : other ≠ key) : get? other (insert key value entries) = get? other entries := by
  induction entries with
  | nil => simp [insert, get?, Ne.symm h]
  | cons entry rest ih =>
      by_cases he : key = entry.1
      · subst he
        simp [insert, get?, Ne.symm h]
      · by_cases hl : key < entry.1
        · simp [insert, get?, he, hl, Ne.symm h]
        · simp [insert, get?, he, hl, ih]

theorem get?_insert (key other : String) (value : α) (entries : Entries α) :
    get? other (insert key value entries) =
      if other = key then some value else get? other entries := by
  by_cases h : other = key
  · subst h
    simp [get?_insert_self]
  · simp [h, get?_insert_of_ne value entries h]

theorem contains_iff_mem_keys (key : String) (entries : Entries α) :
    contains key entries = true ↔ key ∈ keys entries := by
  induction entries with
  | nil => simp [contains, get?, keys]
  | cons entry rest ih =>
      by_cases h : entry.1 = key
      · simp [contains, get?, keys, h]
      · have hne : key ≠ entry.1 := fun e => h e.symm
        simpa [contains, get?, keys, h, hne] using ih

theorem mem_keys_insert (key : String) (value : α) (entries : Entries α) (other : String) :
    other ∈ keys (insert key value entries) ↔ other = key ∨ other ∈ keys entries := by
  rw [← contains_iff_mem_keys, ← contains_iff_mem_keys]
  by_cases h : other = key
  · simp [contains, get?_insert, h]
  · simp [contains, get?_insert, h]

theorem mem_keys_of_mem_keys_erase {key other : String} {entries : Entries α}
    (h : other ∈ keys (erase key entries)) : other ∈ keys entries := by
  induction entries with
  | nil => exact h
  | cons entry rest ih =>
      by_cases hk : entry.1 = key
      · have hr : other ∈ keys rest := by simpa [erase, hk] using h
        exact List.mem_cons_of_mem _ hr
      · have hr : other = entry.1 ∨ other ∈ keys (erase key rest) := by
          simpa [erase, hk, keys] using h
        rcases hr with rfl | hr
        · exact List.mem_cons_self
        · exact List.mem_cons_of_mem _ (ih hr)

theorem ordered_nil : Ordered ([] : Entries α) := .nil

theorem ordered_insert (key : String) (value : α) {entries : Entries α} (h : Ordered entries) :
    Ordered (insert key value entries) := by
  induction entries with
  | nil => simp [Ordered, insert, keys]
  | cons entry rest ih =>
      obtain ⟨hless, hrest⟩ := List.pairwise_cons.mp h
      by_cases he : key = entry.1
      · rw [insert, if_pos he, he]
        exact List.pairwise_cons.mpr ⟨hless, hrest⟩
      · rw [insert, if_neg he]
        by_cases hl : key < entry.1
        · rw [if_pos hl]
          refine List.pairwise_cons.mpr ⟨?_, h⟩
          intro other hm
          rcases List.mem_cons.mp hm with rfl | hm
          · exact hl
          · exact String.lt_trans hl (hless other hm)
        · rw [if_neg hl]
          refine List.pairwise_cons.mpr ⟨?_, ih hrest⟩
          intro other hm
          rcases (mem_keys_insert key value rest other).mp hm with rfl | hm
          · exact Std.lt_of_le_of_ne (String.not_lt.mp hl) (fun e => he e.symm)
          · exact hless other hm

theorem ordered_erase (key : String) {entries : Entries α} (h : Ordered entries) :
    Ordered (erase key entries) := by
  induction entries with
  | nil => exact h
  | cons entry rest ih =>
      obtain ⟨hless, hrest⟩ := List.pairwise_cons.mp h
      by_cases he : entry.1 = key
      · rw [erase, if_pos he]
        exact hrest
      · rw [erase, if_neg he]
        exact List.pairwise_cons.mpr
          ⟨fun other hm => hless other (mem_keys_of_mem_keys_erase hm), ih hrest⟩

theorem get?_erase {key : String} {entries : Entries α} (h : Ordered entries) (other : String) :
    get? other (erase key entries) = if other = key then none else get? other entries := by
  induction entries with
  | nil => simp [erase, get?]
  | cons entry rest ih =>
      obtain ⟨hless, hrest⟩ := List.pairwise_cons.mp h
      by_cases he : entry.1 = key
      · rw [erase, if_pos he]
        by_cases ho : other = key
        · have habsent : other ∉ keys rest := by
            intro hm
            have := hless other hm
            rw [he, ho] at this
            exact String.lt_irrefl _ this
          rw [if_pos ho]
          rw [← contains_iff_mem_keys] at habsent
          simpa [contains] using habsent
        · have hne : entry.1 ≠ other := fun e => ho (e.symm.trans he)
          simp [get?, ho, hne]
      · rw [erase, if_neg he]
        by_cases ho : entry.1 = other
        · have hne : other ≠ key := fun e => he (ho.trans e)
          simp [get?, ho, hne]
        · simp [get?, ho, ih hrest]

theorem ordered_ofList (list : List (String × α)) : Ordered (ofList list) := by
  have step : ∀ (more : List (String × α)) {table : Entries α}, Ordered table →
      Ordered (more.foldl (fun table entry => insert entry.1 entry.2 table) table) := by
    intro more
    induction more with
    | nil => exact fun h => h
    | cons entry more ih => exact fun h => ih (ordered_insert entry.1 entry.2 h)
  exact step list ordered_nil

end Entries

end ThingHub
