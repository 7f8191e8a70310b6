import ThingHub.Data.Bytes

/-! # Octets of texts

A text reads back from its octets. Below `0x80` a character is its own octet; above, all of
its octets are at least `0x80`, so none of them is taken for a character of its own. -/

namespace ThingHub.Bytes

theorem ofChars_cons (c : Char) (chars : List Char) :
    ofChars (c :: chars) = String.utf8EncodeChar c ++ ofChars chars := rfl

theorem ofChars_append (front back : List Char) :
    ofChars (front ++ back) = ofChars front ++ ofChars back :=
  List.flatMap_append

theorem text?_ofChars (chars : List Char) :
    text? (ofChars chars) = some (String.ofList chars) :=
  dif_pos ByteArray.isValidUTF8_utf8Encode

theorem utf8EncodeChar_of_lt {c : Char} (h : c.toNat < 0x80) :
    String.utf8EncodeChar c = [UInt8.ofNat c.toNat] :=
  if_pos (Nat.le_of_lt_succ h)

theorem le_ofNat {n : Nat} (h : 0x80 ≤ n) (hn : n < 0x100) : 0x80 ≤ UInt8.ofNat n := by
  rw [UInt8.le_iff_toNat_le, UInt8.toNat_ofNat', Nat.mod_eq_of_lt hn]
  exact h

theorem le_of_mem_utf8EncodeChar {c : Char} (h : 0x80 ≤ c.toNat) {b : UInt8}
    (hb : b ∈ String.utf8EncodeChar c) : 0x80 ≤ b := by
  have hv : ¬ c.val.toNat ≤ 127 := Nat.not_le_of_lt h
  simp only [String.utf8EncodeChar, if_neg hv] at hb
  split at hb
  · simp only [List.mem_cons, List.not_mem_nil, or_false] at hb
    rcases hb with rfl | rfl <;> exact le_ofNat (by omega) (by omega)
  · split at hb
    · simp only [List.mem_cons, List.not_mem_nil, or_false] at hb
      rcases hb with rfl | rfl | rfl <;> exact le_ofNat (by omega) (by omega)
    · simp only [List.mem_cons, List.not_mem_nil, or_false] at hb
      rcases hb with rfl | rfl | rfl | rfl <;> exact le_ofNat (by omega) (by omega)

/-! ## Octets cut short -/

/-- The octets that are left when a sequence is cut before its end. -/
def Cuts (front whole : Bytes) : Prop := front <+: whole ∧ front ≠ whole

theorem not_cuts_nil (front : Bytes) : ¬ Cuts front [] :=
  fun ⟨hfront, hne⟩ => hne (List.prefix_nil.mp hfront)

theorem cuts_cons_iff {front whole : Bytes} {b : UInt8} :
    Cuts front (b :: whole) ↔ front = [] ∨ ∃ left, front = b :: left ∧ Cuts left whole := by
  cases front with
  | nil => simp [Cuts]
  | cons c front =>
      simp only [Cuts, List.cons_prefix_cons, List.cons.injEq, ne_eq, reduceCtorEq, false_or]
      constructor
      · rintro ⟨⟨rfl, hfront⟩, hne⟩
        exact ⟨front, ⟨rfl, rfl⟩, hfront, fun heq => hne ⟨rfl, heq⟩⟩
      · rintro ⟨left, ⟨rfl, rfl⟩, hfront, hne⟩
        exact ⟨⟨rfl, hfront⟩, fun heq => hne heq.2⟩

/-- A cut of two parts is one of the first, or it leaves that whole and is one of the second. -/
theorem cuts_append_iff {front first second : Bytes} :
    Cuts front (first ++ second) ↔
      Cuts front first ∨ ∃ left, front = first ++ left ∧ Cuts left second := by
  induction first generalizing front with
  | nil => simp [not_cuts_nil]
  | cons b first ih =>
      rw [List.cons_append, cuts_cons_iff, cuts_cons_iff]
      simp only [ih, List.cons_append]
      constructor
      · rintro (rfl | ⟨left, rfl, hfirst | ⟨rest, rfl, hsecond⟩⟩)
        · exact .inl (.inl rfl)
        · exact .inl (.inr ⟨left, rfl, hfirst⟩)
        · exact .inr ⟨rest, rfl, hsecond⟩
      · rintro ((rfl | ⟨left, rfl, hfirst⟩) | ⟨rest, rfl, hsecond⟩)
        · exact .inl rfl
        · exact .inr ⟨left, rfl, .inl hfirst⟩
        · exact .inr ⟨first ++ rest, rfl, .inr ⟨rest, rfl, hsecond⟩⟩

/-! ## The order of texts -/

theorem cons_ofNat_lt_cons_ofNat {m n : Nat} {front back : Bytes} (hm : m < 256) (hn : n < 256) :
    UInt8.ofNat m :: front < UInt8.ofNat n :: back ↔ m < n ∨ m = n ∧ front < back := by
  simp [List.cons_lt_cons_iff, UInt8.lt_iff_toNat_lt, ← UInt8.toNat_inj, Nat.mod_eq_of_lt hm,
    Nat.mod_eq_of_lt hn]

/-- Of two characters the lesser one is told by its octets, whatever follows them. -/
theorem utf8EncodeChar_append_lt {c d : Char} (h : c < d) (front back : Bytes) :
    String.utf8EncodeChar c ++ front < String.utf8EncodeChar d ++ back := by
  have hlt : c.val.toNat < d.val.toNat := UInt32.lt_iff_toNat_lt.mp h
  have hd : d.val.toNat < 0x110000 := by
    rcases d.valid with hd | ⟨-, hd⟩
    · exact Nat.lt_trans hd (by decide)
    · exact hd
  have hquarter (n : Nat) : n / 4096 = n / 64 / 64 ∧ n / 262144 = n / 64 / 64 / 64 := by omega
  unfold String.utf8EncodeChar
  dsimp only
  rw [(hquarter c.val.toNat).1, (hquarter c.val.toNat).2, (hquarter d.val.toNat).1,
    (hquarter d.val.toNat).2]
  repeat' split
  all_goals
    simp (disch := omega) only [List.cons_append, List.nil_append, cons_ofNat_lt_cons_ofNat]
    omega

/-- Texts are in the order of their octets. -/
theorem ofText_lt_ofText {s t : String} (h : s < t) : ofText s < ofText t := by
  have hless : s.toList < t.toList := String.lt_iff.mp h
  unfold ofText
  generalize s.toList = front at hless
  generalize t.toList = back at hless
  induction hless with
  | @nil d back =>
      have hlength : 0 < (ofChars (d :: back)).length := by
        rw [ofChars_cons, List.length_append, String.length_utf8EncodeChar]
        have := d.utf8Size_pos
        omega
      obtain ⟨b, bytes, hbytes⟩ := List.exists_cons_of_length_pos hlength
      rw [hbytes]
      exact .nil
  | rel hcd => exact utf8EncodeChar_append_lt hcd _ _
  | cons _ ih => exact List.append_left_lt ih

end ThingHub.Bytes
