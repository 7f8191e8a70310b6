import ThingHub.Pem.Base64

/-! # Base 64 read back

Octets come back from the letters that they are written with, however the letters are spread over
lines and blanks, and no other signs than letters and padding at the end are ever read. -/

namespace ThingHub.Base64

/-! ## Letters -/

theorem value?_letter : ∀ n < 64, value? (letter n) = some n := by decide

theorem letter_ne_pad : ∀ n < 64, letter n ≠ 0x3d := by decide

theorem letter_ne_dash : ∀ n < 64, letter n ≠ 0x2d := by decide

theorem ne_pad_of_isSome {b : UInt8} (h : (value? b).isSome = true) : b ≠ 0x3d := by
  rintro rfl
  exact absurd h (by decide)

/-! ## Octets as numbers of six bits -/

/-- The numbers that octets are written as. -/
def digits : Bytes → List Nat
  | a :: b :: c :: rest =>
    a.toNat / 4 :: (a.toNat % 4 * 16 + b.toNat / 16) :: (b.toNat % 16 * 4 + c.toNat / 64) ::
      c.toNat % 64 :: digits rest
  | [a, b] => [a.toNat / 4, a.toNat % 4 * 16 + b.toNat / 16, b.toNat % 16 * 4]
  | [a] => [a.toNat / 4, a.toNat % 4 * 16]
  | [] => []

/-- The signs that fill the last group of four. -/
def padding : Bytes → Bytes
  | _ :: _ :: _ :: rest => padding rest
  | [_, _] => [0x3d]
  | [_] => [0x3d, 0x3d]
  | [] => []

theorem encode_eq (der : Bytes) : encode der = (digits der).map letter ++ padding der := by
  fun_induction digits der with
  | case1 a b c rest ih => simp [encode, padding, ih]
  | case2 a b => rfl
  | case3 a => rfl
  | case4 => rfl

theorem digits_lt (der : Bytes) : ∀ n ∈ digits der, n < 64 := by
  fun_induction digits der with
  | case1 a b c rest ih =>
      have ha := a.toNat_lt
      have hb := b.toNat_lt
      have hc := c.toNat_lt
      simp only [List.forall_mem_cons]
      exact ⟨by omega, by omega, by omega, by omega, ih⟩
  | case2 a b =>
      have ha := a.toNat_lt
      have hb := b.toNat_lt
      simp only [List.forall_mem_cons]
      exact ⟨by omega, by omega, by omega, by simp⟩
  | case3 a =>
      have ha := a.toNat_lt
      simp only [List.forall_mem_cons]
      exact ⟨by omega, by omega, by simp⟩
  | case4 => simp

/-- Four numbers hold three octets. -/
theorem octets_digits (der : Bytes) : octets (digits der) = der := by
  have hfirst (a b : UInt8) :
      UInt8.ofNat (a.toNat / 4 * 4 + (a.toNat % 4 * 16 + b.toNat / 16) / 16) = a := by
    have hb := b.toNat_lt
    rw [show a.toNat / 4 * 4 + (a.toNat % 4 * 16 + b.toNat / 16) / 16 = a.toNat by omega]
    exact UInt8.ofNat_toNat
  have hsecond (a b c : UInt8) : UInt8.ofNat ((a.toNat % 4 * 16 + b.toNat / 16) % 16 * 16 +
      (b.toNat % 16 * 4 + c.toNat / 64) / 4) = b := by
    have hb := b.toNat_lt
    have hc := c.toNat_lt
    rw [show (a.toNat % 4 * 16 + b.toNat / 16) % 16 * 16 + (b.toNat % 16 * 4 + c.toNat / 64) / 4 =
      b.toNat by omega]
    exact UInt8.ofNat_toNat
  have hthird (b c : UInt8) :
      UInt8.ofNat ((b.toNat % 16 * 4 + c.toNat / 64) % 4 * 64 + c.toNat % 64) = c := by
    have hc := c.toNat_lt
    rw [show (b.toNat % 16 * 4 + c.toNat / 64) % 4 * 64 + c.toNat % 64 = c.toNat by omega]
    exact UInt8.ofNat_toNat
  fun_induction digits der with
  | case1 a b c rest ih => rw [octets, hfirst, hsecond, hthird, ih]
  | case2 a b =>
      have hzero := hsecond a b 0
      rw [show (0 : UInt8).toNat / 64 = 0 from rfl, Nat.add_zero] at hzero
      rw [octets, hfirst, hzero]
  | case3 a =>
      have hzero := hfirst a 0
      rw [show (0 : UInt8).toNat / 16 = 0 from rfl, Nat.add_zero] at hzero
      rw [octets, hzero]
  | case4 => rfl

theorem fits_add_four (letters pad : Nat) : fits (letters + 4) pad = fits letters pad := by
  have hsum : (letters + 4 + pad) % 4 = (letters + pad) % 4 := by omega
  rw [fits, fits, Nat.add_mod_right, hsum]

theorem fits_digits (der : Bytes) : fits (digits der).length (padding der).length = true := by
  fun_induction digits der with
  | case1 a b c rest ih =>
      simp only [List.length_cons, padding, Nat.add_assoc, fits_add_four]
      exact ih
  | case2 a b => simp [padding, fits]
  | case3 a => simp [padding, fits]
  | case4 => rfl

theorem padding_eq (der : Bytes) : ∀ b ∈ padding der, b = 0x3d := by
  fun_induction padding der with
  | case1 _ _ _ rest ih => exact ih
  | case2 => simp
  | case3 => simp
  | case4 => simp

/-! ## Reading -/

/-- Octets without the blanks. -/
def marks (text : Bytes) : Bytes := text.filter (!isBlank ·)

/-- Letters, then signs that fill the last group, with any blanks between. -/
def WellFormed (text : Bytes) : Prop :=
  ∃ letters pad, marks text = letters ++ pad ∧ (∀ b ∈ letters, (value? b).isSome = true) ∧
    (∀ b ∈ pad, b = 0x3d) ∧ fits letters.length pad.length = true

theorem decode?_eq {text letters pad : Bytes} (hmarks : marks text = letters ++ pad)
    (hletters : ∀ b ∈ letters, b ≠ 0x3d) (hpad : ∀ b ∈ pad, b = 0x3d) :
    decode? text =
      if fits letters.length pad.length then (letters.mapM value?).map octets else none := by
  have hstop : pad.takeWhile (· ≠ 0x3d) = [] ∧ pad.dropWhile (· ≠ 0x3d) = pad := by
    cases pad with
    | nil => exact ⟨rfl, rfl⟩
    | cons b pad => simp [hpad b List.mem_cons_self]
  have hall : pad.all (· = 0x3d) = true := by simpa using hpad
  have hne : ∀ b ∈ letters, decide (b ≠ 0x3d) = true := by simpa using hletters
  have hmarks : text.filter (!isBlank ·) = letters ++ pad := hmarks
  simp only [decode?, hmarks, List.takeWhile_append_of_pos hne, List.dropWhile_append_of_pos hne,
    hstop, List.append_nil, hall, Bool.true_and]

theorem isSome_mapM_iff {letters : Bytes} :
    (letters.mapM value?).isSome = true ↔ ∀ b ∈ letters, (value? b).isSome = true := by
  induction letters with
  | nil => simp
  | cons b letters ih =>
      rw [List.mapM_cons, List.forall_mem_cons, ← ih]
      cases value? b with
      | none => simp
      | some n => cases letters.mapM value? <;> simp

/-- A text is read exactly if it is well-formed. -/
theorem isSome_decode?_iff {text : Bytes} : (decode? text).isSome = true ↔ WellFormed text := by
  constructor
  · intro h
    rw [decode?] at h
    split at h
    · next hfits =>
        rw [Bool.and_eq_true, List.all_eq_true] at hfits
        rw [Option.isSome_map, isSome_mapM_iff] at h
        exact ⟨_, _, List.takeWhile_append_dropWhile.symm, h,
          fun b hb => of_decide_eq_true (hfits.1 b hb), hfits.2⟩
    · cases h
  · rintro ⟨letters, pad, hmarks, hletters, hpad, hfits⟩
    rw [decode?_eq hmarks (fun b hb => ne_pad_of_isSome (hletters b hb)) hpad, if_pos hfits,
      Option.isSome_map, isSome_mapM_iff]
    exact hletters

theorem mapM_value?_letter {numbers : List Nat} (h : ∀ n ∈ numbers, n < 64) :
    (numbers.map letter).mapM value? = some numbers := by
  induction numbers with
  | nil => rfl
  | cons n numbers ih =>
      obtain ⟨hn, hnumbers⟩ := List.forall_mem_cons.mp h
      rw [List.map_cons, List.mapM_cons, value?_letter n hn, ih hnumbers]
      rfl

/-- Octets come back from their letters, wherever blanks stand between. -/
theorem decode?_of_marks {text der : Bytes} (h : marks text = encode der) :
    decode? text = some der := by
  have hletters : ∀ b ∈ (digits der).map letter, b ≠ 0x3d := by
    intro b hb
    obtain ⟨n, hn, rfl⟩ := List.mem_map.mp hb
    exact letter_ne_pad n (digits_lt der n hn)
  rw [decode?_eq (h.trans (encode_eq der)) hletters (padding_eq der), List.length_map,
    if_pos (fits_digits der), mapM_value?_letter (digits_lt der), Option.map_some, octets_digits]

/-- No dash stands among the letters of octets, so that no line of them is taken for a mark. -/
theorem dash_not_mem {text der : Bytes} (h : marks text = encode der) : 0x2d ∉ text := by
  intro hm
  have hmarks : 0x2d ∈ marks text := List.mem_filter.mpr ⟨hm, rfl⟩
  rw [h, encode_eq] at hmarks
  rcases List.mem_append.mp hmarks with hm | hm
  · obtain ⟨n, hn, hletter⟩ := List.mem_map.mp hm
    exact letter_ne_dash n (digits_lt der n hn) hletter
  · exact absurd (padding_eq der _ hm) (by decide)

end ThingHub.Base64
