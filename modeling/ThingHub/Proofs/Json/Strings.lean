import ThingHub.Json.Reader
import ThingHub.Json.Writer
import ThingHub.Proofs.Data.Bytes

/-! # Strings read back as they were written

A string is written character by character. Each character, escaped or not, reads back as its
own octets, and the closing quote ends the string. -/

namespace ThingHub.Json

/-! ## Octets that stand for themselves -/

/-- An octet inside a string that is neither the end of it nor of an escape, nor forbidden. -/
def IsPlain (b : UInt8) : Prop := b ≠ 0x22 ∧ b ≠ 0x5c ∧ ¬ b < 0x20

instance (b : UInt8) : Decidable (IsPlain b) := inferInstanceAs (Decidable (_ ∧ _))

theorem readContent_cons_plain {b : UInt8} (h : IsPlain b) (found rest : Bytes) :
    readContent found (b :: rest) = readContent (b :: found) rest := by
  obtain ⟨hquote, hescape, hcontrol⟩ := h
  rw [readContent, if_neg hquote, if_neg hescape, if_neg hcontrol]

theorem readContent_append_plain {octets : Bytes} (h : ∀ b ∈ octets, IsPlain b)
    (found rest : Bytes) :
    readContent found (octets ++ rest) = readContent (octets.reverse ++ found) rest := by
  induction octets generalizing found with
  | nil => rfl
  | cons b octets ih =>
      rw [List.cons_append, readContent_cons_plain (h b List.mem_cons_self),
        ih fun b hm => h b (List.mem_cons_of_mem _ hm)]
      simp

theorem isPlain_iff {b : UInt8} :
    IsPlain b ↔ b.toNat ≠ 0x22 ∧ b.toNat ≠ 0x5c ∧ 0x20 ≤ b.toNat := by
  simp [IsPlain, ← UInt8.toNat_inj, UInt8.le_iff_toNat_le]

theorem isPlain_of_mem_utf8EncodeChar {c : Char} (hquote : c ≠ '"') (hescape : c ≠ '\\')
    (hcontrol : ¬ c.toNat < 0x20) {b : UInt8} (hb : b ∈ String.utf8EncodeChar c) :
    IsPlain b := by
  rw [isPlain_iff]
  by_cases h : c.toNat < 0x80
  · rw [Bytes.utf8EncodeChar_of_lt h] at hb
    obtain rfl := List.mem_singleton.mp hb
    rw [UInt8.toNat_ofNat', Nat.mod_eq_of_lt (Nat.lt_trans h (by decide))]
    refine ⟨?_, ?_, Nat.le_of_not_lt hcontrol⟩
    · exact fun hc => hquote (Char.toNat_inj.mp hc)
    · exact fun hc => hescape (Char.toNat_inj.mp hc)
  · have hle := Bytes.le_of_mem_utf8EncodeChar (Nat.le_of_not_lt h) hb
    have hle : 0x80 ≤ b.toNat := UInt8.le_iff_toNat_le.mp hle
    omega

/-! ## Escapes -/

theorem readContent_escape {bytes octets rest : Bytes}
    (h : readEscape bytes = .ok (octets, rest)) (found : Bytes) :
    readContent found (0x5c :: bytes) = readContent (octets.reverse ++ found) rest := by
  rw [readContent, if_neg (by decide), if_pos rfl]
  split
  · next fault hf =>
      rw [h] at hf
      cases hf
  · next octets' behind hf =>
      rw [h] at hf
      cases hf
      rfl

theorem hex4?_hexDigit : ∀ n < 32, hex4? 0x30 0x30 (UInt8.ofNat (hexDigit (n / 16)).toNat)
    (UInt8.ofNat (hexDigit (n % 16)).toNat) = some n := by
  decide

theorem hexDigit_lt : ∀ n < 16, (hexDigit n).toNat < 0x80 := by
  decide

/-- The octets of an escape by a number, behind its backslash. -/
theorem ofChars_control {n : Nat} (h : n < 0x20) :
    Bytes.ofChars ['u', '0', '0', hexDigit (n / 16), hexDigit (n % 16)] =
      [0x75, 0x30, 0x30, UInt8.ofNat (hexDigit (n / 16)).toNat,
        UInt8.ofNat (hexDigit (n % 16)).toNat] := by
  simp only [Bytes.ofChars_cons, Bytes.utf8EncodeChar_of_lt (hexDigit_lt (n / 16) (by omega)),
    Bytes.utf8EncodeChar_of_lt (hexDigit_lt (n % 16) (by omega))]
  rfl

theorem readEscape_control {c : Char} (h : c.toNat < 0x20) (rest : Bytes) :
    readEscape (Bytes.ofChars
      ['u', '0', '0', hexDigit (c.toNat / 16), hexDigit (c.toNat % 16)] ++ rest) =
        .ok (String.utf8EncodeChar c, rest) := by
  have hunit := hex4?_hexDigit c.toNat h
  have htrailing : isTrailingSurrogate c.toNat = false := by
    simp [isTrailingSurrogate]
    omega
  have hleading : isLeadingSurrogate c.toNat = false := by
    simp [isLeadingSurrogate]
    omega
  rw [ofChars_control h]
  simp only [List.cons_append, List.nil_append]
  rw [readEscape, if_pos rfl, readCode, readUnit, hunit]
  simp [htrailing, hleading, Except.map]

/-- Every character reads back as its own octets. -/
theorem readContent_writeChar (c : Char) (found rest : Bytes) :
    readContent found (Bytes.ofChars (writeChar c) ++ rest) =
      readContent ((String.utf8EncodeChar c).reverse ++ found) rest := by
  unfold writeChar
  split
  · exact readContent_escape rfl found
  · exact readContent_escape rfl found
  · exact readContent_escape rfl found
  · exact readContent_escape rfl found
  · exact readContent_escape rfl found
  · exact readContent_escape rfl found
  · exact readContent_escape rfl found
  · next hquote hescape _ _ _ _ _ =>
      split
      · next hcontrol => exact readContent_escape (readEscape_control hcontrol rest) found
      · next hcontrol =>
          rw [Bytes.ofChars_cons, List.append_assoc]
          exact readContent_append_plain
            (fun b hb => isPlain_of_mem_utf8EncodeChar hquote hescape hcontrol hb) found rest

theorem readContent_flatMap_writeChar (chars : List Char) (found rest : Bytes) :
    readContent found (Bytes.ofChars (chars.flatMap writeChar) ++ 0x22 :: rest) =
      .ok (found.reverse ++ Bytes.ofChars chars, rest) := by
  induction chars generalizing found with
  | nil =>
      show readContent found (0x22 :: rest) = _
      rw [readContent, if_pos rfl]
      simp [Bytes.ofChars]
  | cons c chars ih =>
      rw [List.flatMap_cons, Bytes.ofChars_append, List.append_assoc, readContent_writeChar, ih,
        Bytes.ofChars_cons]
      simp

/-- A text reads back behind its opening quote. -/
theorem readString_writeText (text : String) (rest : Bytes) :
    ∃ bytes, Bytes.ofChars (writeText text) = 0x22 :: bytes ∧
      readString (bytes ++ rest) = .ok (text, rest) := by
  refine ⟨Bytes.ofChars (text.toList.flatMap writeChar ++ ['"']), rfl, ?_⟩
  have hcontent : readContent [] (Bytes.ofChars (text.toList.flatMap writeChar) ++ 0x22 :: rest) =
      .ok (Bytes.ofChars text.toList, rest) := readContent_flatMap_writeChar text.toList [] rest
  have hquote : Bytes.ofChars ['"'] ++ rest = 0x22 :: rest := rfl
  rw [Bytes.ofChars_append, List.append_assoc, hquote, readString, hcontent]
  simp [Bytes.text?_ofChars]

end ThingHub.Json
