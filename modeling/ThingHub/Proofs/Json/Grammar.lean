import Mathlib.Data.List.DropRight
import ThingHub.Json.Record
import ThingHub.Proofs.Json.RoundTrip

/-! # The grammar of JSON texts

Which octets are a value, whatever it means, and which octets spell a text or another scalar. The
parts of a value may stand apart by blanks, names and strings may be written with escapes. A value
that is only passed over is skipped to its end, whatever stands in it and however deep it goes. -/

namespace ThingHub.Json

/-! ## Blanks -/

def Blanks (gap : Bytes) : Prop := ∀ b ∈ gap, isBlank b = true

instance (gap : Bytes) : Decidable (Blanks gap) :=
  List.decidableBAll (fun b => isBlank b = true) gap

theorem blanks_nil : Blanks [] := by simp [Blanks]

theorem skipBlank_append {gap : Bytes} (h : Blanks gap) (rest : Bytes) :
    skipBlank (gap ++ rest) = skipBlank rest := by
  induction gap with
  | nil => rfl
  | cons b gap ih =>
      obtain ⟨hb, hgap⟩ := List.forall_mem_cons.mp h
      rw [List.cons_append, skipBlank, List.dropWhile_cons_of_pos hb]
      exact ih hgap

theorem skipBlank_append_cons {gap : Bytes} (h : Blanks gap) {b : UInt8} (hb : isBlank b = false)
    (rest : Bytes) : skipBlank (gap ++ b :: rest) = b :: rest := by
  rw [skipBlank_append h, skipBlank_cons hb]

theorem skipBlank_skipBlank (bytes : Bytes) : skipBlank (skipBlank bytes) = skipBlank bytes :=
  List.dropWhile_idempotent _ _

theorem stops_of_isBlank {b : UInt8} (h : isBlank b = true) :
    isDigit b = false ∧ b ≠ 0x2e ∧ b ≠ 0x65 ∧ b ≠ 0x45 := by
  simp only [isBlank, Bool.or_eq_true, beq_iff_eq] at h
  rcases h with ((rfl | rfl) | rfl) | rfl <;> decide

/-- A number ends before blanks. -/
theorem Blanks.stops {gap : Bytes} (h : Blanks gap) {rest : Bytes} (hrest : Stops rest) :
    Stops (gap ++ rest) := by
  cases gap with
  | nil => exact hrest
  | cons b gap => exact stops_cons (stops_of_isBlank (h b List.mem_cons_self)) _

/-! ## Strings -/

/-- The octets between the quotes of a string, and the octets that they mean. -/
inductive Spells : Bytes → Bytes → Prop
  | nil : Spells [] []
  | plain {b : UInt8} {content meant : Bytes} :
      IsPlain b → Spells content meant → Spells (b :: content) (b :: meant)
  | letter {e b : UInt8} {content meant : Bytes} :
      escaped? e = some b → Spells content meant → Spells (0x5c :: e :: content) (b :: meant)
  | unit {a b c d : UInt8} {n : Nat} {content meant : Bytes} :
      hex4? a b c d = some n → isLeadingSurrogate n = false → isTrailingSurrogate n = false →
      Spells content meant →
      Spells (0x5c :: 0x75 :: a :: b :: c :: d :: content)
        (String.utf8EncodeChar (Char.ofNat n) ++ meant)
  | pair {a b c d e f g h : UInt8} {n m : Nat} {content meant : Bytes} :
      hex4? a b c d = some n → isLeadingSurrogate n = true →
      hex4? e f g h = some m → isTrailingSurrogate m = true → Spells content meant →
      Spells (0x5c :: 0x75 :: a :: b :: c :: d :: 0x5c :: 0x75 :: e :: f :: g :: h :: content)
        (String.utf8EncodeChar
          (Char.ofNat (0x10000 + (n - 0xd800) * 0x400 + (m - 0xdc00))) ++ meant)

/-- The octets between the quotes of a string that nobody reads: surrogates need no partner. -/
inductive Content : Bytes → Prop
  | nil : Content []
  | plain {b : UInt8} {content : Bytes} : IsPlain b → Content content → Content (b :: content)
  | letter {e : UInt8} {content : Bytes} :
      (escaped? e).isSome = true → Content content → Content (0x5c :: e :: content)
  | unit {a b c d : UInt8} {content : Bytes} :
      (hex4? a b c d).isSome = true → Content content →
      Content (0x5c :: 0x75 :: a :: b :: c :: d :: content)

/-- A string with its quotes. -/
def quoted (content : Bytes) : Bytes := 0x22 :: (content ++ [0x22])

/-- The octets are a string, and it means this text. -/
def SpellsText (text : String) (octets : Bytes) : Prop :=
  ∃ content, octets = quoted content ∧ Spells content (Bytes.ofText text)

theorem readEscape_letter {e b : UInt8} (h : escaped? e = some b) (rest : Bytes) :
    readEscape (e :: rest) = .ok ([b], rest) := by
  have hne : e ≠ 0x75 := by
    rintro rfl
    exact absurd h (by simp [escaped?])
  rw [readEscape, if_neg hne, h]

theorem readEscape_unit {a b c d : UInt8} {n : Nat} (hn : hex4? a b c d = some n)
    (hleading : isLeadingSurrogate n = false) (htrailing : isTrailingSurrogate n = false)
    (rest : Bytes) : readEscape (0x75 :: a :: b :: c :: d :: rest) =
      .ok (String.utf8EncodeChar (Char.ofNat n), rest) := by
  rw [readEscape, if_pos rfl, readCode, readUnit, hn]
  simp [hleading, htrailing, Except.map]

theorem readEscape_pair {a b c d e f g h : UInt8} {n m : Nat} (hn : hex4? a b c d = some n)
    (hleading : isLeadingSurrogate n = true) (hm : hex4? e f g h = some m)
    (htrailing : isTrailingSurrogate m = true) (rest : Bytes) :
    readEscape (0x75 :: a :: b :: c :: d :: 0x5c :: 0x75 :: e :: f :: g :: h :: rest) =
      .ok (String.utf8EncodeChar
        (Char.ofNat (0x10000 + (n - 0xd800) * 0x400 + (m - 0xdc00))), rest) := by
  have hnot : isTrailingSurrogate n = false := by
    simp only [isLeadingSurrogate, isTrailingSurrogate, Bool.and_eq_true, Bool.and_eq_false_iff,
      decide_eq_true_eq, decide_eq_false_iff_not] at *
    omega
  rw [readEscape, if_pos rfl, readCode, readUnit, hn]
  simp [hnot, hleading, expect, readUnit, hm, htrailing, Except.map]

/-- A string is read to its closing quote. -/
theorem Spells.readContent_eq {content meant : Bytes} (h : Spells content meant)
    (found rest : Bytes) :
    readContent found (content ++ 0x22 :: rest) = .ok (found.reverse ++ meant, rest) := by
  induction h generalizing found with
  | nil =>
      rw [List.nil_append, readContent, if_pos rfl, List.append_nil]
  | plain hplain _ ih =>
      rw [List.cons_append, readContent_cons_plain hplain, ih]
      simp
  | letter hletter _ ih =>
      rw [List.cons_append, List.cons_append, readContent_escape (readEscape_letter hletter _), ih]
      simp
  | unit hn hleading htrailing _ ih =>
      simp only [List.cons_append]
      rw [readContent_escape (readEscape_unit hn hleading htrailing _), ih]
      simp
  | pair hn hleading hm htrailing _ ih =>
      simp only [List.cons_append]
      rw [readContent_escape (readEscape_pair hn hleading hm htrailing _), ih]
      simp

theorem text?_ofText (text : String) : Bytes.text? (Bytes.ofText text) = some text := by
  rw [Bytes.ofText, Bytes.text?_ofChars, String.ofList_toList]

/-- A text is read from every spelling of it. -/
theorem Spells.readString_eq {content : Bytes} {text : String}
    (h : Spells content (Bytes.ofText text)) (rest : Bytes) :
    readString (content ++ 0x22 :: rest) = .ok (text, rest) := by
  rw [readString, h.readContent_eq]
  simp [text?_ofText]

/-- A text is spelled as it is written. -/
theorem spells_writeChar (c : Char) {content meant : Bytes} (h : Spells content meant) :
    Spells (Bytes.ofChars (writeChar c) ++ content) (String.utf8EncodeChar c ++ meant) := by
  have hplain : ∀ octets : Bytes, (∀ b ∈ octets, IsPlain b) →
      Spells (octets ++ content) (octets ++ meant) := by
    intro octets hoctets
    induction octets with
    | nil => exact h
    | cons b octets ih =>
        obtain ⟨hb, hoctets⟩ := List.forall_mem_cons.mp hoctets
        exact .plain hb (ih hoctets)
  unfold writeChar
  split
  · exact .letter rfl h
  · exact .letter rfl h
  · exact .letter rfl h
  · exact .letter rfl h
  · exact .letter rfl h
  · exact .letter rfl h
  · exact .letter rfl h
  · next hquote hescape _ _ _ _ _ =>
      split
      · next hcontrol =>
          have hunit := hex4?_hexDigit c.toNat hcontrol
          have hleading : isLeadingSurrogate c.toNat = false := by
            simp [isLeadingSurrogate]
            omega
          have htrailing : isTrailingSurrogate c.toNat = false := by
            simp [isTrailingSurrogate]
            omega
          have hspells := Spells.unit hunit hleading htrailing h
          rw [Char.ofNat_toNat] at hspells
          rw [Bytes.ofChars_cons, ofChars_control hcontrol]
          exact hspells
      · next hcontrol =>
          rw [Bytes.ofChars_cons, show Bytes.ofChars [] = [] from rfl, List.append_nil]
          exact hplain _ fun b hb => isPlain_of_mem_utf8EncodeChar hquote hescape hcontrol hb

theorem spellsText_writeText (text : String) :
    SpellsText text (Bytes.ofChars (writeText text)) := by
  refine ⟨Bytes.ofChars (text.toList.flatMap writeChar), ?_, ?_⟩
  · rw [writeText, List.cons_append, Bytes.ofChars_cons, Bytes.ofChars_append]
    rfl
  · rw [Bytes.ofText]
    induction text.toList with
    | nil => exact .nil
    | cons c chars ih =>
        rw [List.flatMap_cons, Bytes.ofChars_append, Bytes.ofChars_cons]
        exact spells_writeChar c ih

/-! ## Numbers -/

def IsDigits (digits : Bytes) : Prop := digits ≠ [] ∧ ∀ b ∈ digits, isDigit b = true

theorem isDigits_singleton {b : UInt8} (h : isDigit b = true) : IsDigits [b] :=
  ⟨List.cons_ne_nil b [], List.forall_mem_singleton.mpr h⟩

inductive Fraction : Bytes → Prop
  | absent : Fraction []
  | digits {digits : Bytes} : IsDigits digits → Fraction (0x2e :: digits)

inductive Exponent : Bytes → Prop
  | absent : Exponent []
  | digits {e : UInt8} {sign digits : Bytes} : e = 0x65 ∨ e = 0x45 →
      sign ∈ [[], [0x2b], [0x2d]] → IsDigits digits → Exponent (e :: (sign ++ digits))

inductive Unsigned : Bytes → Prop
  | parts {whole fraction exponent : Bytes} :
      IsWhole whole → Fraction fraction → Exponent exponent →
      Unsigned (whole ++ (fraction ++ exponent))

/-! ## Scalars that are asked for -/

/-- The octets spell this scalar. The only numbers here are naturals that fit 64 bits. -/
inductive Scalar : Json → Bytes → Prop
  | null : Scalar .null Json.null.encode
  | bool (value : Bool) : Scalar (.bool value) (Json.bool value).encode
  | natural {n : Nat} :
      n < 2 ^ 64 → Scalar (.number (.int n)) (Bytes.ofChars (Nat.toDigits 10 n))
  | string {text : String} {octets : Bytes} :
      SpellsText text octets → Scalar (.string text) octets

theorem writeInt_natCast (n : Nat) : writeInt n = Nat.toDigits 10 n :=
  if_neg (Int.not_lt.mpr (Int.natCast_nonneg n))

theorem readScalar_natural {n : Nat} (h : n < 2 ^ 64) :
    ∃ b bytes, Bytes.ofChars (Nat.toDigits 10 n) = b :: bytes ∧ isDigit b = true ∧
      Gives (readScalar b) bytes (.ok (.number (.int n))) := by
  have hlow : -2 ^ 63 ≤ (n : Int) := by omega
  obtain ⟨b, bytes, hbytes, -, hgives⟩ := readScalar_writeInt hlow (by exact_mod_cast h)
  rw [writeInt_natCast] at hbytes
  have hdigit := (isWhole_toDigits n).isDigit b (hbytes ▸ List.mem_cons_self)
  exact ⟨b, bytes, hbytes, hdigit, hgives⟩

theorem Scalar.readScalar_eq {value : Json} {octets : Bytes} (h : Scalar value octets) :
    ∃ b bytes, octets = b :: bytes ∧ isBlank b = false ∧ ¬ (b = 0x5b ∨ b = 0x7b) ∧
      Gives (readScalar b) bytes (.ok value) := by
  cases h with
  | null => exact ⟨_, _, rfl, rfl, by decide, fun rest _ => rfl⟩
  | bool value =>
      cases value with
      | true => exact ⟨_, _, rfl, rfl, by decide, fun rest _ => rfl⟩
      | false => exact ⟨_, _, rfl, rfl, by decide, fun rest _ => rfl⟩
  | natural hn =>
      obtain ⟨b, bytes, hbytes, hdigit, hgives⟩ := readScalar_natural hn
      refine ⟨b, bytes, hbytes, isBlank_of_isDigit hdigit, ?_, hgives⟩
      exact not_or_intro (ne_of_isDigit hdigit rfl) (ne_of_isDigit hdigit rfl)
  | string hspells =>
      obtain ⟨content, rfl, hcontent⟩ := hspells
      refine ⟨0x22, content ++ [0x22], rfl, rfl, by decide, fun rest _ => ?_⟩
      show (readString (content ++ [0x22] ++ rest)).map _ = _
      rw [List.append_assoc, List.singleton_append, hcontent.readString_eq]
      rfl

/-- A scalar is read as what is made of it, behind any blanks. -/
theorem Scalar.gives_readKind {α : Type} {value : Json} {octets : Bytes} (h : Scalar value octets)
    {take : Json → Option α} {a : α} (htake : take value = some a) {gap : Bytes}
    (hgap : Blanks gap) : Gives (readKind take) (gap ++ octets) (.ok a) := by
  intro rest hrest
  obtain ⟨b, bytes, rfl, hblank, hopen, hgives⟩ := h.readScalar_eq
  rw [readKind, List.append_assoc, List.cons_append, skipBlank_append_cons hgap hblank]
  dsimp only
  rw [if_neg hopen, hgives rest hrest]
  simp only [Except.map, htake]

/-! ## Values -/

/-- The octets that open and that close an array or an object. -/
def Frame.opening : Frame → UInt8
  | array => 0x5b
  | object => 0x7b

def Frame.closing : Frame → UInt8
  | array => 0x5d
  | object => 0x7d

/-- What stands before a value in an array or in an object: nothing, or a name and a colon. -/
inductive Lead : Frame → Bytes → Prop
  | array : Lead .array []
  | object {before content after : Bytes} : Blanks before → Content content → Blanks after →
      Lead .object (before ++ (quoted content ++ (after ++ [0x3a])))

/-- The pieces of texts: a value, the items of an array or object up to its end, and what is left
of one behind an item. -/
inductive Piece
  | value
  | items (frame : Frame)
  | rest (frame : Frame)

/-- The octets are such a piece of a JSON text. -/
inductive Forms : Piece → Bytes → Prop
  | null : Forms .value Json.null.encode
  | bool (value : Bool) : Forms .value (Json.bool value).encode
  | unsigned {octets : Bytes} : Unsigned octets → Forms .value octets
  | negative {octets : Bytes} : Unsigned octets → Forms .value (0x2d :: octets)
  | string {content : Bytes} : Content content → Forms .value (quoted content)
  | empty (frame : Frame) {gap : Bytes} :
      Blanks gap → Forms .value (frame.opening :: (gap ++ [frame.closing]))
  | filled {frame : Frame} {octets : Bytes} :
      Forms (.items frame) octets → Forms .value (frame.opening :: octets)
  | item {frame : Frame} {lead before octets after rest : Bytes} :
      Lead frame lead → Blanks before → Forms .value octets → Blanks after →
      Forms (.rest frame) rest →
      Forms (.items frame) (lead ++ (before ++ (octets ++ (after ++ rest))))
  | more {frame : Frame} {octets : Bytes} :
      Forms (.items frame) octets → Forms (.rest frame) (0x2c :: octets)
  | close (frame : Frame) : Forms (.rest frame) [frame.closing]

end ThingHub.Json
