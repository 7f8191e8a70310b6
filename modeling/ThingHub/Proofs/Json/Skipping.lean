import Mathlib.Data.List.TakeWhile
import ThingHub.Proofs.Json.Grammar

/-! # Values passed over

A value that nobody asks for is skipped to its end, whatever stands in it and however deep it goes.
The skipper keeps a stack of what is still open, so what is proved of a value holds under every
stack: behind the value, the skipper goes on with that stack. -/

namespace ThingHub.Json

/-! ## Scalars -/

theorem Content.skipString_eq {content : Bytes} (h : Content content) (rest : Bytes) :
    skipString (content ++ 0x22 :: rest) = .ok rest := by
  induction h with
  | nil => rw [List.nil_append, skipString.eq_def]; rfl
  | plain hplain _ ih =>
      obtain ⟨hquote, hescape, hcontrol⟩ := hplain
      rw [List.cons_append, skipString.eq_def]
      simp only [if_neg hquote, if_neg hescape, if_neg hcontrol]
      exact ih
  | @letter e content hletter _ ih =>
      have hne : e ≠ 0x75 := by
        rintro rfl
        exact absurd hletter (by decide)
      rw [List.cons_append, List.cons_append, skipString.eq_def]
      simp [hne, hletter, ih]
  | unit hunit _ ih =>
      simp only [List.cons_append]
      rw [skipString.eq_def]
      simp [hunit, ih]

/-- Digits begin with one, and end where no other follows. -/
theorem IsDigits.exists_cons {digits : Bytes} (h : IsDigits digits) {rest : Bytes}
    (hrest : NoDigit rest) : ∃ b more, digits = b :: more ∧ isDigit b = true ∧
      (more ++ rest).dropWhile isDigit = rest := by
  obtain ⟨hne, hdigits⟩ := h
  obtain ⟨b, more, rfl⟩ := List.exists_cons_of_ne_nil hne
  obtain ⟨hb, hmore⟩ := List.forall_mem_cons.mp hdigits
  exact ⟨b, more, rfl, hb, (hrest.span hmore).2⟩

theorem IsDigits.skipExponent_eq {digits : Bytes} (h : IsDigits digits) {sign : Bytes}
    (hsign : sign ∈ [[], [0x2b], [0x2d]]) {rest : Bytes} (hrest : NoDigit rest) :
    skipExponent (sign ++ (digits ++ rest)) = .ok rest := by
  obtain ⟨b, more, rfl, hb, hdrop⟩ := h.exists_cons hrest
  have hne : ¬ (b = 0x2b ∨ b = 0x2d) := by
    rintro (rfl | rfl)
    · exact absurd hb (by decide)
    · exact absurd hb (by decide)
  simp only [List.mem_cons, List.not_mem_nil, or_false] at hsign
  rcases hsign with rfl | rfl | rfl
  · simp [skipExponent, hne, hb, hdrop]
  · simp [skipExponent, hb, hdrop]
  · simp [skipExponent, hb, hdrop]

theorem Exponent.noDigit {exponent : Bytes} (h : Exponent exponent) {rest : Bytes}
    (hrest : Stops rest) : ∀ b ∈ (exponent ++ rest).head?, isDigit b = false ∧ b ≠ 0x2e := by
  cases h with
  | absent => exact fun b hb => ⟨(hrest b hb).1, (hrest b hb).2.1⟩
  | digits he _ _ =>
      intro b hb
      obtain rfl := Option.mem_some_iff.mp hb
      rcases he with rfl | rfl <;> decide

/-- What is skipped behind the fraction. -/
def skipShift (bytes : Bytes) : Except Fault Bytes :=
  match bytes with
  | b :: rest => if b = 0x65 ∨ b = 0x45 then skipExponent rest else .ok bytes
  | [] => .ok bytes

theorem skipScale_plain {bytes : Bytes} (h : ∀ b ∈ bytes.head?, b ≠ 0x2e) :
    skipScale bytes = skipShift bytes := by
  rw [skipScale.eq_def]
  split
  · exact absurd rfl (h 0x2e rfl)
  · rfl

theorem IsDigits.skipScale_point {digits : Bytes} (h : IsDigits digits) {bytes : Bytes}
    (hbytes : NoDigit bytes) : skipScale (0x2e :: (digits ++ bytes)) = skipShift bytes := by
  have hspan := hbytes.span h.2
  have hne : digits.isEmpty = false := by simpa using h.1
  rw [skipScale, hspan.1, hspan.2, hne]
  rfl

theorem Exponent.skipShift_eq {exponent : Bytes} (h : Exponent exponent) {rest : Bytes}
    (hrest : Stops rest) : skipShift (exponent ++ rest) = .ok rest := by
  cases h with
  | absent =>
      cases rest with
      | nil => rfl
      | cons b rest =>
          obtain ⟨-, -, he, hE⟩ := hrest b rfl
          simp [skipShift, he, hE]
  | digits he hsign hdigits =>
      rw [List.cons_append, List.append_assoc, skipShift, if_pos he,
        hdigits.skipExponent_eq hsign hrest.noDigit]

theorem Fraction.noDigit {fraction : Bytes} (h : Fraction fraction) {rest : Bytes}
    (hrest : NoDigit rest) : NoDigit (fraction ++ rest) := by
  cases h with
  | absent => exact hrest
  | digits _ =>
      intro b hb
      obtain rfl := Option.mem_some_iff.mp hb
      rfl

theorem Fraction.skipScale_eq {fraction exponent : Bytes} (hfraction : Fraction fraction)
    (hexponent : Exponent exponent) {rest : Bytes} (hrest : Stops rest) :
    skipScale (fraction ++ (exponent ++ rest)) = .ok rest := by
  have hhead := hexponent.noDigit hrest
  have hshift := hexponent.skipShift_eq hrest
  cases hfraction with
  | absent => exact (skipScale_plain fun b hb => (hhead b hb).2).trans hshift
  | digits hdigits => exact (hdigits.skipScale_point fun b hb => (hhead b hb).1).trans hshift

theorem skipUnsigned_whole {whole tail : Bytes} (h : IsWhole whole) (htail : NoDigit tail) :
    skipUnsigned (whole ++ tail) = skipScale tail := by
  obtain ⟨hne, hdigits, hleading⟩ := h
  obtain ⟨b, more, rfl⟩ := List.exists_cons_of_ne_nil hne
  obtain ⟨hb, hmore⟩ := List.forall_mem_cons.mp hdigits
  rw [List.cons_append, skipUnsigned.eq_def]
  dsimp only
  by_cases hzero : b = 0x30
  · subst hzero
    rw [if_pos rfl, hleading more rfl, List.nil_append]
    cases tail with
    | nil => rfl
    | cons d tail => simp [htail d rfl]
  · rw [if_neg hzero, if_pos hb, (htail.span hmore).2]

theorem Unsigned.skipUnsigned_eq {octets : Bytes} (h : Unsigned octets) {rest : Bytes}
    (hrest : Stops rest) : skipUnsigned (octets ++ rest) = .ok rest := by
  cases h with
  | parts hwhole hfraction hexponent =>
      have hnext : NoDigit _ := fun b hb => (hexponent.noDigit hrest b hb).1
      rw [List.append_assoc, List.append_assoc, skipUnsigned_whole hwhole (hfraction.noDigit hnext)]
      exact hfraction.skipScale_eq hexponent hrest

theorem Unsigned.exists_cons {octets : Bytes} (h : Unsigned octets) :
    ∃ b bytes, octets = b :: bytes ∧ isDigit b = true := by
  cases h with
  | @parts whole fraction exponent hwhole _ _ =>
      obtain ⟨b, more, rfl⟩ := List.exists_cons_of_ne_nil hwhole.ne_nil
      exact ⟨b, more ++ (fraction ++ exponent), rfl, hwhole.isDigit b List.mem_cons_self⟩

theorem skipScalar_digit {b : UInt8} (h : isDigit b = true) (bytes : Bytes) :
    skipScalar b bytes = skipUnsigned (b :: bytes) := by
  rw [skipScalar, if_neg (ne_of_isDigit h rfl), if_neg (ne_of_isDigit h rfl),
    if_neg (ne_of_isDigit h rfl), if_neg (ne_of_isDigit h rfl), if_pos h]

/-! ## The stack of what is open -/

/-- The bytes inside an array or object are ready for the next value, from its name on. -/
def enter (frame : Frame) (outer : List Frame) (bytes : Bytes) :
    Except Fault (List Frame × Bytes) :=
  match frame with
  | .array => .ok (.array :: outer, bytes)
  | .object =>
    match skipBlank bytes with
    | [] => .error .truncated
    | q :: rest =>
      if q = 0x22 then
        match skipString rest with
        | .error fault => .error fault
        | .ok rest => (readColon rest).map fun rest => (.object :: outer, rest)
      else .error .malformed

/-- How the skipper goes on: with the next value, unless nothing is open any more. -/
def goOn (turns : Nat) : Except Fault (List Frame × Bytes) → Except Fault Bytes
  | .error fault => .error fault
  | .ok ([], rest) => .ok rest
  | .ok (frame :: outer, rest) => skipOpen turns (frame :: outer) rest

/-- How the skipper goes on behind a value. -/
def resume (turns : Nat) (frames : List Frame) (rest : Bytes) : Except Fault Bytes :=
  goOn turns (skipBehind false (rest.length + 1) frames rest)

theorem skipOpen_append {gap : Bytes} (h : Blanks gap) (turns : Nat) (frames : List Frame)
    (bytes : Bytes) : skipOpen turns frames (gap ++ bytes) = skipOpen turns frames bytes := by
  cases turns with
  | zero => rfl
  | succ turns => rw [skipOpen, skipOpen, skipBlank_append h]

theorem skipOpen_skipBlank (turns : Nat) (frames : List Frame) (bytes : Bytes) :
    skipOpen turns frames (skipBlank bytes) = skipOpen turns frames bytes := by
  cases turns with
  | zero => rfl
  | succ turns => rw [skipOpen, skipOpen, skipBlank_skipBlank]

theorem goOn_enter_skipBlank (turns : Nat) (frame : Frame) (outer : List Frame) (bytes : Bytes) :
    goOn turns (enter frame outer (skipBlank bytes)) = goOn turns (enter frame outer bytes) := by
  cases frame with
  | array => exact skipOpen_skipBlank turns _ bytes
  | object => rw [enter, enter, skipBlank_skipBlank]

theorem skipOpen_cons {b : UInt8} (hblank : isBlank b = false) (turns : Nat) (frames : List Frame)
    (bytes : Bytes) : skipOpen (turns + 1) frames (b :: bytes) = goOn turns
      (if b = 0x5b then skipBehind true (bytes.length + 1) (.array :: frames) bytes
      else if b = 0x7b then skipBehind true (bytes.length + 1) (.object :: frames) bytes
      else match skipScalar b bytes with
        | .error fault => .error fault
        | .ok rest => skipBehind false (rest.length + 1) frames rest) := by
  rw [skipOpen, skipBlank_cons hblank]
  dsimp only
  generalize (ite (b = 0x5b) _ _) = behind
  rcases behind with fault | ⟨_ | ⟨frame, outer⟩, rest⟩ <;> rfl

theorem skipOpen_scalar {b : UInt8} (hblank : isBlank b = false) (hitems : b ≠ 0x5b)
    (hmembers : b ≠ 0x7b) {bytes rest : Bytes} (h : skipScalar b bytes = .ok rest) (turns : Nat)
    (frames : List Frame) :
    skipOpen (turns + 1) frames (b :: bytes) = resume turns frames rest := by
  rw [skipOpen_cons hblank, if_neg hitems, if_neg hmembers, h, resume]

theorem skipOpen_opening (frame : Frame) (turns : Nat) (frames : List Frame) (bytes : Bytes) :
    skipOpen (turns + 1) frames (frame.opening :: bytes) =
      goOn turns (skipBehind true (bytes.length + 1) (frame :: frames) bytes) := by
  cases frame with
  | array => exact skipOpen_cons rfl turns frames bytes
  | object => exact skipOpen_cons rfl turns frames bytes

/-- What is open is closed, and the skipper goes on behind it. -/
theorem skipBehind_closing (fresh : Bool) (turns : Nat) (frame : Frame) (outer : List Frame)
    {gap : Bytes} (h : Blanks gap) (rest : Bytes) :
    skipBehind fresh (turns + 1) (frame :: outer) (gap ++ frame.closing :: rest) =
      skipBehind false turns outer rest := by
  have hblank : isBlank frame.closing = false := by cases frame <;> rfl
  rw [skipBehind, skipBlank_append_cons h hblank]
  cases frame <;> simp [Frame.closing]

theorem skipBehind_comma (turns : Nat) (frame : Frame) (outer : List Frame)
    {gap : Bytes} (h : Blanks gap) (rest : Bytes) :
    skipBehind false (turns + 1) (frame :: outer) (gap ++ 0x2c :: rest) =
      enter frame outer rest := by
  rw [skipBehind, skipBlank_append_cons h rfl]
  cases frame with
  | array => simp [enter]
  | object => simp; rfl

theorem skipBehind_fresh (turns : Nat) (frame : Frame) (outer : List Frame) {bytes : Bytes}
    (h : ∃ b rest, skipBlank bytes = b :: rest ∧ b ≠ frame.closing) :
    skipBehind true (turns + 1) (frame :: outer) bytes = enter frame outer (skipBlank bytes) := by
  obtain ⟨b, rest, hbytes, hb⟩ := h
  rw [skipBehind, hbytes]
  cases frame with
  | array =>
      have hb : b ≠ 0x5d := hb
      simp [enter, hb]
  | object =>
      have hb : b ≠ 0x7d := hb
      simp [hb]
      rfl

theorem length_of_skipBlank {bytes rest : Bytes} {b : UInt8} (h : skipBlank bytes = b :: rest) :
    rest.length < bytes.length := by
  have hle := List.length_dropWhile_le isBlank bytes
  rw [show bytes.dropWhile isBlank = b :: rest from h, List.length_cons] at hle
  exact hle

/-- More turns than octets change nothing. -/
theorem skipBehind_turns (fresh : Bool) {turns : Nat} (frames : List Frame) {bytes : Bytes}
    (h : bytes.length < turns) :
    skipBehind fresh turns frames bytes = skipBehind fresh (bytes.length + 1) frames bytes := by
  induction frames generalizing fresh turns bytes with
  | nil => rw [skipBehind, skipBehind]
  | cons frame outer ih =>
      obtain ⟨turns, rfl⟩ := Nat.exists_eq_add_one_of_ne_zero (Nat.ne_zero_of_lt h)
      rw [skipBehind, skipBehind]
      cases hblank : skipBlank bytes with
      | nil => rfl
      | cons b rest =>
          have hlength := length_of_skipBlank hblank
          have hmore := ih false (Nat.lt_of_lt_of_le hlength (Nat.le_of_lt_succ h))
          dsimp only
          rw [hmore, ← ih false hlength]

/-! ## Values -/

theorem Lead.enter_eq {frame : Frame} {lead : Bytes} (h : Lead frame lead) (outer : List Frame)
    (bytes : Bytes) : enter frame outer (lead ++ bytes) = .ok (frame :: outer, bytes) := by
  cases h with
  | array => rfl
  | object hbefore hcontent hafter =>
      rw [enter]
      simp only [quoted, List.append_assoc, List.cons_append, List.nil_append]
      rw [skipBlank_append_cons hbefore rfl]
      simp only [if_true, hcontent.skipString_eq]
      rw [readColon, skipBlank_append_cons hafter rfl]
      rfl

/-- A piece of a text is skipped in at most as many turns as it has octets. -/
def Skipped : Piece → Bytes → Prop
  | .value, octets => ∃ cost ≤ octets.length, ∀ turns frames rest, Stops rest →
      skipOpen (turns + cost) frames (octets ++ rest) = resume turns frames rest
  | .items frame, octets => ∃ cost ≤ octets.length, ∀ turns frames rest,
      goOn (turns + cost) (enter frame frames (octets ++ rest)) = resume turns frames rest
  | .rest frame, octets => ∃ cost ≤ octets.length, ∀ turns frames gap rest, Blanks gap →
      resume (turns + cost) (frame :: frames) (gap ++ (octets ++ rest)) = resume turns frames rest

/-- No value begins with a blank or with the end of an array or object. -/
theorem Forms.exists_cons {octets : Bytes} (h : Forms .value octets) :
    ∃ b bytes, octets = b :: bytes ∧ isBlank b = false ∧ b ≠ 0x5d := by
  cases h with
  | null => exact ⟨_, _, rfl, by decide⟩
  | bool value => cases value <;> exact ⟨_, _, rfl, by decide⟩
  | unsigned hunsigned =>
      obtain ⟨b, bytes, rfl, hb⟩ := hunsigned.exists_cons
      exact ⟨b, bytes, rfl, isBlank_of_isDigit hb, ne_of_isDigit hb rfl⟩
  | negative => exact ⟨_, _, rfl, by decide⟩
  | string => exact ⟨_, _, rfl, by decide⟩
  | empty frame => cases frame <;> exact ⟨_, _, rfl, by decide⟩
  | @filled frame => cases frame <;> exact ⟨_, _, rfl, by decide⟩

theorem Forms.skipBlank_items {frame : Frame} {octets : Bytes} (h : Forms (.items frame) octets)
    (more : Bytes) : ∃ b rest, skipBlank (octets ++ more) = b :: rest ∧ b ≠ frame.closing := by
  cases h with
  | item hlead hbefore hvalue _ _ =>
      cases hlead with
      | array =>
          obtain ⟨b, bytes, rfl, hblank, hb⟩ := hvalue.exists_cons
          simp only [List.nil_append, List.append_assoc, List.cons_append]
          exact ⟨b, _, skipBlank_append_cons hbefore hblank _, hb⟩
      | object hgap _ _ =>
          simp only [quoted, List.append_assoc, List.cons_append]
          exact ⟨0x22, _, skipBlank_append_cons hgap rfl _, by decide⟩

/-- What follows a value inside an array or object is not more of a number. -/
theorem Forms.stops_rest {frame : Frame} {octets : Bytes} (h : Forms (.rest frame) octets)
    (more : Bytes) : Stops (octets ++ more) := by
  cases h with
  | more _ => exact stops_cons (by decide) _
  | close frame => cases frame <;> exact stops_cons (by decide) _

theorem skipped_scalar {b : UInt8} (hblank : isBlank b = false) (hitems : b ≠ 0x5b)
    (hmembers : b ≠ 0x7b) {bytes : Bytes}
    (h : ∀ rest, Stops rest → skipScalar b (bytes ++ rest) = .ok rest) :
    Skipped .value (b :: bytes) :=
  ⟨1, Nat.succ_pos _, fun turns frames rest hrest =>
    skipOpen_scalar hblank hitems hmembers (h rest hrest) turns frames⟩

theorem resume_closing (turns : Nat) (frame : Frame) (frames : List Frame) (fresh : Bool)
    {gap : Bytes} (hgap : Blanks gap) (rest : Bytes) :
    goOn turns (skipBehind fresh ((gap ++ frame.closing :: rest).length + 1) (frame :: frames)
      (gap ++ frame.closing :: rest)) = resume turns frames rest := by
  have hlength : rest.length < (gap ++ frame.closing :: rest).length := by
    simp only [List.length_append, List.length_cons]
    omega
  rw [skipBehind_closing fresh _ frame frames hgap, skipBehind_turns false frames hlength, resume]

/-- The induction is on the text, under all stacks at once: the items of an array or object are
skipped under the stack on which it is open. -/
theorem Forms.skipped {piece : Piece} {octets : Bytes} (h : Forms piece octets) :
    Skipped piece octets := by
  induction h with
  | null => exact skipped_scalar rfl (by decide) (by decide) fun rest _ => rfl
  | bool value =>
      cases value with
      | true => exact skipped_scalar rfl (by decide) (by decide) fun rest _ => rfl
      | false => exact skipped_scalar rfl (by decide) (by decide) fun rest _ => rfl
  | unsigned hunsigned =>
      obtain ⟨b, bytes, rfl, hb⟩ := hunsigned.exists_cons
      refine skipped_scalar (isBlank_of_isDigit hb) (ne_of_isDigit hb rfl) (ne_of_isDigit hb rfl) ?_
      intro rest hrest
      rw [skipScalar_digit hb, ← List.cons_append, hunsigned.skipUnsigned_eq hrest]
  | negative hunsigned =>
      exact skipped_scalar rfl (by decide) (by decide) fun rest hrest =>
        hunsigned.skipUnsigned_eq hrest
  | string hcontent =>
      refine skipped_scalar rfl (by decide) (by decide) fun rest _ => ?_
      rw [List.append_assoc]
      exact hcontent.skipString_eq rest
  | @empty frame gap hgap =>
      refine ⟨1, Nat.succ_pos _, fun turns frames rest _ => ?_⟩
      rw [List.cons_append, skipOpen_opening, List.append_assoc]
      exact resume_closing turns frame frames true hgap rest
  | @filled frame octets hitems ih =>
      obtain ⟨cost, hcost, hskip⟩ := ih
      refine ⟨cost + 1, Nat.succ_le_succ hcost, fun turns frames rest _ => ?_⟩
      rw [List.cons_append, ← Nat.add_assoc, skipOpen_opening,
        skipBehind_fresh _ frame frames (hitems.skipBlank_items rest), goOn_enter_skipBlank]
      exact hskip turns frames rest
  | @item frame lead before octets after tail hlead hbefore _ hafter htail ih ihtail =>
      obtain ⟨first, hfirst, hskip⟩ := ih
      obtain ⟨others, hothers, hskiptail⟩ := ihtail
      refine ⟨others + first, ?_, fun turns frames rest => ?_⟩
      · simp only [List.length_append]
        omega
      · simp only [List.append_assoc]
        rw [hlead.enter_eq, ← Nat.add_assoc]
        show skipOpen _ (frame :: frames) _ = _
        rw [skipOpen_append hbefore,
          hskip _ (frame :: frames) _ (hafter.stops (htail.stops_rest rest))]
        exact hskiptail turns frames after rest hafter
  | @more frame octets _ ih =>
      obtain ⟨cost, hcost, hskip⟩ := ih
      refine ⟨cost, Nat.le_succ_of_le hcost, fun turns frames gap rest hgap => ?_⟩
      rw [List.cons_append, resume, skipBehind_comma _ frame frames hgap]
      exact hskip turns frames rest
  | close frame =>
      refine ⟨0, Nat.zero_le _, fun turns frames gap rest hgap => ?_⟩
      exact resume_closing turns frame frames false hgap rest

/-- A value that stands behind blanks is skipped, whatever it is. -/
theorem Forms.skipValue_eq {octets : Bytes} (h : Forms .value octets) {gap : Bytes}
    (hgap : Blanks gap) {rest : Bytes} (hrest : Stops rest) :
    skipValue (gap ++ (octets ++ rest)) = .ok rest := by
  obtain ⟨cost, hcost, hskip⟩ := h.skipped
  have hlength : cost ≤ (gap ++ (octets ++ rest)).length + 1 := by
    simp only [List.length_append]
    omega
  obtain ⟨turns, hturns⟩ := Nat.exists_eq_add_of_le' hlength
  rw [skipValue, skipOpen_append hgap, hturns, hskip turns [] rest hrest, resume, skipBehind]
  rfl

end ThingHub.Json
