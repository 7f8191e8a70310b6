import ThingHub.Pem.Sections
import ThingHub.Proofs.Pem.Base64

/-! # The layout of files with sections

A file is written line by line, its blocks of lines are text or sections, and every layout of a
section is read as the octets in it. The reader goes on behind a block as if it began there, so that
what a whole file gives is what its blocks give, up to the first one that is malformed. -/

namespace ThingHub.Pem

/-! ## Lines -/

/-- No end of a line stands within the line. -/
def Plain (line : Bytes) : Prop := ∀ b ∈ line, ¬ (b = 0x0a ∨ b = 0x0d)

instance (line : Bytes) : Decidable (Plain line) :=
  List.decidableBAll (fun b => ¬ (b = 0x0a ∨ b = 0x0d)) line

theorem plain_append {front back : Bytes} : Plain (front ++ back) ↔ Plain front ∧ Plain back :=
  List.forall_mem_append

def endings : List Bytes := [[0x0a], [0x0d, 0x0a], [0x0d]]

/-- The lines one after the other, each with an ending. -/
inductive Ended : List Bytes → Bytes → Prop
  | nil : Ended [] []
  | line {line ending rest : Bytes} {lines : List Bytes} :
      Plain line → ending ∈ endings → Ended lines rest →
      Ended (line :: lines) (line ++ (ending ++ rest))

/-- A whole file of these lines, the last of which may go without an ending. -/
def Written (lines : List Bytes) (file : Bytes) : Prop :=
  Ended lines file ∨ ∃ init front last, lines = init ++ [last] ∧ file = front ++ last ∧
    Ended init front ∧ Plain last

/-- Lines that all end alike. -/
theorem ended_flatMap {lines : List Bytes} (h : ∀ line ∈ lines, Plain line) {ending : Bytes}
    (hending : ending ∈ endings) : Ended lines (lines.flatMap (· ++ ending)) := by
  induction lines with
  | nil => exact .nil
  | cons line lines ih =>
      obtain ⟨hline, hlines⟩ := List.forall_mem_cons.mp h
      rw [List.flatMap_cons, List.append_assoc]
      exact .line hline hending (ih hlines)

theorem lines_ne_nil (bytes : Bytes) : lines bytes ≠ [] := by
  cases bytes with
  | nil => simp [lines]
  | cons b bytes =>
      rw [lines]
      split
      · simp
      · split <;> simp

theorem lines_plain {line : Bytes} (h : Plain line) : lines line = [line] := by
  induction line with
  | nil => rfl
  | cons b line ih =>
      obtain ⟨hb, hline⟩ := List.forall_mem_cons.mp h
      rw [lines, if_neg hb, ih hline]

theorem lines_append {line : Bytes} (h : Plain line) {b : UInt8} (hb : b = 0x0a ∨ b = 0x0d)
    (rest : Bytes) : lines (line ++ b :: rest) = line :: lines rest := by
  induction line with
  | nil => rw [List.nil_append, lines, if_pos hb]
  | cons c line ih =>
      obtain ⟨hc, hline⟩ := List.forall_mem_cons.mp h
      rw [List.cons_append, lines, if_neg hc, ih hline]

/-- A line ends where an ending stands, or the text does. -/
theorem exists_lines_eq {line back : Bytes} (h : Plain line)
    (hback : ∀ b ∈ back.head?, b = 0x0a ∨ b = 0x0d) :
    ∃ others, lines (line ++ back) = line :: others := by
  cases back with
  | nil => exact ⟨[], by rw [List.append_nil, lines_plain h]⟩
  | cons b back => exact ⟨lines back, lines_append h (hback b rfl) back⟩

/-- The first line begins with what the text begins with. -/
theorem exists_lines_append {front : Bytes} (h : Plain front) (back : Bytes) :
    ∃ tail others, lines (front ++ back) = (front ++ tail) :: others := by
  induction front with
  | nil =>
      obtain ⟨tail, others, hlines⟩ := List.exists_cons_of_ne_nil (lines_ne_nil back)
      exact ⟨tail, others, hlines⟩
  | cons b front ih =>
      obtain ⟨hb, hfront⟩ := List.forall_mem_cons.mp h
      obtain ⟨tail, others, hlines⟩ := ih hfront
      exact ⟨tail, others, by rw [List.cons_append, lines, if_neg hb, hlines]; rfl⟩

/-! ## Empty lines -/

/-- One line is looked at. -/
theorem scan_cons (current : Option Bytes) (content line : Bytes) (rest : List Bytes) :
    scan current content (line :: rest) =
      if beginMark.isPrefixOf line then
        match label? (line.drop beginMark.length) with
        | none => [.error .illegalBegin]
        | some label => scan (some label) content rest
      else
        match current with
        | none => scan none content rest
        | some name =>
          if (endMark name).isPrefixOf line then
            match Label.ofBytes? name with
            | none => scan none [] rest
            | some label =>
              match Base64.decode? content with
              | none => [.error .badContent]
              | some der => .ok ⟨label, der⟩ :: scan none [] rest
          else scan (some name) (content ++ line) rest :=
  scan.eq_def current content (line :: rest)

theorem scan_congr {more same : List Bytes}
    (h : ∀ current content, scan current content more = scan current content same)
    (lines : List Bytes) (current : Option Bytes) (content : Bytes) :
    scan current content (lines ++ more) = scan current content (lines ++ same) := by
  induction lines generalizing current content with
  | nil => exact h current content
  | cons line lines ih =>
      rw [List.cons_append, List.cons_append, scan_cons, scan_cons]
      simp only [ih]

/-- An empty line counts for nothing, so it does not matter how lines end. -/
theorem scan_nil_line (current : Option Bytes) (content : Bytes) (rest : List Bytes) :
    scan current content ([] :: rest) = scan current content rest := by
  have hbegin : beginMark.isPrefixOf [] = false := by decide
  rw [scan_cons, hbegin]
  cases current with
  | none => rfl
  | some label =>
      have hend : (endMark label).isPrefixOf [] = false := rfl
      simp [hend]

theorem Ended.scan_lines {ended : List Bytes} {front : Bytes} (h : Ended ended front) (back : Bytes)
    (current : Option Bytes) (content : Bytes) :
    scan current content (lines (front ++ back)) = scan current content (ended ++ lines back) := by
  induction h generalizing current content with
  | nil => rfl
  | @line line ending rest others hplain hending _ ih =>
      have hmore : lines (line ++ (ending ++ rest) ++ back) = line :: lines (rest ++ back) ∨
          lines (line ++ (ending ++ rest) ++ back) = line :: [] :: lines (rest ++ back) := by
        simp only [endings, List.mem_cons, List.not_mem_nil, or_false] at hending
        rw [List.append_assoc, List.append_assoc]
        rcases hending with rfl | rfl | rfl
        · exact .inl (lines_append hplain (.inl rfl) _)
        · have hempty : lines (0x0a :: (rest ++ back)) = [] :: lines (rest ++ back) := rfl
          exact .inr ((lines_append hplain (.inr rfl) _).trans (congrArg (line :: ·) hempty))
        · exact .inl (lines_append hplain (.inr rfl) _)
      have hline := scan_congr ih [line] current content
      rcases hmore with hmore | hmore
      · rw [hmore]
        exact hline
      · rw [hmore]
        exact (scan_congr (fun current content => scan_nil_line current content _) [line]
          current content).trans hline

theorem Written.scan_lines {written : List Bytes} {file : Bytes} (h : Written written file)
    (current : Option Bytes) (content : Bytes) :
    scan current content (lines file) = scan current content written := by
  rcases h with hended | ⟨init, front, last, rfl, rfl, hinit, hlast⟩
  · have hlines := hended.scan_lines [] current content
    have hempty := scan_congr (fun current content => scan_nil_line current content []) written
      current content
    rw [List.append_nil] at hlines hempty
    exact hlines.trans hempty
  · rw [hinit.scan_lines, lines_plain hlast]

/-! ## Marks -/

def dashes : Bytes := Bytes.ofText "-----"

/-- The line that opens a section. -/
def beginLine (label : Bytes) : Bytes := beginMark ++ (label ++ dashes)

/-- The label is told from the dashes around it. -/
def Clean (label : Bytes) : Prop := ∀ b ∈ label.getLast?, b ≠ 0x2d ∧ b ≠ 0x20

instance (label : Bytes) : Decidable (Clean label) :=
  label.getLast?.decidableForallMem

/-- How many dashes stand at the end of a line, maybe with spaces between. -/
def trailingDashes (line : Bytes) : Nat :=
  (line.reverse.takeWhile fun b => b == 0x2d || b == 0x20).count 0x2d

theorem dropDashes_fst (count : Nat) (before line : Bytes) :
    (dropDashes count before line).1 =
      count + (line.takeWhile fun b => b == 0x2d || b == 0x20).count 0x2d := by
  induction line generalizing count before with
  | nil => rfl
  | cons b line ih =>
      rw [dropDashes]
      by_cases hdash : b = 0x2d
      · simp [hdash, ih]
        omega
      · by_cases hspace : b = 0x20
        · simp [hspace, ih]
        · simp [hdash, hspace]

theorem label?_eq_none {line : Bytes} (h : trailingDashes (beginMark ++ line) ≠ 5) :
    label? line = none := by
  have hcount := dropDashes_fst 0 (beginMark ++ line).reverse (beginMark ++ line).reverse
  rw [Nat.zero_add] at hcount
  rw [label?]
  simp only [hcount]
  exact if_neg h

theorem dropDashes_five (back : Bytes) :
    dropDashes 0 (dashes ++ back) (dashes ++ back) = dropDashes 5 back back := rfl

theorem dropDashes_clean {label : Bytes} (h : Clean label) (count : Nat) :
    dropDashes count (label.reverse ++ beginMark.reverse) (label.reverse ++ beginMark.reverse) =
      (count, label.reverse ++ beginMark.reverse) := by
  cases hlabel : label.reverse with
  | nil => rfl
  | cons b back =>
      have hlast : label.getLast? = some b := by rw [List.getLast?_eq_head?_reverse, hlabel]; rfl
      obtain ⟨hdash, hspace⟩ := h b hlast
      rw [List.cons_append, dropDashes, if_neg hdash, if_neg hspace]

/-- A label between five dashes is read, whatever it is. -/
theorem label?_of_clean {label : Bytes} (h : Clean label) :
    label? (label ++ dashes) = some label := by
  have hreverse : (beginMark ++ (label ++ dashes)).reverse =
      dashes ++ (label.reverse ++ beginMark.reverse) := by
    rw [List.reverse_append, List.reverse_append, List.append_assoc]
    rfl
  rw [label?, hreverse, dropDashes_five, dropDashes_clean h]
  simp only [if_true]
  rw [List.reverse_append, List.reverse_reverse, List.reverse_reverse, List.drop_left]

theorem scan_begin {label : Bytes} (h : Clean label) (current : Option Bytes) (content : Bytes)
    (rest : List Bytes) :
    scan current content (beginLine label :: rest) = scan (some label) content rest := by
  have hbegin : beginMark.isPrefixOf (beginLine label) = true :=
    List.isPrefixOf_iff_prefix.mpr (List.prefix_append _ _)
  rw [scan_cons, if_pos hbegin, beginLine, List.drop_left, label?_of_clean h]

theorem not_begin_endMark (label tail : Bytes) :
    beginMark.isPrefixOf (endMark label ++ tail) = false := rfl

/-- At its end a section is read if its label is known. -/
theorem scan_end (label content tail : Bytes) (rest : List Bytes) :
    scan (some label) content ((endMark label ++ tail) :: rest) =
      match Label.ofBytes? label with
      | none => scan none [] rest
      | some kind =>
        match Base64.decode? content with
        | none => [.error .badContent]
        | some der => .ok ⟨kind, der⟩ :: scan none [] rest := by
  have hend : (endMark label).isPrefixOf (endMark label ++ tail) = true :=
    List.isPrefixOf_iff_prefix.mpr (List.prefix_append _ _)
  rw [scan_cons, not_begin_endMark, if_neg (by decide)]
  simp only [hend, if_true]

/-- The line is neither the beginning of a section nor the end of this one. -/
def Inside (label line : Bytes) : Prop := ¬ beginMark <+: line ∧ ¬ endMark label <+: line

instance (label line : Bytes) : Decidable (Inside label line) :=
  inferInstanceAs (Decidable (_ ∧ _))

theorem scan_content {label : Bytes} {chunks : List Bytes}
    (h : ∀ chunk ∈ chunks, Inside label chunk) (content : Bytes) (rest : List Bytes) :
    scan (some label) content (chunks ++ rest) =
      scan (some label) (content ++ chunks.flatten) rest := by
  induction chunks generalizing content with
  | nil => simp
  | cons chunk chunks ih =>
      obtain ⟨⟨hbegin, hend⟩, hchunks⟩ := List.forall_mem_cons.mp h
      rw [← List.isPrefixOf_iff_prefix] at hbegin hend
      rw [List.cons_append, scan_cons, if_neg hbegin]
      dsimp only
      rw [if_neg hend, ih hchunks, List.flatten_cons, List.append_assoc]

/-- The lines of a section that is still open, with its label and content. Where another section
begins inside it, the lines so far count as the beginning of that one. -/
inductive Opened : List Bytes → Bytes → Bytes → Prop
  | begin {label : Bytes} {chunks : List Bytes} : Clean label →
      (∀ chunk ∈ chunks, Inside label chunk) →
      Opened (beginLine label :: chunks) label chunks.flatten
  | cut {lines chunks : List Bytes} {label next content : Bytes} : Opened lines label content →
      Clean next → (∀ chunk ∈ chunks, Inside next chunk) →
      Opened (lines ++ beginLine next :: chunks) next (content ++ chunks.flatten)

theorem Opened.scan_eq {opened : List Bytes} {label content : Bytes}
    (h : Opened opened label content) (rest : List Bytes) :
    scan none [] (opened ++ rest) = scan (some label) content rest := by
  induction h generalizing rest with
  | begin hclean hchunks =>
      rw [List.cons_append, scan_begin hclean, scan_content hchunks, List.nil_append]
  | cut _ hclean hchunks ih =>
      rw [List.append_assoc, ih, List.cons_append, scan_begin hclean, scan_content hchunks]

theorem plain_of_ended {lines : List Bytes} {bytes : Bytes} (h : Ended lines bytes) :
    ∀ line ∈ lines, Plain line := by
  induction h with
  | nil => simp
  | line hplain _ _ ih => exact List.forall_mem_cons.mpr ⟨hplain, ih⟩

theorem Opened.plain_endMark {opened : List Bytes} {label content : Bytes}
    (h : Opened opened label content) (hplain : ∀ line ∈ opened, Plain line) :
    Plain (endMark label) := by
  have hbegin : Plain (beginLine label) := by
    cases h with
    | begin _ _ => exact hplain _ List.mem_cons_self
    | cut _ _ _ => exact hplain _ (List.mem_append_right _ List.mem_cons_self)
  have hlabel : Plain label := (plain_append.mp (plain_append.mp hbegin).2).1
  have hmark : Plain (Bytes.ofText "-----END ") := by decide
  have hdashes : Plain (Bytes.ofText "-----") := by decide
  exact plain_append.mpr ⟨plain_append.mpr ⟨hmark, hlabel⟩, hdashes⟩

/-- A section is read at its end, in whatever lines it is written and whatever follows. -/
theorem Opened.sections_eq {opened : List Bytes} {label content body : Bytes}
    (h : Opened opened label content) (hbody : Ended opened body) (back : Bytes) :
    ∃ others, sections (body ++ (endMark label ++ back)) =
      match Label.ofBytes? label with
      | none => scan none [] others
      | some kind =>
        match Base64.decode? content with
        | none => [.error .badContent]
        | some der => .ok ⟨kind, der⟩ :: scan none [] others := by
  obtain ⟨tail, others, hlines⟩ :=
    exists_lines_append (h.plain_endMark (plain_of_ended hbody)) back
  refine ⟨others, ?_⟩
  rw [sections, hbody.scan_lines, hlines, h.scan_eq, scan_end]

/-! ## Blocks -/

/-- A block of lines: text between sections, a section that holds octets, or a section whose label
is not known, with any lines in it. -/
inductive Block
  | text (line : Bytes)
  | material (label der : Bytes) (chunks : List Bytes)
  | foreign (label : Bytes) (chunks : List Bytes)

namespace Block

def lines : Block → List Bytes
  | text line => [line]
  | material label _ chunks => beginLine label :: chunks ++ [endMark label]
  | foreign label chunks => beginLine label :: chunks ++ [endMark label]

/-- Text is no beginning of a section, and octets are spread over the lines between the marks as
their base 64 letters with any blanks. -/
def Valid : Block → Prop
  | text line => ¬ beginMark <+: line
  | material label der chunks => Clean label ∧ Base64.marks chunks.flatten = Base64.encode der
  | foreign label chunks =>
    Clean label ∧ Label.ofBytes? label = none ∧ ∀ chunk ∈ chunks, Inside label chunk

instance (block : Block) : Decidable block.Valid :=
  match block with
  | text line => inferInstanceAs (Decidable (¬ beginMark <+: line))
  | material _ _ _ => inferInstanceAs (Decidable (_ ∧ _))
  | foreign label chunks =>
    inferInstanceAs (Decidable (Clean label ∧ Label.ofBytes? label = none ∧
      ∀ chunk ∈ chunks, Inside label chunk))

/-- The section that is read. -/
def section? : Block → Option Section
  | material label der _ => (Label.ofBytes? label).map fun kind => ⟨kind, der⟩
  | _ => none

end Block

theorem inside_of_dash_not_mem {line : Bytes} (h : 0x2d ∉ line) (label : Bytes) :
    Inside label line :=
  ⟨fun hmark => h (hmark.subset List.mem_cons_self),
    fun hmark => h (hmark.subset List.mem_cons_self)⟩

/-- No line of letters is taken for a mark. -/
theorem inside_of_marks {chunks : List Bytes} {der : Bytes}
    (h : Base64.marks chunks.flatten = Base64.encode der) (label : Bytes) :
    ∀ chunk ∈ chunks, Inside label chunk := by
  intro chunk hm
  apply inside_of_dash_not_mem
  exact fun hdash => Base64.dash_not_mem h (List.mem_flatten_of_mem hm hdash)

theorem Block.Valid.scan_eq {block : Block} (h : block.Valid) (rest : List Bytes) :
    scan none [] (block.lines ++ rest) =
      block.section?.toList.map Except.ok ++ scan none [] rest := by
  cases block with
  | text line =>
      have hbegin : ¬ beginMark.isPrefixOf line = true := mt List.isPrefixOf_iff_prefix.mp h
      rw [lines, List.singleton_append, scan_cons, if_neg hbegin]
      rfl
  | material label der chunks =>
      obtain ⟨hclean, hmarks⟩ := h
      have hend := scan_end label chunks.flatten [] rest
      rw [List.append_nil, Base64.decode?_of_marks hmarks] at hend
      rw [lines, List.append_assoc, (Opened.begin hclean (inside_of_marks hmarks label)).scan_eq,
        List.singleton_append, hend, section?]
      cases Label.ofBytes? label <;> rfl
  | foreign label chunks =>
      obtain ⟨hclean, hlabel, hinside⟩ := h
      have hend := scan_end label chunks.flatten [] rest
      rw [List.append_nil, hlabel] at hend
      rw [lines, List.append_assoc, (Opened.begin hclean hinside).scan_eq, List.singleton_append,
        hend]
      rfl

/-- The sections of blocks come in order, before those of what follows. -/
theorem scan_blocks {blocks : List Block} (h : ∀ block ∈ blocks, block.Valid) (rest : List Bytes) :
    scan none [] (blocks.flatMap Block.lines ++ rest) =
      (blocks.filterMap Block.section?).map Except.ok ++ scan none [] rest := by
  induction blocks with
  | nil => rfl
  | cons block blocks ih =>
      obtain ⟨hblock, hblocks⟩ := List.forall_mem_cons.mp h
      rw [List.flatMap_cons, List.append_assoc, hblock.scan_eq, ih hblocks, List.filterMap_cons]
      cases block.section? <;> rfl

/-- A whole file has the sections of its blocks. -/
theorem sections_written {blocks : List Block} (h : ∀ block ∈ blocks, block.Valid) {file : Bytes}
    (hfile : Written (blocks.flatMap Block.lines) file) :
    sections file = (blocks.filterMap Block.section?).map Except.ok := by
  have hscan := scan_blocks h []
  rw [List.append_nil] at hscan
  rw [sections, hfile.scan_lines, hscan]
  exact List.append_nil _

/-- What stands behind some blocks is read as if it stood alone. -/
theorem sections_append {blocks : List Block} (h : ∀ block ∈ blocks, block.Valid) {front : Bytes}
    (hfront : Ended (blocks.flatMap Block.lines) front) (back : Bytes) :
    sections (front ++ back) =
      (blocks.filterMap Block.section?).map Except.ok ++ sections back := by
  rw [sections, hfront.scan_lines, scan_blocks h, sections]

/-! ## What is malformed -/

/-- Lines with nothing malformed: text, and sections whose label is not known or that hold base
64. -/
inductive Passed : List Bytes → Prop
  | nil : Passed []
  | text {line : Bytes} {rest : List Bytes} : ¬ beginMark <+: line → Passed rest →
      Passed (line :: rest)
  | closed {opened rest : List Bytes} {label content tail : Bytes} : Opened opened label content →
      (∀ kind, Label.ofBytes? label = some kind → Base64.WellFormed content) → Passed rest →
      Passed (opened ++ (endMark label ++ tail) :: rest)

/-- What stands behind such lines is read as if it stood alone. -/
theorem Passed.scan_eq {passed : List Bytes} (h : Passed passed) :
    ∃ found, ∀ rest, scan none [] (passed ++ rest) =
      (found : List Section).map Except.ok ++ scan none [] rest := by
  induction h with
  | nil => exact ⟨[], fun rest => rfl⟩
  | text hline _ ih =>
      obtain ⟨found, hfound⟩ := ih
      refine ⟨found, fun rest => ?_⟩
      rw [List.cons_append, scan_cons, if_neg (mt List.isPrefixOf_iff_prefix.mp hline)]
      exact hfound rest
  | @closed opened rest label content tail hopened hknown _ ih =>
      obtain ⟨found, hfound⟩ := ih
      have hclosed (more : List Bytes) := (hopened.scan_eq _).trans
        (scan_end label content tail (rest ++ more))
      simp only [List.append_assoc, List.cons_append, hclosed, hfound]
      cases hlabel : Label.ofBytes? label with
      | none => exact ⟨found, fun more => rfl⟩
      | some kind =>
          obtain ⟨der, hder⟩ := Option.isSome_iff_exists.mp
            (Base64.isSome_decode?_iff.mpr (hknown kind hlabel))
          exact ⟨⟨kind, der⟩ :: found, fun more => by rw [hder]; rfl⟩

/-- A text that begins with a malformed section: the line that opens it, or another one inside it,
does not end in exactly five dashes, or the text ends before the section does, or the section has a
known label and does not hold base 64. -/
inductive Broken : Bytes → Prop
  | begin {line back : Bytes} : Plain line → (∀ b ∈ back.head?, b = 0x0a ∨ b = 0x0d) →
      trailingDashes (beginMark ++ line) ≠ 5 → Broken (beginMark ++ line ++ back)
  | inside {opened : List Bytes} {label content body line back : Bytes} :
      Opened opened label content → Ended opened body → Plain line →
      (∀ b ∈ back.head?, b = 0x0a ∨ b = 0x0d) → trailingDashes (beginMark ++ line) ≠ 5 →
      Broken (body ++ (beginMark ++ line ++ back))
  | unfinished {opened : List Bytes} {label content body : Bytes} :
      Opened opened label content → Written opened body → Broken body
  | content {opened : List Bytes} {label content body back : Bytes} {kind : Label} :
      Opened opened label content → Ended opened body → Label.ofBytes? label = some kind →
      ¬ Base64.WellFormed content → Broken (body ++ (endMark label ++ back))

theorem scan_illegal {line back : Bytes} (hplain : Plain line)
    (hback : ∀ b ∈ back.head?, b = 0x0a ∨ b = 0x0d)
    (hcount : trailingDashes (beginMark ++ line) ≠ 5) (current : Option Bytes) (content : Bytes) :
    scan current content (lines (beginMark ++ line ++ back)) = [.error .illegalBegin] := by
  have hmark : Plain beginMark := by decide
  have hbegin : beginMark.isPrefixOf (beginMark ++ line) = true :=
    List.isPrefixOf_iff_prefix.mpr (List.prefix_append _ _)
  obtain ⟨others, hlines⟩ := exists_lines_eq (plain_append.mpr ⟨hmark, hplain⟩) hback
  rw [hlines, scan_cons, if_pos hbegin, List.drop_left, label?_eq_none hcount]

/-- Nothing is read of a malformed section, nor of what stands behind it. -/
theorem Broken.sections_eq {text : Bytes} (h : Broken text) :
    ∃ fault, sections text = [.error fault] := by
  cases h with
  | begin hplain hback hcount => exact ⟨.illegalBegin, scan_illegal hplain hback hcount none []⟩
  | inside hopened hbody hplain hback hcount =>
      refine ⟨.illegalBegin, ?_⟩
      rw [sections, hbody.scan_lines, hopened.scan_eq]
      exact scan_illegal hplain hback hcount _ _
  | unfinished hopened hbody =>
      have hend := hopened.scan_eq []
      rw [List.append_nil] at hend
      refine ⟨.missingEnd, ?_⟩
      rw [sections, hbody.scan_lines, hend]
      rfl
  | @content opened label content body back kind hopened hbody hlabel hnot =>
      have hdecode : Base64.decode? content = none := by
        rw [← Option.not_isSome_iff_eq_none, Base64.isSome_decode?_iff]
        exact hnot
      obtain ⟨others, hsections⟩ := hopened.sections_eq hbody back
      rw [hlabel, hdecode] at hsections
      exact ⟨.badContent, hsections⟩

/-- The first malformed section of a file is its last that is read. -/
theorem sections_broken {passed : List Bytes} (h : Passed passed) {front rest : Bytes}
    (hfront : Ended passed front) (hrest : Broken rest) :
    ∃ (found : List Section) (fault : Fault),
      sections (front ++ rest) = found.map Except.ok ++ [.error fault] := by
  obtain ⟨found, hfound⟩ := h.scan_eq
  obtain ⟨fault, hfault⟩ := hrest.sections_eq
  rw [sections] at hfault
  exact ⟨found, fault, by rw [sections, hfront.scan_lines, hfound, hfault]⟩

end ThingHub.Pem
