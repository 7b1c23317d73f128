import Propositional.Exchange.ProofForm
import Propositional.Proofs.Conclusions
import Propositional.Proofs.Tags

/-!
# Proofs written as text and as documents

A script is a proof before it is written: its givens, its goal and its entries, each a formula with
its justification and perhaps a label. It is written as lines of text, in which the three kinds of
lines are mixed freely with blank lines and comments, or as a document. Both are read as the same
proof. Only a label or a line number with too many digits is read from a document and not from text.

## Main definitions

* `Script`, `Script.Entry`: proofs before they are written
* `Script.Writes`: lines that write a script
* `Script.toValue`: the document of a script
* `Script.proof`: the proof that a script stands for

## Main results

* `Script.Entry.classify_chars`: the line of an entry is cut into its label, its formula and its tag
* `Script.ofValue_toValue`: the document of a script is read as its proof
* `Script.ofText_of_writes`: lines that write a script are read as its proof, unless a number is too
  long
-/

namespace Propositional

/-! ## The characters of formulas -/

namespace Token

/-- No digit begins a name. -/
theorem isDecimal_of_isNameStart {c : Char} (h : isNameStart c = true) :
    Text.isDecimal c = false := by
  have hrange := toNat_of_isNameStart h
  have hzeros : ∀ z ∈ Text.zeros, z + 10 ≤ 65 ∨ (90 < z ∧ z + 10 ≤ 0x391) ∨ 0x3C9 < z := by decide
  have hfind : (Text.zeros.find? fun z => z ≤ c.toNat && c.toNat < z + 10) = none := by
    rw [List.find?_eq_none]
    intro z hz
    have := hzeros z hz
    simp only [Bool.and_eq_true, decide_eq_true_eq]
    omega
  rw [Text.isDecimal, Text.decimalValue?, hfind]
  rfl

end Token

namespace Formula

/-- The signs that a printed formula has besides its names. -/
def signs : List Char := ['¬', '∧', '∨', '-', '>', '↔', '(', ')']

theorem forall_mem_enclose {P : Char → Prop} {needed : Bool} {cs : List Char}
    (hcs : ∀ c ∈ cs, P c) (hsigns : ∀ c ∈ signs, P c) : ∀ c ∈ enclose needed cs, P c := by
  intro c hc
  cases needed with
  | false => exact hcs c hc
  | true =>
    rcases List.mem_cons.mp hc with rfl | hc
    · exact hsigns _ (by decide)
    · rcases List.mem_append.mp hc with hc | hc
      · exact hcs c hc
      · obtain rfl := List.mem_singleton.mp hc
        exact hsigns _ (by decide)

/-- A property of names and signs holds throughout a printed formula. -/
theorem forall_mem_chars {P : Char → Prop} (hname : ∀ c, Token.isNamePart c = true → P c)
    (hsigns : ∀ c ∈ signs, P c) {f : Formula} (hf : f.IsNamed) : ∀ c ∈ f.chars, P c := by
  induction f with
  | var name =>
    intro c hc
    exact hname c (Token.isNamePart_of_mem_name (hf name List.mem_cons_self) c hc)
  | neg f ih =>
    intro c hc
    rcases List.mem_cons.mp hc with rfl | hc
    · exact hsigns _ (by decide)
    · exact forall_mem_enclose (ih hf) hsigns c hc
  | bin op l r ihl ihr =>
    have hl := ihl fun x hx => hf x (List.mem_append_left _ hx)
    have hr := ihr fun x hx => hf x (List.mem_append_right _ hx)
    intro c hc
    rw [chars, List.append_assoc, List.mem_append, List.mem_append] at hc
    rcases hc with hc | hc | hc
    · exact forall_mem_enclose hl hsigns c hc
    · refine hsigns c ?_
      have hglyph : ∀ c ∈ op.glyph, c ∈ signs := Text.forall_mem_of_all (by cases op <;> decide)
      exact hglyph c hc
    · exact forall_mem_enclose hr hsigns c hc

/-- A printed formula has no white space. -/
theorem isBlank_of_mem_chars {f : Formula} (hf : f.IsNamed) :
    ∀ c ∈ f.chars, Text.isBlank c = false :=
  forall_mem_chars (fun _ => Token.isBlank_of_isNamePart) (Text.forall_mem_of_all (by decide)) hf

/-- A character that is in no name and none of the signs is in no printed formula. -/
theorem ne_of_mem_chars {f : Formula} (hf : f.IsNamed) {d : Char}
    (hname : Token.isNamePart d = false) (hsign : d ∉ signs) : ∀ c ∈ f.chars, c ≠ d := by
  refine forall_mem_chars (fun c hc hcd => ?_) (fun c hc hcd => ?_) hf
  · rw [← hcd, hc] at hname
    cases hname
  · rw [← hcd] at hsign
    exact hsign hc

/-- A printed formula begins with a name, a negation or a parenthesis. -/
theorem exists_chars_eq_cons {f : Formula} (hf : f.IsNamed) :
    ∃ c cs, f.chars = c :: cs ∧ (Token.isNameStart c = true ∨ c = '¬' ∨ c = '(') := by
  induction f with
  | var name =>
    have hname := hf name List.mem_cons_self
    unfold Token.isName at hname
    rw [chars]
    cases hcs : name.toList with
    | nil => rw [hcs] at hname; cases hname
    | cons c cs =>
      rw [hcs] at hname
      exact ⟨c, cs, rfl, .inl (Bool.and_eq_true_iff.mp hname).1⟩
  | neg f => exact ⟨'¬', _, rfl, .inr (.inl rfl)⟩
  | bin op l r ihl =>
    rw [chars, List.append_assoc]
    cases enclosesLeft op l with
    | true => exact ⟨'(', _, rfl, .inr (.inr rfl)⟩
    | false =>
      obtain ⟨c, cs, hcs, hc⟩ := ihl fun x hx => hf x (List.mem_append_left _ hx)
      exact ⟨c, cs ++ _, by rw [enclose, if_neg (by decide), hcs, List.cons_append], hc⟩

theorem chars_ne_nil {f : Formula} (hf : f.IsNamed) : f.chars ≠ [] := by
  obtain ⟨c, cs, hcs, -⟩ := exists_chars_eq_cons hf
  simp [hcs]

end Formula

/-! ## Lines of text -/

namespace PlainText

variable {cs : List Char}

theorem headerText?_eq_none {word : List Char} (h : ':' ∉ cs) : headerText? word cs = none := by
  unfold headerText?
  split
  · split
    · next text htext =>
      have hmem : ':' ∈ (cs.drop word.length).dropWhile Text.isBlank := by
        rw [htext]
        exact List.mem_cons_self
      have hdrop := (List.dropWhile_sublist _).subset hmem
      exact absurd (List.mem_of_mem_drop hdrop) h
    · rfl
  · rfl

/-- A header has a colon. -/
theorem header?_eq_none (h : ':' ∉ cs) : header? cs = none := by
  simp [header?, headerText?_eq_none h]

/-- A line with something on it is a header, or else a step. -/
theorem classify_eq (htrim : Text.trim cs = cs) {c : Char} (hc : c ∈ cs.head?) (hhash : c ≠ '#') :
    classify cs =
      match header? cs with
      | some line => .ok line
      | none =>
        match step? cs with
        | some line => .ok line
        | none => .error (.proofLine (String.ofList cs)) := by
  cases cs with
  | nil => cases hc
  | cons d ds =>
    obtain rfl : d = c := Option.some.inj hc
    simp only [classify, htrim]
    split
    · next h => cases h
    · next h => exact absurd (List.cons.inj h).1 hhash
    · rfl

/-- Nothing but white space stands on a line, or a comment. -/
def IsPassed (cs : List Char) : Prop :=
  Text.trim cs = [] ∨ ∃ rest, Text.trim cs = '#' :: rest

theorem classify_of_isPassed (h : IsPassed cs) : classify cs = .ok .skipped := by
  rcases h with h | ⟨rest, h⟩ <;> simp only [classify, h]

/-! ### Headers -/

theorem trim_cons_space (cs : List Char) : Text.trim (' ' :: cs) = Text.trim cs := by
  rw [Text.trim, List.dropWhile_cons_of_pos (by decide), Text.trim]

theorem trim_chars {f : Formula} (hf : f.IsNamed) : Text.trim f.chars = f.chars := by
  have hblank := Formula.isBlank_of_mem_chars hf
  exact Text.trim_eq_self (fun c hc => hblank c (List.mem_of_mem_head? hc))
    fun c hc => hblank c (List.mem_of_mem_getLast? hc)

/-- The line that gives a premise. -/
def givenChars (f : Formula) : List Char :=
  "Given: ".toList ++ f.chars

/-- The line that sets the goal. -/
def goalChars (f : Formula) : List Char :=
  "Goal: ".toList ++ f.chars

/-- A word, a colon and a space head a formula. -/
theorem headerText?_eq {word : List Char} {f : Formula} (hf : f.IsNamed)
    (hword : (cs.take word.length).map foldLetter = word)
    (hrest : (cs.drop word.length).dropWhile Text.isBlank = ':' :: ' ' :: f.chars) :
    headerText? word cs = some f.chars := by
  unfold headerText?
  rw [hword, hrest, if_pos BEq.rfl]
  show some (Text.trim (' ' :: f.chars)) = some f.chars
  rw [trim_cons_space, trim_chars hf]

/-- A line that sets the goal is headed by neither word for a premise. -/
theorem header?_goalChars {f : Formula} (hf : f.IsNamed) :
    header? (goalChars f) = some (.goal f.chars) := by
  have hgiven : headerText? givenWord (goalChars f) = none := rfl
  have hpremise : headerText? premiseWord (goalChars f) = none := by
    unfold headerText?
    refine if_neg fun h => ?_
    have hhead := congrArg List.head? (eq_of_beq h)
    rw [List.head?_map, List.head?_take, if_neg (by decide)] at hhead
    have hletter : some 'g' = some 'p' := hhead
    exact absurd hletter (by decide)
  rw [header?, hgiven, hpremise, headerText?_eq hf rfl rfl]
  rfl

/-- A word in front of a formula, with a space between them. -/
theorem classify_of_header (word : List Char) {f : Formula} {line : Line} {c : Char}
    (hf : f.IsNamed) (hc : c ∈ word.head?) (hhash : c ≠ '#')
    (hblank : ∀ d ∈ word, Text.isBlank d = false)
    (hheader : header? (word ++ ([' '] ++ f.chars)) = some line) :
    classify (word ++ ([' '] ++ f.chars)) = .ok line := by
  have hne : word ≠ [] := List.ne_nil_of_mem (List.mem_of_mem_head? hc)
  have htrim : Text.trim (word ++ ([' '] ++ f.chars)) = word ++ ([' '] ++ f.chars) :=
    Text.trim_append hne hblank [' '] (Formula.chars_ne_nil hf) (Formula.isBlank_of_mem_chars hf)
  have hhead : c ∈ (word ++ ([' '] ++ f.chars)).head? := by
    rw [List.head?_append_of_ne_nil _ hne]
    exact hc
  rw [classify_eq htrim hhead hhash, hheader]

theorem classify_givenChars {f : Formula} (hf : f.IsNamed) :
    classify (givenChars f) = .ok (.given f.chars) := by
  have hheader : header? (givenChars f) = some (.given f.chars) := by
    rw [header?, headerText?_eq hf rfl rfl]
  exact classify_of_header "Given:".toList hf rfl (by decide)
    (Text.forall_mem_of_all (by decide)) hheader

theorem classify_goalChars {f : Formula} (hf : f.IsNamed) :
    classify (goalChars f) = .ok (.goal f.chars) :=
  classify_of_header "Goal:".toList hf rfl (by decide) (Text.forall_mem_of_all (by decide))
    (header?_goalChars hf)

/-! ### Steps -/

/-- A tag in brackets behind white space ends a line. -/
theorem bracketed?_append {gap tag : List Char} (hgap : ∀ c ∈ gap, Text.isBlank c = true)
    (hne : tag ≠ []) (htag : ']' ∉ tag) :
    bracketed? (gap ++ '[' :: (tag ++ [']'])) = some tag := by
  have hin : ∀ c ∈ tag, (c != ']') = true := by
    intro c hc
    rw [bne_iff_ne]
    rintro rfl
    exact htag hc
  have hdrop : (gap ++ '[' :: (tag ++ [']'])).dropWhile Text.isBlank = '[' :: (tag ++ [']']) := by
    rw [List.dropWhile_append_of_pos hgap, List.dropWhile_cons_of_neg (by decide)]
  have htake : (tag ++ [']']).takeWhile (· != ']') = tag := by
    rw [List.takeWhile_append_of_pos hin]
    simp
  have hrest : (tag ++ [']']).dropWhile (· != ']') = [']'] := by
    rw [List.dropWhile_append_of_pos hin]
    rfl
  unfold bracketed?
  rw [hdrop]
  simp only [htake, hrest]
  cases tag with
  | nil => exact absurd rfl hne
  | cons c cs => rfl

/-- No bracketed tag stands in front of a character of another kind. -/
theorem bracketed?_cons {c : Char} (hblank : Text.isBlank c = false) (hbracket : c ≠ '[') :
    bracketed? (c :: cs) = none := by
  unfold bracketed?
  rw [List.dropWhile_cons_of_neg (by simp [hblank])]
  split
  · next h => exact absurd (List.cons.inj h).1 hbracket
  · rfl

/-- A line is cut behind a formula that has neither white space nor brackets. -/
theorem cut?_append {formula gap tag : List Char} (hne : formula ≠ [])
    (hformula : ∀ c ∈ formula, Text.isBlank c = false ∧ c ≠ '[')
    (hgap : ∀ c ∈ gap, Text.isBlank c = true) (hne' : tag ≠ []) (htag : ']' ∉ tag) :
    cut? (formula ++ (gap ++ '[' :: (tag ++ [']']))) = some (formula, tag) := by
  induction formula with
  | nil => exact absurd rfl hne
  | cons c cs ih =>
    rw [List.cons_append, cut?]
    cases cs with
    | nil =>
      -- the last character of the formula, with the tag behind it
      rw [List.nil_append, bracketed?_append hgap hne' htag]
    | cons d ds =>
      -- another character of the formula follows, so the line is not cut here
      obtain ⟨hblank, hbracket⟩ := hformula d (List.mem_cons_of_mem _ List.mem_cons_self)
      rw [List.cons_append, bracketed?_cons hblank hbracket, ← List.cons_append,
        ih (List.cons_ne_nil _ _) fun e he => hformula e (List.mem_cons_of_mem _ he)]
      rfl

/-- What follows a label is cut behind one space. -/
theorem cutBehindLabel?_cons_space {r : List Char × List Char}
    (hhead : ∀ c ∈ cs.head?, Text.isBlank c = false) (h : cut? cs = some r) :
    cutBehindLabel? (' ' :: cs) = some r := by
  have hwidth : ((' ' :: cs).takeWhile Text.isBlank).length = 1 := by
    rw [List.takeWhile_cons_of_pos (by decide)]
    cases cs with
    | nil => rfl
    | cons c cs => simp [hhead c rfl]
  have hrange : (List.range (1 + 1)).reverse = [1, 0] := rfl
  rw [cutBehindLabel?, hwidth, hrange, List.findSome?_cons, List.drop_one, List.tail_cons, h]

theorem label?_toDigits_append {n : Nat} {rest : List Char} :
    label? (Nat.toDigits 10 n ++ '.' :: rest) = some (Nat.toDigits 10 n, rest) := by
  have hpoint : ∀ c ∈ ('.' :: rest).head?, Text.isDecimal c = false := by
    intro c hc
    obtain rfl : '.' = c := Option.some.inj hc
    decide
  unfold label?
  rw [Text.takeWhile_toDigits_append hpoint, Text.dropWhile_toDigits_append hpoint]
  cases h : Nat.toDigits 10 n with
  | nil => exact absurd h Nat.toDigits_ne_nil
  | cons c cs => rfl

theorem label?_eq_none {c : Char} (hc : Text.isDecimal c = false) : label? (c :: cs) = none := by
  unfold label?
  rw [List.takeWhile_cons_of_neg (by simp [hc])]

end PlainText

/-! ## Scripts -/

/-- A formula with well-formed names. -/
abbrev NamedFormula := { f : Formula // f.IsNamed }

namespace Script

/-- A step before it is written: its formula, its justification, and its label if it shows one. -/
structure Entry where
  label : Option Nat
  formula : NamedFormula
  justification : { j : Justification // j.IsPlain }

namespace Entry

/-- The formula of an entry, two spaces and its tag in brackets. -/
def body (e : Entry) : List Char :=
  e.formula.1.chars ++ ([' ', ' '] ++ '[' :: (e.justification.1.tag.toList ++ [']']))

/-- The line of text that writes an entry, behind its label and a point if it shows one. -/
def chars (e : Entry) : List Char :=
  match e.label with
  | some n => Nat.toDigits 10 n ++ '.' :: ' ' :: e.body
  | none => e.body

/-- The step that an entry writes at a place. -/
def step (line : Int) (e : Entry) : Step where
  line := (e.label.map Int.ofNat).getD line
  formula := e.formula.1.text
  justification := e.justification.1

/-- The document of an entry: that of its step, without a label if it shows none. -/
def toValue (e : Entry) : Value :=
  match e.label with
  | some n => (e.step n).toValue
  | none => .object (("formula", .text e.formula.1.text) :: e.justification.1.fields)

/-- Whether the numbers of an entry are short enough to be read. -/
def isShort (e : Entry) : Bool :=
  (e.label.all fun n => n < Text.numberLimit) && e.justification.1.isShort

/-- The steps that entries write from a place on. -/
def steps (line : Int) : List Entry → List Step
  | [] => []
  | e :: es => e.step line :: steps (line + 1) es

end Entry

end Script

/-- A proof before it is written. -/
structure Script where
  given : List NamedFormula
  goal : Option NamedFormula
  entries : List Script.Entry

namespace Script

/-- Lines write a script: those of its givens, of its goal and of its entries, each kind in its
order, mixed with one another and with lines that are passed over. -/
inductive Writes : Script → List (List Char) → Prop where
  | nil : Writes ⟨[], none, []⟩ []
  | given {g gs goal es ls} : Writes ⟨gs, goal, es⟩ ls →
      Writes ⟨g :: gs, goal, es⟩ (PlainText.givenChars g.1 :: ls)
  | goal {g gs es ls} : Writes ⟨gs, none, es⟩ ls →
      Writes ⟨gs, some g, es⟩ (PlainText.goalChars g.1 :: ls)
  | entry {gs goal e es ls} : Writes ⟨gs, goal, es⟩ ls → Writes ⟨gs, goal, e :: es⟩ (e.chars :: ls)
  | passed {s l ls} : PlainText.IsPassed l → Writes s ls → Writes s (l :: ls)

/-- The document of a script. -/
def toValue (s : Script) : Value :=
  .object
    [("given", .list (s.given.map fun g => .text g.1.text)),
     ("goal", s.goal.elim .null fun g => .text g.1.text),
     ("steps", .list (s.entries.map Entry.toValue))]

/-- The proof that a script stands for. Entries without a label are labelled by their places. -/
def proof (s : Script) : Proof where
  given := s.given.map fun g => g.1.text
  steps := Entry.steps (s.given.length + 1) s.entries
  goal := s.goal.map fun g => g.1.text

/-- Whether all numbers of a script are short enough to be read. -/
def isShort (s : Script) : Bool :=
  s.entries.all Entry.isShort

end Script

/-! ## Reading the document of a script -/

theorem Value.texts?_map {α : Type} (text : α → String) (xs : List α) :
    texts? (xs.map fun x => .text (text x)) = some (xs.map text) := by
  induction xs with
  | nil => rfl
  | cons x xs ih => rw [List.map_cons, texts?, ih, Option.map_some, List.map_cons]

namespace Script

namespace Entry

/-- An entry is read from its document, with its own label or that of its place. -/
theorem ofValue_toValue (line : Int) (e : Entry) :
    Step.ofValue line e.toValue = .ok (e.step line) := by
  obtain ⟨label, f, j, hj⟩ := e
  cases label with
  | some n =>
    refine Step.ofValue_of_fields rfl rfl rfl (Justification.ofValue_of_fields hj.isReadable rfl ?_)
    simp [toValue, step, Step.toValue, Value.field?, Table.get?_cons]
  | none =>
    -- a justification has no field that could pass for a label
    have hline : Table.get? j.fields "line" = none := by cases j <;> rfl
    refine Step.ofValue_of_fields rfl rfl ?_ (Justification.ofValue_of_fields hj.isReadable rfl ?_)
    · simp [toValue, Value.field?, Table.get?_cons, hline]
    · simp [toValue, Value.field?, Table.get?_cons]

theorem ofValues_map_toValue (line : Int) (es : List Entry) :
    Step.ofValues line (es.map toValue) = .ok (steps line es) := by
  induction es generalizing line with
  | nil => rfl
  | cons e es ih => rw [List.map_cons, Step.ofValues, ofValue_toValue, ih (line + 1), steps]

end Entry

/-- The document of a script is read as its proof. -/
theorem ofValue_toValue (s : Script) : Proof.ofValue s.toValue = .ok s.proof := by
  have hgiven : Proof.givenOf s.toValue = .ok (s.given.map fun g => g.1.text) := by
    have hfield : s.toValue.field? "given" = some (.list (s.given.map fun g => .text g.1.text)) :=
      rfl
    simp only [Proof.givenOf, hfield, Option.getD_some, Value.texts?_map]
  have hgoal : Proof.goalOf s.toValue = .ok (s.goal.map fun g => g.1.text) := by
    obtain ⟨given, goal, entries⟩ := s
    cases goal <;> rfl
  have hsteps : Step.listOfValue s.given.length ((s.toValue.field? "steps").getD (.list [])) =
      .ok (Entry.steps (s.given.length + 1) s.entries) :=
    Entry.ofValues_map_toValue _ s.entries
  have hfields : Proof.ofFields s.toValue = .ok s.proof := by
    rw [Proof.ofFields, hgiven, hgoal]
    simp only [List.length_map, hsteps]
    rfl
  rw [Proof.ofValue, hfields]
  rfl

/-! ### Reading the lines of a script -/

namespace Entry

theorem chars_of_label {e : Entry} {n : Nat} (h : e.label = some n) :
    e.chars = Nat.toDigits 10 n ++ '.' :: ' ' :: e.body := by
  rw [chars, h]

theorem chars_of_no_label {e : Entry} (h : e.label = none) : e.chars = e.body := by
  rw [chars, h]

/-- What an entry says behind its label is cut into its formula and its tag. -/
theorem cut?_body (e : Entry) :
    PlainText.cut? e.body = some (e.formula.1.chars, e.justification.1.tag.toList) := by
  obtain ⟨label, ⟨f, hf⟩, j, hj⟩ := e
  have hformula : ∀ c ∈ f.chars, Text.isBlank c = false ∧ c ≠ '[' := by
    intro c hc
    exact ⟨Formula.isBlank_of_mem_chars hf c hc,
      Formula.ne_of_mem_chars hf (by decide) (by decide) c hc⟩
  exact PlainText.cut?_append (Formula.chars_ne_nil hf) hformula
    (Text.forall_mem_of_all (by decide)) (Justification.tag_ne_nil hj)
    (Justification.not_mem_tag hj (by decide))

/-- An entry says something behind its label, and does not begin with a digit. -/
theorem exists_body_eq_cons (e : Entry) :
    ∃ c cs, e.body = c :: cs ∧ Text.isBlank c = false ∧ Text.isDecimal c = false ∧ c ≠ '#' := by
  obtain ⟨label, ⟨f, hf⟩, j⟩ := e
  obtain ⟨c, cs, hcs, hstart⟩ := Formula.exists_chars_eq_cons hf
  have hc : c ∈ f.chars := by simp [hcs]
  refine ⟨c, _, by rw [body, hcs]; rfl, Formula.isBlank_of_mem_chars hf c hc, ?_,
    Formula.ne_of_mem_chars hf (by decide) (by decide) c hc⟩
  rcases hstart with hstart | rfl | rfl
  · exact Token.isDecimal_of_isNameStart hstart
  · decide
  · decide

/-- The line of an entry is no comment, and has no white space in front. -/
theorem exists_chars_eq_cons (e : Entry) :
    ∃ c cs, e.chars = c :: cs ∧ Text.isBlank c = false ∧ c ≠ '#' := by
  cases hlabel : e.label with
  | some n =>
    obtain ⟨d, ds, hds⟩ := List.exists_cons_of_ne_nil (Nat.toDigits_ne_nil (n := n) (b := 10))
    have hd : d.isDigit = true := Text.isDigit_of_mem_toDigits (n := n) (by simp [hds])
    refine ⟨d, _, by rw [chars_of_label hlabel, hds]; rfl, Text.isBlank_of_isDigit hd, ?_⟩
    rintro rfl
    exact absurd hd (by decide)
  | none =>
    obtain ⟨c, cs, hcs, hblank, -, hhash⟩ := e.exists_body_eq_cons
    exact ⟨c, cs, by rw [chars_of_no_label hlabel, hcs], hblank, hhash⟩

theorem getLast?_body (e : Entry) : e.body.getLast? = some ']' := by
  have hbody : e.body = (e.formula.1.chars ++
      [' ', ' ', '['] ++ e.justification.1.tag.toList) ++ [']'] := by
    simp [body]
  rw [hbody, List.getLast?_concat]

theorem trim_chars (e : Entry) : Text.trim e.chars = e.chars := by
  obtain ⟨c, cs, hcs, hc, -⟩ := e.exists_chars_eq_cons
  have hlast : e.chars.getLast? = some ']' := by
    cases hlabel : e.label with
    | some n =>
      rw [chars_of_label hlabel, List.getLast?_append_of_ne_nil _ (List.cons_ne_nil _ _)]
      rw [List.getLast?_cons, List.getLast?_cons, e.getLast?_body]
      rfl
    | none => rw [chars_of_no_label hlabel, e.getLast?_body]
  refine Text.trim_eq_self (fun d hd => ?_) fun d hd => ?_
  · rw [hcs] at hd
    cases hd
    exact hc
  · rw [hlast] at hd
    cases hd
    decide

theorem colon_not_mem_body (e : Entry) : ':' ∉ e.body := by
  obtain ⟨label, ⟨f, hf⟩, j, hj⟩ := e
  have hformula : ':' ∉ f.chars := by
    intro hmem
    exact Formula.ne_of_mem_chars hf (by decide) (by decide) _ hmem rfl
  have htag : ':' ∉ j.tag.toList := Justification.not_mem_tag hj (by decide)
  simp [body, hformula, htag]

/-- The line of an entry has no colon, so it is no header. -/
theorem colon_not_mem_chars (e : Entry) : ':' ∉ e.chars := by
  cases hlabel : e.label with
  | none =>
    rw [chars_of_no_label hlabel]
    exact e.colon_not_mem_body
  | some n =>
    have hdigits : ':' ∉ Nat.toDigits 10 n := by
      intro hmem
      exact absurd (Text.isDigit_of_mem_toDigits hmem) (by decide)
    rw [chars_of_label hlabel]
    simp [hdigits, e.colon_not_mem_body]

/-- The line of an entry is cut into its label, its formula and its tag. -/
theorem step?_chars (e : Entry) :
    PlainText.step? e.chars = some (.step (e.label.map (Nat.toDigits 10)) e.formula.1.chars
      e.justification.1.tag.toList) := by
  obtain ⟨c, cs, hcs, hblank, hdecimal, -⟩ := e.exists_body_eq_cons
  have hcut := e.cut?_body
  cases hlabel : e.label with
  | some n =>
    have hhead : ∀ d ∈ e.body.head?, Text.isBlank d = false := by
      intro d hd
      rw [hcs] at hd
      cases hd
      exact hblank
    rw [chars_of_label hlabel, PlainText.step?, PlainText.label?_toDigits_append,
      Option.bind_some, PlainText.cutBehindLabel?_cons_space hhead hcut]
    rfl
  | none =>
    have hnone : PlainText.label? e.body = none := by
      rw [hcs]
      exact PlainText.label?_eq_none hdecimal
    rw [chars_of_no_label hlabel, PlainText.step?, hnone, hcut]
    rfl

theorem classify_chars (e : Entry) :
    PlainText.classify e.chars = .ok (.step (e.label.map (Nat.toDigits 10)) e.formula.1.chars
      e.justification.1.tag.toList) := by
  obtain ⟨c, cs, hcs, -, hhash⟩ := e.exists_chars_eq_cons
  have hc : c ∈ e.chars.head? := by
    rw [hcs]
    exact rfl
  rw [PlainText.classify_eq e.trim_chars hc hhash,
    PlainText.header?_eq_none e.colon_not_mem_chars, e.step?_chars]

/-- The label of an entry is read unless it is too long. -/
theorem labelOf_eq (line : Int) (e : Entry) :
    PlainText.labelOf line (e.label.map (Nat.toDigits 10)) =
      if e.label.all fun n => n < Text.numberLimit then .ok (e.step line).line
      else .error (.breach .oversized) := by
  cases hlabel : e.label with
  | none => simp [PlainText.labelOf, step, hlabel]
  | some n =>
    by_cases hn : n < Text.numberLimit <;>
      simp [PlainText.labelOf, step, hlabel, Text.naturalWithin?_toDigits, hn]

/-- The line of an entry in front of others is read as its step unless a number is too long. -/
theorem steps_cons (line : Int) (e : Entry) (lines : List PlainText.Line) :
    PlainText.steps line (.step (e.label.map (Nat.toDigits 10)) e.formula.1.chars
        e.justification.1.tag.toList :: lines) =
      if e.isShort then (PlainText.steps (line + 1) lines).map (e.step line :: ·)
      else .error (.breach .oversized) := by
  have htag : Justification.ofTag (String.ofList e.justification.1.tag.toList) =
      if e.justification.1.isShort then .ok e.justification.1 else .error (.breach .oversized) := by
    rw [String.ofList_toList]
    exact Justification.ofTag_tag e.justification.2
  rw [PlainText.steps, labelOf_eq, htag, isShort]
  cases e.label.all fun n => n < Text.numberLimit with
  | false => rfl
  | true =>
    cases e.justification.1.isShort with
    | false => rfl
    | true => cases PlainText.steps (line + 1) lines <;> rfl

end Entry

/-- What is read from lines that write a script: its givens, its goal, and its steps unless a number
is too long. -/
structure ReadsAs (lines : List PlainText.Line) (s : Script) : Prop where
  given : lines.filterMap PlainText.given? = s.given.map fun g => g.1.text
  goal : lines.filterMap PlainText.goal? = (s.goal.map fun g => g.1.text).toList
  steps : ∀ line : Int, PlainText.steps line lines =
    if s.isShort then .ok (Entry.steps line s.entries) else .error (.breach .oversized)

/-- Lines that write a script are all understood. -/
theorem Writes.exists_readsAs {s : Script} {ls : List (List Char)} (h : s.Writes ls) :
    ∃ lines, PlainText.classifyAll ls = .ok lines ∧ ReadsAs lines s := by
  -- along the lines, one case for each kind
  induction h with
  | nil => exact ⟨[], rfl, rfl, rfl, fun line => rfl⟩
  | @given g gs goal es ls _ ih =>
    obtain ⟨lines, hlines, hread⟩ := ih
    refine ⟨.given g.1.chars :: lines, ?_, ?_, hread.goal, hread.steps⟩
    · rw [PlainText.classifyAll, PlainText.classify_givenChars g.2, hlines]
    · rw [List.filterMap_cons, PlainText.given?, hread.given, List.map_cons, Formula.text]
  | @goal g gs es ls _ ih =>
    obtain ⟨lines, hlines, hread⟩ := ih
    refine ⟨.goal g.1.chars :: lines, ?_, hread.given, ?_, hread.steps⟩
    · rw [PlainText.classifyAll, PlainText.classify_goalChars g.2, hlines]
    · rw [List.filterMap_cons, PlainText.goal?, hread.goal]
      rfl
  | @entry gs goal e es ls _ ih =>
    obtain ⟨lines, hlines, hread⟩ := ih
    refine ⟨.step (e.label.map (Nat.toDigits 10)) e.formula.1.chars
      e.justification.1.tag.toList :: lines, ?_, hread.given, hread.goal, fun line => ?_⟩
    · rw [PlainText.classifyAll, e.classify_chars, hlines]
    · rw [Entry.steps_cons, hread.steps]
      by_cases he : e.isShort = true <;> by_cases hes : es.all Entry.isShort = true <;>
        simp [isShort, he, hes, Entry.steps, Except.map]
  | @passed s l ls hl _ ih =>
    obtain ⟨lines, hlines, hread⟩ := ih
    refine ⟨.skipped :: lines, ?_, hread.given, hread.goal, hread.steps⟩
    rw [PlainText.classifyAll, PlainText.classify_of_isPassed hl, hlines]

/-- Lines that write a script are read as its proof, unless a number is too long. -/
theorem ofText_of_writes {s : Script} {text : String} (h : s.Writes (Text.lines text.toList)) :
    Proof.ofText text = if s.isShort then .ok s.proof else .error (.breach .oversized) := by
  obtain ⟨lines, hlines, hread⟩ := h.exists_readsAs
  have hgoal : (s.goal.map fun g => g.1.text).toList.getLast? = s.goal.map fun g => g.1.text := by
    cases s.goal <;> rfl
  rw [Proof.ofText, hlines]
  simp only [hread.given, hread.goal, hread.steps, List.length_map, hgoal]
  by_cases hshort : s.isShort = true <;> simp [hshort, proof]

/-- Text and documents agree. Whatever proof a script stands for, its document is read as that
proof, and so is every text whose lines write the script, in any order of the three kinds of lines
and with blank lines and comments anywhere. Only a label or a line number of more digits than are
read from text makes a difference: such a text is refused. -/
theorem ofText_eq_ofValue (s : Script) (text : String) (h : s.Writes (Text.lines text.toList)) :
    Proof.ofValue s.toValue = .ok s.proof ∧
      Proof.ofText text =
        if s.isShort then Proof.ofValue s.toValue else .error (.breach .oversized) := by
  rw [ofValue_toValue]
  exact ⟨rfl, ofText_of_writes h⟩

/-- An instance of the first axiom, with a label or without. -/
def weakening (label : Option Nat) : Entry where
  label := label
  formula := ⟨.bin .imp (.var "A") (.bin .imp (.var "B") (.var "A")), by decide +kernel⟩
  justification := ⟨.ax (.int 1), .inl rfl⟩

/-- An application of the axiom at the third line to the premise at the first. -/
def detachment : Entry where
  label := none
  formula := ⟨.bin .imp (.var "B") (.var "A"), by decide +kernel⟩
  justification := ⟨.mp (.int 1) (.int 3), forall_mem_pair.mpr ⟨⟨1, rfl⟩, 3, rfl⟩⟩

/-- A direction of the biconditional at the second line. -/
def direction : Entry where
  label := some 70
  formula := ⟨.bin .imp (.var "A") (.var "B"), by decide +kernel⟩
  justification := ⟨.iff (.int 2) .leftToRight, fun r hr => ⟨2, List.mem_singleton.mp hr⟩⟩

/-- A script with two givens and a goal. -/
def mixed : Script where
  given := [⟨.var "A", by decide +kernel⟩, ⟨.bin .iff (.var "A") (.var "B"), by decide +kernel⟩]
  goal := some ⟨.bin .imp (.var "B") (.var "A"), by decide +kernel⟩
  entries := [weakening none, detachment, direction]

/-- The script in text, one given behind the steps that its place labels. -/
def mixedText : String :=
  "# weakening\nA->B->A  [A1]\nGiven: A\r\n \nB->A  [MP 1,3]\nGoal: B->A\n" ++
    "Given: A↔B\n70. A->B  [IFF 2 L->R]"

theorem lines_mixedText :
    Text.lines mixedText.toList =
      ["# weakening".toList, (weakening none).chars, PlainText.givenChars (.var "A"), [' '],
        detachment.chars, PlainText.goalChars (.bin .imp (.var "B") (.var "A")),
        PlainText.givenChars (.bin .iff (.var "A") (.var "B")), direction.chars] := by
  decide +kernel

theorem writes_mixed : mixed.Writes (Text.lines mixedText.toList) := by
  rw [lines_mixedText]
  refine .passed (.inr ⟨_, rfl⟩) (.entry (.given (.passed (.inl rfl) ?_)))
  exact .entry (.goal (.given (.entry .nil)))

theorem ofText_eq_ofValue_mixed :
    mixed.Writes (Text.lines mixedText.toList) ∧ mixed.isShort = true ∧
      Proof.ofText mixedText = .ok
        { given := ["A", "A↔B"]
          steps := [⟨3, "A->B->A", .ax (.int 1)⟩, ⟨4, "B->A", .mp (.int 1) (.int 3)⟩,
            ⟨70, "A->B", .iff (.int 2) .leftToRight⟩]
          goal := some "B->A" } := by
  obtain ⟨hvalue, htext⟩ := ofText_eq_ofValue mixed mixedText writes_mixed
  have hshort : mixed.isShort = true := by decide +kernel
  rw [hvalue, if_pos hshort] at htext
  exact ⟨writes_mixed, hshort, htext⟩

/-! ### A label of too many digits -/

/-- A text without line breaks is one line. -/
theorem lines_eq_singleton {cs : List Char} (hne : cs ≠ [])
    (h : ∀ c ∈ cs, Text.isLineBreak c = false) : Text.lines cs = [cs] := by
  induction cs with
  | nil => exact absurd rfl hne
  | cons c cs ih =>
    have hc := h c List.mem_cons_self
    unfold Text.lines
    split
    · next heq => cases heq
    · next heq =>
      obtain ⟨rfl, -⟩ := List.cons.inj heq
      exact absurd hc (by decide)
    · next heq =>
      obtain ⟨rfl, rfl⟩ := List.cons.inj heq
      rw [if_neg (by simp [hc])]
      cases cs with
      | nil => rfl
      | cons d ds => rw [ih (List.cons_ne_nil d ds) fun e he => h e (List.mem_cons_of_mem _ he)]

theorem isLineBreak_of_isDigit {c : Char} (h : c.isDigit = true) : Text.isLineBreak c = false := by
  have hc := Text.toNat_of_isDigit h
  rw [← Bool.not_eq_true, Text.isLineBreak, Text.CharSet.contains_eq_true_iff]
  rintro ⟨r, hr, hlo, hhi⟩
  have hbreaks : ∀ r ∈ Text.lineBreaks, r.2 < 48 ∨ 57 < r.1 := by decide
  have := hbreaks r hr
  omega

/-- A script of one step whose label has one digit more than are read. -/
def overlong : Script where
  given := []
  goal := none
  entries := [weakening (some Text.numberLimit)]

/-- The text of the only line of `overlong`. -/
def overlongText : String :=
  String.ofList (weakening (some Text.numberLimit)).chars

theorem writes_overlong : overlong.Writes (Text.lines overlongText.toList) := by
  have hbreak : ∀ c ∈ (weakening (some Text.numberLimit)).chars,
      Text.isLineBreak c = false := by
    intro c hc
    rw [Entry.chars_of_label rfl] at hc
    rcases List.mem_append.mp hc with hc | hc
    · exact isLineBreak_of_isDigit (Text.isDigit_of_mem_toDigits hc)
    · have hrest : ∀ d ∈ '.' :: ' ' :: (weakening none).body, Text.isLineBreak d = false :=
        Text.forall_mem_of_all (by decide +kernel)
      exact hrest c hc
  obtain ⟨c, cs, hcs, -⟩ := (weakening (some Text.numberLimit)).exists_chars_eq_cons
  rw [overlongText, String.toList_ofList, lines_eq_singleton (by simp [hcs]) hbreak]
  exact .entry .nil

/-- The document of `overlong` is read and its text is not. -/
theorem ofText_overlong :
    overlong.Writes (Text.lines overlongText.toList) ∧
      Proof.ofText overlongText = .error (.breach .oversized) ∧
      Proof.ofValue overlong.toValue =
        .ok ⟨[], [⟨Text.numberLimit, "A->B->A", .ax (.int 1)⟩], none⟩ ∧
      Proof.ofText overlongText ≠ Proof.ofValue overlong.toValue := by
  have hlong : overlong.isShort = false := by
    simp [isShort, overlong, Entry.isShort, weakening]
  have htext := ofText_of_writes writes_overlong
  rw [hlong, if_neg Bool.false_ne_true] at htext
  have hvalue := ofValue_toValue overlong
  refine ⟨writes_overlong, htext, hvalue, ?_⟩
  rw [htext, hvalue]
  intro h
  cases h

end Script

end Propositional
