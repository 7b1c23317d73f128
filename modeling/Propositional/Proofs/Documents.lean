import Propositional.Exchange.StepForm

/-!
# Documents of steps

A document may spell a rule, a side or a direction in many ways, leave the label out, or hold fields
that nobody asks for. What it gives is a justification by one of the eight rules: an axiom by a
number of the size of one, two or three, or a rule that cites lines by integers. The document that
is written of such a justification spells everything in one way, and gives it again.

## Main definitions

* `Justification.IsReadable`: justifications that documents give
* `Justification.CitesTwo`: justifications by a rule that cites two lines and says nothing else

## Main results

* `Justification.exists_ofValue_iff`: the justifications that documents give
* `Justification.ofValue_of_fields`: such a justification is read from all documents with its fields
* `Step.ofValue_toValue_of_ofValue`: what a document gives is read back from the document of it
-/

namespace Propositional

namespace Justification

variable {data : Value} {rule : String} {refs : List Value} {j : Justification}

/-! ## Documents of rules that cite lines -/

theorem mem_of_arity? {rule : String} {n : Nat} (h : arity? rule = some n) :
    rule ∈ ["MP", "MT", "HS", "ADJ", "DS", "SIMP", "IFF"] := by
  unfold arity? at h
  split at h
  · next hpair =>
    exact List.mem_append_left ["SIMP", "IFF"] (List.contains_iff_mem.mp hpair)
  · split at h
    · next hsingle =>
      exact List.mem_append_right ["MP", "MT", "HS", "ADJ", "DS"] (List.contains_iff_mem.mp hsingle)
    · cases h

/-- The names of the rules that cite lines are read as they are, and as no axioms. -/
theorem upper_strip_of_arity? {rule : String} {n : Nat} (h : arity? rule = some n) :
    Text.upper (Text.strip rule) = rule ∧
      rule ≠ "A1" ∧ rule ≠ "A2" ∧ rule ≠ "A3" ∧ rule ≠ "AX" := by
  have hall : ∀ r ∈ ["MP", "MT", "HS", "ADJ", "DS", "SIMP", "IFF"],
      Text.upper (Text.strip r) = r ∧ r ≠ "A1" ∧ r ≠ "A2" ∧ r ≠ "A3" ∧ r ≠ "AX" := by
    decide +kernel
  exact hall rule (mem_of_arity? h)

/-- A document that names a rule and as many lines as the rule cites gives its justification. -/
theorem ofValue_of_references {data : Value} {rule : String} {refs : List Value}
    (hobject : data.isObject = true) (hrule : data.field? "rule" = some (.text rule))
    (hrefs : data.field? "refs" = some (.list refs)) (hint : ∀ r ∈ refs, ∃ k : Int, r = .int k)
    (harity : arity? rule = some refs.length) :
    ofValue data = ofReferences rule refs data := by
  obtain ⟨hread, h₁, h₂, h₃, hax⟩ := upper_strip_of_arity? harity
  have hruleOf : ruleOf data = rule := by
    rw [ruleOf, hrule, Option.getD_some, Value.plain, hread]
  have hall : (refs.all fun r => r.integer?.isSome) = true := by
    rw [List.all_eq_true]
    intro r hr
    obtain ⟨k, rfl⟩ := hint r hr
    rfl
  have hcited : referencesOf rule refs.length data = .ok refs := by
    simp [referencesOf, hrefs, hall]
  simp [ofValue, hobject, hruleOf, h₁, h₂, h₃, hax, harity, hcited]

/-- A side is read from its letter and from its word. -/
theorem sideOf_eq {data : Value} {word : String} {side : Side}
    (hpick : data.field? "pick" = some (.text word)) (hword : word ∈ [side.letter, side.word]) :
    sideOf data = .ok side := by
  have hread : ∀ w ∈ [side.letter, side.word], Side.ofWord? (Text.small w) = some side := by
    cases side <;> decide +kernel
  have hplain : ((data.field? "pick").getD (.text "")).plain = word := by
    rw [hpick]
    rfl
  unfold sideOf
  rw [hplain, hread word hword]

/-- A direction is read from its word. -/
theorem directionOf_eq {data : Value} {direction : Direction}
    (hdir : data.field? "dir" = some (.text direction.word)) :
    directionOf data = .ok direction := by
  have hread : Direction.ofWord? (Text.small (withoutSpaces direction.word)) = some direction := by
    cases direction <;> decide +kernel
  have hplain : ((data.field? "dir").getD (.text "")).plain = direction.word := by
    rw [hdir]
    rfl
  unfold directionOf
  rw [hplain, hread]

theorem ofReferences_simp (n data : Value) :
    ofReferences "SIMP" [n] data = (sideOf data).map (.simp n) := rfl

theorem ofReferences_iff (n data : Value) :
    ofReferences "IFF" [n] data = (directionOf data).map (.iff n) := rfl

/-! ## What documents give -/

/-- Whether a value numbers an axiom: any value of the size of one, two or three. -/
def isAxiomNumber (n : Value) : Bool :=
  n.equalsInteger 1 || n.equalsInteger 2 || n.equalsInteger 3

/-- A justification that a document can give: an axiom by its number, or a rule that cites lines by
integers. -/
def IsReadable : Justification → Prop
  | .bare => False
  | .ax n => isAxiomNumber n = true
  | j => ∀ r ∈ j.references, ∃ k : Int, r = .int k

/-- A justification by a rule that cites two lines and says nothing else. -/
structure CitesTwo (j : Justification) (a b : Value) : Prop where
  references : j.references = [a, b]
  arity : arity? j.rule = some [a, b].length
  fields : j.fields = [("rule", .text j.rule), ("refs", .list [a, b])]
  read : ∀ data, ofReferences j.rule [a, b] data = .ok j
  tag : j.tag = if String.intercalate "," ([a, b].map Value.plain) == "" then j.rule
    else j.rule ++ " " ++ String.intercalate "," ([a, b].map Value.plain)

/-- The kinds of justifications. -/
theorem cases_references (j : Justification) :
    j = .bare ∨ (∃ n, j = .ax n) ∨ (∃ a b, j.CitesTwo a b) ∨ (∃ a side, j = .simp a side) ∨
      ∃ a direction, j = .iff a direction := by
  cases j with
  | bare => exact .inl rfl
  | ax n => exact .inr (.inl ⟨n, rfl⟩)
  | mp a b | mt a b | hs a b | adj a b | ds a b =>
    exact .inr (.inr (.inl ⟨a, b, rfl, rfl, rfl, fun _ => rfl, rfl⟩))
  | simp a side => exact .inr (.inr (.inr (.inl ⟨a, side, rfl⟩)))
  | iff a direction => exact .inr (.inr (.inr (.inr ⟨a, direction, rfl⟩)))

theorem IsReadable.forall_int (hj : j.IsReadable) :
    ∀ r ∈ j.references, ∃ k : Int, r = .int k := by
  cases j with
  | bare => exact hj.elim
  | ax n =>
    intro r hr
    cases hr
  | mp | mt | hs | adj | ds | simp | iff => exact hj

/-- The lines that a document cites are those that it lists, and integers. -/
theorem referencesOf_eq_ok {count : Nat} (h : referencesOf rule count data = .ok refs) :
    (data.field? "refs").getD (.list []) = .list refs ∧ ∀ r ∈ refs, ∃ k : Int, r = .int k := by
  unfold referencesOf at h
  split at h
  · next hlist =>
    split at h
    · next hall =>
      split at h
      · cases h
        refine ⟨hlist, fun r hr => ?_⟩
        obtain ⟨k, hk⟩ := Option.isSome_iff_exists.mp (List.all_eq_true.mp hall r hr)
        exact ⟨k, Value.integer?_eq_some_iff.mp hk⟩
      · cases h
    · cases h
  · cases h

/-- A justification by a rule that cites lines cites the lines of the document. -/
theorem ofReferences_eq_ok (h : ofReferences rule refs data = .ok j) :
    j ≠ .bare ∧ (∀ n, j ≠ .ax n) ∧ j.references = refs := by
  unfold ofReferences at h
  -- one case for each rule, and in each the lines of the document are those of the justification
  split at h
  · cases h
    simp [references]
  · cases h
    simp [references]
  · cases h
    simp [references]
  · cases h
    simp [references]
  · cases h
    simp [references]
  · cases hside : sideOf data with
    | error m =>
      rw [hside] at h
      cases h
    | ok side =>
      rw [hside] at h
      cases h
      simp [references]
  · cases hdirection : directionOf data with
    | error m =>
      rw [hdirection] at h
      cases h
    | ok direction =>
      rw [hdirection] at h
      cases h
      simp [references]
  · cases h

/-- A document gives an axiom by a number of the size of one, two or three, or a justification by a
rule that cites the lines it lists. -/
theorem ofValue_eq_ok_cases (h : ofValue data = .ok j) :
    (∃ n, j = .ax n ∧ isAxiomNumber n = true) ∨
      j ≠ .bare ∧ (∀ n, j ≠ .ax n) ∧
        (data.field? "refs").getD (.list []) = .list j.references ∧
        ∀ r ∈ j.references, ∃ k : Int, r = .int k := by
  unfold ofValue at h
  split at h
  · cases h
  dsimp only at h
  -- an axiom that is named by its number alone
  split at h
  · cases h
    exact .inl ⟨_, rfl, rfl⟩
  split at h
  · cases h
    exact .inl ⟨_, rfl, rfl⟩
  split at h
  · cases h
    exact .inl ⟨_, rfl, rfl⟩
  -- an axiom with its number apart
  split at h
  · unfold axiomOf at h
    dsimp only at h
    split at h
    · next hn =>
      cases h
      exact .inl ⟨_, rfl, hn⟩
    · cases h
  -- the other rules cite lines
  split at h
  · cases h
  split at h
  · cases h
  · next hrefs =>
    obtain ⟨hbare, hax, rfl⟩ := ofReferences_eq_ok h
    obtain ⟨hlist, hint⟩ := referencesOf_eq_ok hrefs
    exact .inr ⟨hbare, hax, hlist, hint⟩

/-- What a document gives is readable, however it is spelled. -/
theorem isReadable_of_ofValue (h : ofValue data = .ok j) : j.IsReadable := by
  rcases ofValue_eq_ok_cases h with ⟨n, rfl, hn⟩ | ⟨hbare, hax, -, hint⟩
  · exact hn
  · cases j with
    | bare => exact absurd rfl hbare
    | ax n => exact absurd rfl (hax n)
    | mp | mt | hs | adj | ds | simp | iff => exact hint

/-! ## What is read back -/

/-- An axiom is read from its number. -/
theorem ofValue_of_axiom {data n : Value} (hobject : data.isObject = true)
    (hrule : data.field? "rule" = some (.text "AX")) (hfield : data.field? "axiom" = some n)
    (hn : isAxiomNumber n = true) : ofValue data = .ok (.ax n) := by
  have hruleOf : ruleOf data = "AX" := by
    have hread : Text.upper (Text.strip "AX") = "AX" := by decide +kernel
    rw [ruleOf, hrule, Option.getD_some, Value.plain, hread]
  have hnumber : data.fieldD "axiom" = n := by
    rw [Value.fieldD, hfield, Option.getD_some]
  have hax : axiomOf data = .ok (.ax n) := by
    rw [axiomOf, hnumber]
    exact if_pos hn
  simp [ofValue, hobject, hruleOf, hax]

/-- A readable justification is read from any document that has its fields. -/
theorem ofValue_of_fields (hj : j.IsReadable) (hobject : data.isObject = true)
    (hfields : ∀ name ∈ ["rule", "axiom", "refs", "pick", "dir"],
      data.field? name = Table.get? j.fields name) :
    ofValue data = .ok j := by
  have hrule := hfields "rule" (by decide)
  have hrefs := hfields "refs" (by decide)
  rcases j.cases_references with rfl | ⟨n, rfl⟩ | ⟨a, b, h⟩ | ⟨a, side, rfl⟩ | ⟨a, direction, rfl⟩
  · exact hj.elim
  · exact ofValue_of_axiom hobject hrule (hfields "axiom" (by decide)) hj
  · rw [h.fields] at hrule hrefs
    have hint := hj.forall_int
    rw [h.references] at hint
    rw [ofValue_of_references hobject hrule hrefs hint h.arity]
    exact h.read data
  · have hpick := hfields "pick" (by decide)
    rw [ofValue_of_references hobject hrule hrefs hj rfl, ofReferences_simp,
      sideOf_eq hpick (List.mem_cons_of_mem _ List.mem_cons_self)]
    rfl
  · have hdir := hfields "dir" (by decide)
    rw [ofValue_of_references hobject hrule hrefs hj rfl, ofReferences_iff, directionOf_eq hdir]
    rfl

theorem ofValue_toValue (hj : j.IsReadable) : ofValue j.toValue = .ok j :=
  ofValue_of_fields hj rfl fun _ _ => rfl

/-- The justifications that documents give. -/
theorem exists_ofValue_iff : (∃ data, ofValue data = .ok j) ↔ j.IsReadable := by
  constructor
  · rintro ⟨data, h⟩
    exact isReadable_of_ofValue h
  · intro hj
    exact ⟨j.toValue, ofValue_toValue hj⟩

end Justification

/-! ## Steps -/

namespace Step

theorem ofValue_eq_ok {line : Int} {v : Value} {s : Step} (h : ofValue line v = .ok s) :
    ((v.field? "line").getD (.int line)).integer? = some s.line ∧
      Justification.ofValue v = .ok s.justification := by
  unfold ofValue at h
  split at h
  · cases h
  split at h
  · cases h
  split at h
  · cases h
  next label hlabel =>
  split at h
  · cases h
  next j hj =>
  cases h
  exact ⟨hlabel, hj⟩

/-- A step is read from a document with its formula and its justification. -/
theorem ofValue_of_fields {line label : Int} {data : Value} {formula : String}
    {j : Justification} (hobject : data.isObject = true)
    (hformula : data.field? "formula" = some (.text formula))
    (hlabel : (data.field? "line").getD (.int line) = .int label)
    (hj : Justification.ofValue data = .ok j) : ofValue line data = .ok ⟨label, formula, j⟩ := by
  have htext : (data.fieldD "formula").text? = some formula := by
    rw [Value.fieldD, hformula, Option.getD_some, Value.text?]
  simp [ofValue, hobject, htext, hlabel, hj]

/-- A step with a readable justification is read from its document, whatever label it would have
for want of one. -/
theorem ofValue_toValue {s : Step} (hs : s.justification.IsReadable) (line : Int) :
    ofValue line s.toValue = .ok s := by
  have hj : Justification.ofValue s.toValue = .ok s.justification := by
    apply Justification.ofValue_of_fields hs rfl
    intro name hname
    -- the label and the formula stand under names of their own
    have hne : name ≠ "line" ∧ name ≠ "formula" := by
      revert name
      decide
    simp [toValue, Value.field?, Table.get?_cons, hne]
  exact ofValue_of_fields rfl rfl rfl hj

/-- A document that gives a step or a justification may spell it in any way: the document that is
written of the step or justification gives the same, whatever label a step would have for want of
one. -/
theorem ofValue_toValue_of_ofValue :
    (∀ (data : Value) (line : Int) (s : Step), ofValue line data = .ok s →
      ∀ line' : Int, ofValue line' s.toValue = .ok s) ∧
    ∀ (data : Value) (j : Justification), Justification.ofValue data = .ok j →
      Justification.ofValue j.toValue = .ok j := by
  constructor
  · intro data line s h line'
    obtain ⟨-, hj⟩ := ofValue_eq_ok h
    exact ofValue_toValue (Justification.isReadable_of_ofValue hj) line'
  · intro data j h
    exact Justification.ofValue_toValue (Justification.isReadable_of_ofValue h)

/-- A biconditional's elimination, spelled with a ligature and blanks, with a field too many and
without a label. -/
def looseItem : Value :=
  .object [("dir", .text " l → R "), ("refs", .list [.int (-3)]), ("formula", .text "A->B"),
    ("pick", .null), ("rule", .text " iﬀ ")]

/-- An axiom whose number is a truth value. -/
def looseAxiom : Value :=
  .object [("axiom", .bool true), ("rule", .text "ax")]

theorem ofValue_toValue_of_ofValue_samples :
    ofValue 7 looseItem = .ok ⟨7, "A->B", .iff (.int (-3)) .leftToRight⟩ ∧
    ofValue 0 (toValue ⟨7, "A->B", .iff (.int (-3)) .leftToRight⟩) =
      .ok ⟨7, "A->B", .iff (.int (-3)) .leftToRight⟩ ∧
    Justification.ofValue looseAxiom = .ok (.ax (.bool true)) ∧
    Justification.ofValue (Justification.toValue (.ax (.bool true))) = .ok (.ax (.bool true)) := by
  have hitem : ofValue 7 looseItem = .ok ⟨7, "A->B", .iff (.int (-3)) .leftToRight⟩ := rfl
  have hax : Justification.ofValue looseAxiom = .ok (.ax (.bool true)) := rfl
  exact ⟨hitem, ofValue_toValue_of_ofValue.1 _ _ _ hitem 0, hax,
    ofValue_toValue_of_ofValue.2 _ _ hax⟩

end Step

end Propositional
