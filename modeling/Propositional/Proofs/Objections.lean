import Propositional.Proofs.Conclusions
import Propositional.Proofs.Documents

/-!
# What objections quote

A rule that objects quotes parts of the lines it was given, so the formulas in its words have every
property of the lines that parts inherit. A line that claims the wrong conclusion is answered with
the right one. So the formulas in the words of an objection are no higher than the lines, except
that the right conclusion may be an adjunction of two of them.

## Main definitions

* `Formula.Inherited`: a property that the sides of a connective inherit
* `Lines.KeepTo`: a bound on the heights of the lines
* `Rule.ObjectsWith`: a property of what is quoted
* `Rule.ObjectsWithin`: a bound on the heights of what is quoted

## Main results

* `Justification.objectsWith_conclusions`: what rules quote
* `Justification.height_le_of_validate`: the heights of what a refusal quotes
-/

namespace Propositional

theorem forall_mem_pair {α : Type} {P : α → Prop} {x y : α} :
    (∀ z ∈ [x, y], P z) ↔ P x ∧ P y := by
  rw [List.forall_mem_cons, List.forall_mem_singleton]

/-- A property of formulas that the sides of a connective inherit. -/
def Formula.Inherited (P : Formula → Prop) : Prop :=
  ∀ op l r, P (.bin op l r) → P l ∧ P r

theorem Formula.inherited_height_le (d : Nat) : Inherited fun f => f.height ≤ d := by
  intro op l r h
  dsimp only at h ⊢
  rw [height] at h
  omega

/-- All formulas on the lines have a property. -/
def Lines.Have (lines : Lines) (P : Formula → Prop) : Prop :=
  ∀ f, some f ∈ lines → P f

theorem Lines.Have.of_cites {lines : Lines} {P : Formula → Prop} {n : Value} {f : Formula}
    (h : lines.Have P) (hf : lines.Cites n f) : P f := by
  obtain ⟨k, -, hk⟩ := hf
  exact h f (List.mem_of_getElem? hk)

/-- No formula on the lines is higher than `d`. -/
def Lines.KeepTo (lines : Lines) (d : Nat) : Prop :=
  lines.Have fun f => f.height ≤ d

theorem Lines.KeepTo.of_cites {lines : Lines} {d : Nat} {n : Value} {f : Formula}
    (h : lines.KeepTo d) (hf : lines.Cites n f) : f.height ≤ d :=
  Have.of_cites h hf

/-! ## Rules -/

namespace Rule

/-- Whatever objection there is, all formulas it quotes have a property. -/
def ObjectsWith {α : Type} (P : Formula → Prop) (x : Except Objection α) : Prop :=
  Faults (fun o => ∀ f ∈ o.quoted, P f) x

/-- Whatever objection there is, it quotes no formula higher than `d`. -/
def ObjectsWithin {α : Type} (d : Nat) (x : Except Objection α) : Prop :=
  ObjectsWith (fun f => f.height ≤ d) x

section

variable {lines : Lines} {P : Formula → Prop} {a b n : Value} {f : Formula}

theorem objectsWith_cite : ObjectsWith P (lines.cite n) := by
  intro o h
  rcases Lines.cite_eq_error_cases h with rfl | rfl <;> exact List.forall_mem_nil _

theorem objectsWith_expectImplication : ObjectsWith P (expectImplication n f) := by
  unfold expectImplication
  split
  · exact faults_ok _
  · exact faults_error (List.forall_mem_nil _)

theorem objectsWith_expectNegation : ObjectsWith P (expectNegation n f) := by
  unfold expectNegation
  split
  · exact faults_ok _
  · exact faults_error (List.forall_mem_nil _)

theorem objectsWith_expectDisjunction : ObjectsWith P (expectDisjunction n f) := by
  unfold expectDisjunction
  split
  · exact faults_ok _
  · exact faults_error (List.forall_mem_nil _)

theorem objectsWith_expectConjunction : ObjectsWith P (expectConjunction n f) := by
  unfold expectConjunction
  split
  · exact faults_ok _
  · exact faults_error (List.forall_mem_nil _)

theorem objectsWith_expectBiconditional : ObjectsWith P (expectBiconditional n f) := by
  unfold expectBiconditional
  split
  · exact faults_ok _
  · exact faults_error (List.forall_mem_nil _)

/-- The sides of an implication on a cited line have what is inherited. -/
theorem sides_of_cite (hP : Formula.Inherited P) (hlines : lines.Have P)
    {p : Formula × Formula} (hn : lines.cite n = .ok f) (hp : expectImplication a f = .ok p) :
    P p.1 ∧ P p.2 := by
  have hf := hlines.of_cites (Lines.cite_eq_ok_iff.mp hn)
  rw [expectImplication_eq_ok_iff.mp hp] at hf
  exact hP _ _ _ hf

theorem objectsWith_modusPonens (hP : Formula.Inherited P) (hlines : lines.Have P) :
    ObjectsWith P (modusPonens lines a b) := by
  refine objectsWith_cite.bind fun X ha => objectsWith_cite.bind fun f hb =>
    objectsWith_expectImplication.bind fun p hp => ?_
  dsimp only
  split
  · exact faults_ok _
  · exact faults_error (forall_mem_pair.mpr
      ⟨(sides_of_cite hP hlines hb hp).1, hlines.of_cites (Lines.cite_eq_ok_iff.mp ha)⟩)

theorem objectsWith_modusTollens (hP : Formula.Inherited P) (hlines : lines.Have P) :
    ObjectsWith P (modusTollens lines a b) := by
  refine objectsWith_cite.bind fun f ha => objectsWith_expectImplication.bind fun p hp =>
    objectsWith_cite.bind fun g hb => objectsWith_expectNegation.bind fun z hz => ?_
  split
  · exact faults_ok _
  · exact faults_error (List.forall_mem_singleton.mpr (sides_of_cite hP hlines ha hp).2)

theorem objectsWith_chain (hP : Formula.Inherited P) (hlines : lines.Have P) (a b : Value) :
    ObjectsWith P (chain lines a b) := by
  refine objectsWith_cite.bind fun f ha => objectsWith_expectImplication.bind fun p hp =>
    objectsWith_cite.bind fun g hb => objectsWith_expectImplication.bind fun q hq => ?_
  dsimp only
  split
  · exact faults_ok _
  · exact faults_error (forall_mem_pair.mpr
      ⟨(sides_of_cite hP hlines ha hp).2, (sides_of_cite hP hlines hb hq).1⟩)

theorem objectsWith_adjoin (a b : Value) : ObjectsWith P (adjoin lines a b) :=
  objectsWith_cite.bind fun _ _ => objectsWith_cite.bind fun _ _ => faults_ok _

theorem objectsWith_disjoin (a b : Value) : ObjectsWith P (disjoin lines a b) := by
  refine objectsWith_cite.bind fun f _ => objectsWith_expectDisjunction.bind fun p _ =>
    objectsWith_cite.bind fun g _ => objectsWith_expectNegation.bind fun z _ => ?_
  split
  · exact faults_ok _
  · split
    · exact faults_ok _
    · exact faults_error (List.forall_mem_nil _)

theorem objectsWith_simplify (n : Value) (side : Side) :
    ObjectsWith P (simplify lines n side) := by
  refine objectsWith_cite.bind fun f _ => objectsWith_expectConjunction.bind fun p _ => ?_
  cases side <;> exact faults_ok _

theorem objectsWith_eliminate (n : Value) (direction : Direction) :
    ObjectsWith P (eliminate lines n direction) := by
  refine objectsWith_cite.bind fun f _ => objectsWith_expectBiconditional.bind fun p _ => ?_
  cases direction <;> exact faults_ok _

end

end Rule

/-! ## Justifications -/

namespace Justification

variable {lines : Lines} {P : Formula → Prop} {d : Nat} {j : Justification} {F : Formula}
  {o : Objection}

/-- The formulas that a rule quotes have whatever the lines have and their parts inherit. -/
theorem objectsWith_conclusions (hP : Formula.Inherited P) (hlines : lines.Have P)
    (j : Justification) : Rule.ObjectsWith P (j.conclusions lines) := by
  cases j with
  | bare => exact Rule.faults_error (List.forall_mem_nil _)
  | ax n => exact Rule.faults_error (List.forall_mem_nil _)
  | mp a b => exact (Rule.objectsWith_modusPonens hP hlines).single
  | mt a b => exact (Rule.objectsWith_modusTollens hP hlines).single
  | hs a b =>
    exact .eitherOrder (Rule.objectsWith_chain hP hlines a b) (Rule.objectsWith_chain hP hlines b a)
  | adj a b => exact .eitherOrder (Rule.objectsWith_adjoin a b) (Rule.objectsWith_adjoin b a)
  | ds a b => exact .eitherOrder (Rule.objectsWith_disjoin a b) (Rule.objectsWith_disjoin b a)
  | simp n side => exact (Rule.objectsWith_simplify n side).single
  | iff n direction => exact (Rule.objectsWith_eliminate n direction).single

theorem objectsWithin_conclusions (hd : lines.KeepTo d) (j : Justification) :
    Rule.ObjectsWithin d (j.conclusions lines) :=
  objectsWith_conclusions (Formula.inherited_height_le d) hd j

/-- A refusal is that of the axiom, that of the rule, or names another conclusion. -/
theorem validate_eq_error_cases (h : j.validate lines F = .error o) :
    (∃ n, j = .ax n ∧ validateInstance n F = .error o) ∨
      (∀ n, j ≠ .ax n) ∧ (j.conclusions lines = .error o ∨
        ∃ c, j.conclusions lines = .ok c ∧ o = .wrongConclusion j.rule F c.preferred) := by
  by_cases hj : ∃ n, j = .ax n
  · obtain ⟨n, rfl⟩ := hj
    exact .inl ⟨n, rfl, h⟩
  · have hj : ∀ n, j ≠ .ax n := fun n h => hj ⟨n, h⟩
    refine .inr ⟨hj, ?_⟩
    unfold validate at h
    split at h
    · exact absurd rfl (hj _)
    · split at h
      · next hc =>
        cases h
        exact .inl hc
      · next c hc =>
        split at h <;> cases h
        exact .inr ⟨c, hc, rfl⟩

/-- A refused axiom is looked up by something that is no number, there is none of the number, or the
formula is no instance of it. -/
theorem validateInstance_eq_error_cases {n : Value} (h : validateInstance n F = .error o) :
    n.isScalar = false ∧ o = .badNumber n ∨ o = .noAxiom n ∨
      ∃ S, Hilbert.schema? n = some S ∧ o = .notInstance F n S := by
  unfold validateInstance at h
  split at h
  · next hn =>
    cases h
    exact .inl ⟨by simpa using hn, rfl⟩
  · split at h
    · cases h
      exact .inr (.inl rfl)
    · next S hS =>
      split at h <;> cases h
      exact .inr (.inr ⟨S, hS, rfl⟩)

theorem height_le_of_schema? {n : Value} {S : Formula} (h : Hilbert.schema? n = some S) :
    S.height ≤ 5 := by
  obtain ⟨k, hk, -⟩ := Hilbert.schema?_eq_some_iff.mp h
  have hall : ∀ p ∈ Hilbert.numbered, p.2.height ≤ 5 := by decide
  exact hall _ hk

/-- A refusal quotes no formula that is more than one level higher than the lines and the claim,
axioms apart. -/
theorem height_le_of_validate (hd : lines.KeepTo d) (hF : F.height ≤ d + 1)
    (h : j.validate lines F = .error o) : ∀ f ∈ o.quoted, f.height ≤ max 5 (d + 1) := by
  rcases validate_eq_error_cases h with ⟨n, rfl, hn⟩ | ⟨hj, hc | ⟨c, hc, rfl⟩⟩
  · rcases validateInstance_eq_error_cases hn with ⟨-, rfl⟩ | rfl | ⟨S, hS, rfl⟩
    · exact List.forall_mem_nil _
    · exact List.forall_mem_nil _
    · have hS := height_le_of_schema? hS
      refine forall_mem_pair.mpr ⟨?_, ?_⟩
      · omega
      · omega
  · intro f hf
    have hf := objectsWithin_conclusions hd j o hc f hf
    omega
  · -- the answer quotes the right conclusion, which may adjoin two lines
    have hfollows : Follows lines j c.preferred :=
      (mem_conclusions_iff hj).mp ⟨c, hc, List.mem_cons_self⟩
    have hpreferred := hfollows.height_le_succ hj fun n _ g hg => hd.of_cites hg
    refine forall_mem_pair.mpr ⟨?_, ?_⟩
    · omega
    · omega

/-- An axiom that a document gives has one of the three numbers. -/
theorem isScalar_of_ofValue {v n : Value} (h : ofValue v = .ok (.ax n)) : n.isScalar = true := by
  have hn : isAxiomNumber n = true := isReadable_of_ofValue h
  simp only [isAxiomNumber, Bool.or_eq_true] at hn
  rcases hn with (hn | hn) | hn
  · exact isScalar_of_equalsInteger hn
  · exact isScalar_of_equalsInteger hn
  · exact isScalar_of_equalsInteger hn

end Justification

end Propositional
