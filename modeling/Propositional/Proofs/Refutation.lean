import Propositional.Proofs.Contradictions
import Propositional.Proofs.Soundness

/-!
# Soundness of refutations

A refutation is accepted if no line has a fault and the lines hold a contradiction. Lines without
faults are true wherever the givens are, under every valuation of all names, so also of the names
that only axioms brought in. A contradiction is true nowhere. So the givens of an accepted
refutation are nowhere true together, and where they are no steps whatever refute them.

## Main definitions

* `Lines.Contradictory`: lines that cannot all be true, for one of two visible reasons

## Main results

* `Lines.contradictory_of_contradiction?`: what the search finds is contradictory
* `Attempt.not_forall_holds_of_refute`: the premises of an accepted refutation are never all true
* `Proof.refute_sound`: accepted refutations refute their givens
-/

namespace Propositional

/-! ## Contradictions -/

namespace Formula

variable {f g : Formula} {w : String → Bool}

/-- Two formulas that clash are not both true. -/
theorem not_holds_of_clashes (h : f.clashes g = true) (hf : f.holds w = true) :
    ¬ g.holds w = true := by
  rcases clashes_iff.mp h with rfl | rfl
  · exact holds_neg.mp hf
  · exact fun hg => holds_neg.mp hg hf

/-- A formula joined with its negation is not true. -/
theorem not_holds_of_isAbsurd (h : f.isAbsurd = true) : ¬ f.holds w = true := by
  unfold isAbsurd at h
  split at h
  · next l r =>
    intro hlr
    obtain ⟨hl, hr⟩ := holds_and.mp hlr
    exact not_holds_of_clashes h hl hr
  · cases h

end Formula

namespace Lines

variable {lines : Lines}

/-- One line joins a formula with its negation, or of two lines one is the negation of the
other. -/
def Contradictory (lines : Lines) : Prop :=
  (∃ f, some f ∈ lines ∧ f.isAbsurd = true) ∨
    ∃ f g, some f ∈ lines ∧ some g ∈ lines ∧ f.clashes g = true

/-- Lines in which the search finds a contradiction are contradictory. -/
theorem contradictory_of_contradiction? {p : Nat × Nat} (h : lines.contradiction? = some p) :
    lines.Contradictory := by
  rcases contradiction?_cases lines with
    ⟨i, -, hi, -⟩ | ⟨-, ⟨i, j, -, ⟨-, hij⟩, -⟩ | ⟨hnone, -⟩⟩
  · obtain ⟨f, hf, habsurd⟩ := absurdAt_iff.mp hi
    exact .inl ⟨f, hf.mem, habsurd⟩
  · obtain ⟨f, g, hf, hg, hclash⟩ := clashAt_iff.mp hij
    exact .inr ⟨f, g, hf.mem, hg.mem, hclash⟩
  · cases h.symm.trans hnone

/-- Contradictory lines are not all true. -/
theorem Contradictory.not_forall_holds (h : lines.Contradictory) (w : String → Bool) :
    ¬ ∀ f, some f ∈ lines → f.holds w = true := by
  intro hw
  rcases h with ⟨f, hf, habsurd⟩ | ⟨f, g, hf, hg, hclash⟩
  · exact Formula.not_holds_of_isAbsurd habsurd (hw f hf)
  · exact Formula.not_holds_of_clashes hclash (hw f hf) (hw g hg)

end Lines

/-! ## Accepted refutations -/

namespace Attempt

variable {maxDepth : Int} {a : Attempt}

/-- A refutation is accepted exactly if no line has a fault and a contradiction is found. -/
theorem refute_ok_iff :
    (a.refute maxDepth).ok = true ↔
      a.faults maxDepth = [] ∧ ∃ p, (a.lines maxDepth).contradiction? = some p := by
  simp only [refute, Verdict.ok, List.isEmpty_iff, List.append_eq_nil_iff, missedContradiction]
  constructor
  · rintro ⟨hfaults, hmissed⟩
    refine ⟨hfaults, Option.ne_none_iff_exists'.mp fun hnone => ?_⟩
    simp [hfaults, hnone] at hmissed
  · rintro ⟨hfaults, p, hp⟩
    simp [hfaults, hp]

/-- Where no line has a fault all lines are true wherever the premises are. -/
theorem holds_of_mem_lines (h : a.faults maxDepth = []) {w : String → Bool}
    (hw : ∀ g ∈ a.premises, g.holds w = true) {f : Formula} (hf : some f ∈ a.lines maxDepth) :
    f.holds w = true := by
  obtain ⟨k, hk⟩ := List.mem_iff_getElem?.mp hf
  have hlt := (List.getElem?_eq_some_iff.mp hk).1
  rw [lines, List.length_map] at hlt
  obtain ⟨g, hg, hgw⟩ := holds_of_clean (clean_of_faults_eq_nil h hlt)
  rw [lines_eq_written, hg] at hk
  cases hk
  exact hgw w hw

/-- The premises of an accepted refutation are not all true under any valuation. -/
theorem not_forall_holds_of_refute (h : (a.refute maxDepth).ok = true) (w : String → Bool) :
    ¬ ∀ g ∈ a.premises, g.holds w = true := by
  intro hw
  obtain ⟨hfaults, p, hp⟩ := refute_ok_iff.mp h
  -- all lines would be true, those of the contradiction among them
  exact (Lines.contradictory_of_contradiction? hp).not_forall_holds w
    fun f hf => holds_of_mem_lines hfaults hw hf

end Attempt

namespace Proof

/-- A valuation makes true every given that can be read. -/
def Satisfies (maxDepth : Int) (v : Valuation) (given : List String) : Prop :=
  ∀ t ∈ given, ∀ g, Formula.parse maxDepth t = .ok g → g.evaluate v = .ok true

/-- The givens of an accepted refutation can all be read. -/
theorem exists_parse_of_refute {maxDepth : Int} {p : Proof} (h : (p.refute maxDepth).ok = true) :
    ∀ t ∈ p.given, ∃ g, Formula.parse maxDepth t = .ok g := by
  intro t ht
  obtain ⟨hfaults, -⟩ := Attempt.refute_ok_iff.mp h
  exact (Attempt.faults_eq_nil_iff.mp hfaults).1 _ (List.mem_map_of_mem ht)

/-- No valuation makes true all givens of an accepted refutation. -/
theorem not_satisfies_of_refute {maxDepth : Int} {p : Proof} (h : (p.refute maxDepth).ok = true)
    (v : Valuation) : ¬ Satisfies maxDepth v p.given := by
  intro hv
  refine Attempt.not_forall_holds_of_refute h v.total fun g hg => ?_
  rw [attempt_premises, premises, List.mem_filterMap] at hg
  obtain ⟨t, ht, hg⟩ := hg
  have hparse : Formula.parse maxDepth t = .ok g := by
    cases hp : Formula.parse maxDepth t with
    | error e => simp [hp, Except.toOption] at hg
    | ok g' =>
      rw [hp] at hg
      cases hg
      rfl
  exact Formula.holds_of_evaluate v.agreesWith_total (hv t ht g hparse)

/-- If a refutation is accepted then all givens can be read, and no valuation makes all of them
true. So nothing is refuted from no givens, and no steps refute givens that some valuation makes
true. -/
theorem refute_sound (maxDepth : Int) (given : List String) :
    (∀ steps goal, (refute maxDepth ⟨given, steps, goal⟩).ok = true →
      (∀ t ∈ given, ∃ g, Formula.parse maxDepth t = .ok g) ∧
      ¬ ∃ v : Valuation, Satisfies maxDepth v given) ∧
    (∀ steps goal, (refute maxDepth ⟨[], steps, goal⟩).ok = false) ∧
    ((∃ v : Valuation, Satisfies maxDepth v given) →
      ∀ steps goal, (refute maxDepth ⟨given, steps, goal⟩).ok = false) := by
  refine ⟨fun steps goal h => ⟨exists_parse_of_refute h, ?_⟩, fun steps goal => ?_, ?_⟩
  · rintro ⟨v, hv⟩
    exact not_satisfies_of_refute h v hv
  · rw [Bool.eq_false_iff]
    intro h
    -- the empty valuation makes true all of no givens
    exact not_satisfies_of_refute h [] fun t ht => by cases ht
  · rintro ⟨v, hv⟩ steps goal
    rw [Bool.eq_false_iff]
    intro h
    exact not_satisfies_of_refute h v hv

/-- Givens that an instance of the first axiom and modus ponens lead to a contradiction. -/
def contradictoryGivens : List String := ["A", "~(B -> A)"]

/-- The steps from `contradictoryGivens` to `B->A`, which the second of them negates. -/
def contradictorySteps : List Step :=
  [⟨3, "A -> B -> A", .ax (.int 1)⟩, ⟨4, "B -> A", .mp (.int 1) (.int 3)⟩]

theorem refute_sound_samples :
    (refute 100 ⟨contradictoryGivens, contradictorySteps, none⟩).ok = true ∧
    (¬ ∃ v : Valuation, Satisfies 100 v contradictoryGivens) ∧
    ∀ steps goal, (refute 100 ⟨["A"], steps, goal⟩).ok = false := by
  have hok : (refute 100 ⟨contradictoryGivens, contradictorySteps, none⟩).ok = true := by
    decide +kernel
  refine ⟨hok, ((refute_sound 100 contradictoryGivens).1 contradictorySteps none hok).2, ?_⟩
  refine (refute_sound 100 ["A"]).2.2 ⟨[("A", true)], fun t ht g hg => ?_⟩
  obtain rfl := List.mem_singleton.mp ht
  have hA : (Formula.parse 100 "A").toOption = some (.var "A") := by decide +kernel
  rw [hg] at hA
  cases hA
  rfl

end Proof

end Propositional
