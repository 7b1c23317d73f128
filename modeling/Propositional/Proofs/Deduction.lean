import Propositional.Proofs.Search

/-!
# Premises moved into the conclusion

A premise may be moved into the conclusion, which then is an implication. The two questions do not
only have the same answer: the same countermodels are reported, in the same order, whether all
valuations are looked at or only samples.

The search looks at a question in two ways only. It goes through its variables in order of first
occurrence, and it asks of a valuation whether it is a countermodel. A premise that is moved stays
in its place among the others and the conclusion, so the variables occur in the same order; and it
is looked at after the premises that stay and before the conclusion, so that even a valuation that
leaves some variables without a value gives the same answer.

## Main definitions

* `Entailment.curried`: the implication from premises, one after the other, to a conclusion

## Main results

* `Entailment.entails_congr`: what the answer depends on
* `Entailment.entails_append`: premises may be moved into the conclusion
* `Entailment.exists_entails_isTautology`: without premises, entailment is tautology
* `Entailment.entails_deduction`: the deduction law, as an identity of answers
-/

namespace Propositional.Entailment

/-! ## What an answer depends on -/

section Congruence

variable {premises premises' : List Formula} {conclusion conclusion' : Formula}
  (h : ∀ v, isCountermodel premises conclusion v = isCountermodel premises' conclusion' v)

include h

theorem search_congr (names : List String) (v : Valuation) (limit : Int) :
    search premises conclusion names v limit = search premises' conclusion' names v limit := by
  induction names generalizing v limit with
  | nil => rw [search, search, h]
  | cons x xs ih => simp only [search, h, ih]

theorem searchSamples_congr (names : List String) (bits : List Nat) (count counter : Nat)
    (limit : Int) :
    searchSamples premises conclusion names bits count counter limit =
      searchSamples premises' conclusion' names bits count counter limit := by
  induction count generalizing counter limit with
  | zero => rw [searchSamples, searchSamples]
  | succ count ih => simp only [searchSamples, h, ih]

/-- Two questions about the same variables that have the same countermodels have the same answer. -/
theorem entails_congr (s : Settings)
    (hvars : vars premises conclusion = vars premises' conclusion') :
    entails s premises conclusion = entails s premises' conclusion' := by
  have hall : ofAll s premises conclusion = ofAll s premises' conclusion' := by
    rw [ofAll, ofAll, hvars, search_congr h]
  have hsample : ofSample s premises conclusion = ofSample s premises' conclusion' := by
    simp only [ofSample, hvars, searchSamples_congr h]
  have hexhaustive : isExhaustive s premises conclusion = isExhaustive s premises' conclusion' := by
    rw [isExhaustive, isExhaustive, hvars]
  rw [entails, entails, hexhaustive, hall, hsample]

end Congruence

/-! ## Premises moved into the conclusion -/

/-- The implication from premises, one after the other, to a conclusion. -/
def curried (premises : List Formula) (conclusion : Formula) : Formula :=
  premises.foldr .imp conclusion

/-- The names of an implication from premises are met in the order of the premises. -/
theorem collect_curried (keep : String → Bool) (seen : List String) (premises : List Formula)
    (conclusion : Formula) :
    (curried premises conclusion).collect keep seen =
      (premises ++ [conclusion]).foldl (fun seen f => f.collect keep seen) seen := by
  induction premises generalizing seen with
  | nil => rfl
  | cons p premises ih => exact ih (p.collect keep seen)

theorem vars_append (premises moved : List Formula) (conclusion : Formula) :
    vars (premises ++ moved) conclusion = vars premises (curried moved conclusion) := by
  simp only [vars, Formula.varsOf, List.append_assoc, List.foldl_append, List.foldl_cons,
    List.foldl_nil, collect_curried]

/-- An implication is looked at as a premise and a conclusion are: the premise first, and the
conclusion only if it is true. -/
theorem isCountermodel_imp (p conclusion : Formula) (v : Valuation) :
    isCountermodel [] (.imp p conclusion) v = isCountermodel [p] conclusion v := by
  cases hp : p.evaluate v with
  | error u => simp [isCountermodel, Valuation.satisfies, Formula.evaluate, hp]
  | ok b =>
    cases b with
    -- the left side decides the implication, as a false premise decides the question
    | false => simp [isCountermodel, Valuation.satisfies, Formula.evaluate, hp, Connective.decided?]
    | true =>
      cases hc : conclusion.evaluate v <;>
        simp [isCountermodel, Valuation.satisfies, Formula.evaluate, hp, hc, Connective.decided?,
          Connective.apply]

/-- What comes behind a premise is looked at only if the premise is true. -/
theorem isCountermodel_cons_congr {premises premises' : List Formula}
    {conclusion conclusion' : Formula} {v : Valuation} (p : Formula)
    (h : isCountermodel premises conclusion v = isCountermodel premises' conclusion' v) :
    isCountermodel (p :: premises) conclusion v =
      isCountermodel (p :: premises') conclusion' v := by
  simp only [isCountermodel, Valuation.satisfies] at h ⊢
  cases p.evaluate v with
  | error u => rfl
  | ok b =>
    cases b with
    | false => rfl
    | true => exact h

/-- A valuation is a countermodel whether premises stand before the conclusion or in it. This holds
of valuations of some of the variables, too: whatever is missing is missed at the same place. -/
theorem isCountermodel_append (premises moved : List Formula) (conclusion : Formula)
    (v : Valuation) :
    isCountermodel (premises ++ moved) conclusion v =
      isCountermodel premises (curried moved conclusion) v := by
  induction premises with
  | cons p premises ih => exact isCountermodel_cons_congr p ih
  | nil =>
    -- all premises are moved, one after the other
    induction moved with
    | nil => rfl
    | cons p moved ih =>
      calc isCountermodel (p :: moved) conclusion v
        _ = isCountermodel [p] (curried moved conclusion) v := isCountermodel_cons_congr p ih
        _ = isCountermodel [] (curried (p :: moved) conclusion) v := (isCountermodel_imp p _ v).symm

/-- Premises may be moved into the conclusion. -/
theorem entails_append (s : Settings) (premises moved : List Formula) (conclusion : Formula) :
    entails s (premises ++ moved) conclusion = entails s premises (curried moved conclusion) :=
  entails_congr (isCountermodel_append premises moved conclusion) s
    (vars_append premises moved conclusion)

/-! ## Tautologies -/

section Tautology

variable {s : Settings} {f : Formula}

/-- Within the limit a formula is called a tautology or not according to its values under all
valuations of its variables. -/
theorem isTautology_eq_ok (hlimit : (f.vars.length : Int) ≤ s.tautologyLimit) :
    f.isTautology s = .ok (decide (∀ v ∈ Valuation.all f.vars, ¬ Refutes [] f v)) := by
  have hlists := Formula.listsNames_vars f
  have hnames : (Table.names ([] : Valuation) ++ f.vars).Nodup := hlists.1
  have hcovers : ∀ x ∈ f.leaves, x ∈ Table.names ([] : Valuation) ++ f.vars :=
    fun x hx => (hlists.2 x).mpr ⟨f, List.mem_singleton.mpr rfl, hx⟩
  have hwithin : ¬ f.exceedsTautologyLimit s = true := by
    rw [Formula.exceedsTautologyLimit, decide_eq_true_eq]
    omega
  have hcases := Formula.trueThroughout_cases hnames hcovers
  rw [← Valuation.all_eq_completions hlists.1] at hcases
  rw [Formula.isTautology, if_neg hwithin]
  rcases hcases with ⟨htrue, hall⟩ | ⟨hfalse, w, hw, hwf⟩
  · rw [htrue, decide_eq_true]
    rintro v hv ⟨-, hvf⟩
    cases (hall v hv).symm.trans hvf
  · rw [hfalse, decide_eq_false]
    exact fun hnone => hnone w hw ⟨List.forall_mem_nil _, hwf⟩

/-- Where all valuations are looked at, the answer is yes exactly if none is a countermodel. -/
theorem exists_entails_valid (premises : List Formula) (conclusion : Formula)
    (hlimit : ((vars premises conclusion).length : Int) ≤ s.entailmentLimit) :
    ∃ e, entails s premises conclusion = .ok e ∧
      e.valid = decide (∀ v ∈ Valuation.all (vars premises conclusion),
        ¬ Refutes premises conclusion v) := by
  have hexhaustive : isExhaustive s premises conclusion = true := decide_eq_true hlimit
  refine ⟨_, by simp only [entails, hexhaustive, if_true, ofAll_eq_ok]; rfl, ?_⟩
  rw [Bool.eq_iff_iff, decide_eq_true_eq, List.isEmpty_iff, take_room_eq_nil_iff,
    List.filter_eq_nil_iff]
  simp only [decide_eq_true_eq]

/-- Within both limits premises entail a conclusion exactly if the implication from them to it is
called a tautology. -/
theorem exists_entails_isTautology {premises : List Formula} {conclusion : Formula}
    (hlimit : ((vars premises conclusion).length : Int) ≤ s.entailmentLimit)
    (hlimit' : ((vars premises conclusion).length : Int) ≤ s.tautologyLimit) :
    ∃ e, entails s premises conclusion = .ok e ∧
      (curried premises conclusion).isTautology s = .ok e.valid := by
  have hvars : vars premises conclusion = (curried premises conclusion).vars :=
    vars_append [] premises conclusion
  rw [hvars] at hlimit hlimit'
  obtain ⟨e, he, hvalid⟩ := exists_entails_valid [] (curried premises conclusion) hlimit
  exact ⟨e, (entails_append s [] premises conclusion).trans he,
    (isTautology_eq_ok hlimit').trans (congrArg Except.ok hvalid.symm)⟩

end Tautology

/-- The last premise may be moved into the conclusion: whatever the settings are, the two questions
have the same answer, with the same countermodels in the same order. There is an answer if the
counter of samples has a bit. So where the different variables are within both limits, premises
entail a conclusion exactly if the implication from all of them to it is called a tautology. -/
theorem entails_deduction (s : Settings) (premises : List Formula) (p conclusion : Formula) :
    entails s (premises ++ [p]) conclusion = entails s premises (.imp p conclusion) ∧
    (1 ≤ s.entailmentLimit → ∃ e, entails s (premises ++ [p]) conclusion = .ok e) ∧
    (((vars premises conclusion).length : Int) ≤ s.entailmentLimit →
      ((vars premises conclusion).length : Int) ≤ s.tautologyLimit →
      ∃ e, entails s premises conclusion = .ok e ∧
        (curried premises conclusion).isTautology s = .ok e.valid) := by
  refine ⟨entails_append s premises [p] conclusion, fun hlimit => ?_, exists_entails_isTautology⟩
  obtain ⟨vs, hvs⟩ := exists_space hlimit (premises ++ [p]) conclusion
  exact ⟨_, entails_eq_ok hlimit hvs⟩

/-- Three variables share the only bit of the counter, and the second sample is a countermodel. Two
variables are within both limits, and modus ponens is a tautology. -/
theorem entails_deduction_samples :
    (∃ e, entails { entailmentLimit := 1, entailmentSamples := 2 } [.var "A", .var "B"]
        (.neg (.var "C")) = .ok e ∧
      entails { entailmentLimit := 1, entailmentSamples := 2 } [.var "A"]
        (.imp (.var "B") (.neg (.var "C"))) = .ok e ∧
      e.countermodels = [[("A", true), ("B", true), ("C", true)]] ∧ e.exhaustive = false) ∧
    ∃ e, entails {} [.var "A", .imp (.var "A") (.var "B")] (.var "B") = .ok e ∧ e.valid = true ∧
      (Formula.imp (.var "A") (.imp (.imp (.var "A") (.var "B")) (.var "B"))).isTautology {} =
        .ok e.valid := by
  constructor
  · obtain ⟨hsame, hanswered, -⟩ := entails_deduction
      { entailmentLimit := 1, entailmentSamples := 2 } [.var "A"] (.var "B") (.neg (.var "C"))
    obtain ⟨e, he⟩ := hanswered (by decide)
    refine ⟨e, he, hsame.symm.trans he, ?_⟩
    cases he
    exact ⟨rfl, rfl⟩
  · obtain ⟨-, -, htautology⟩ := entails_deduction {} [.var "A", .imp (.var "A") (.var "B")]
      (.var "C") (.var "B")
    obtain ⟨e, he, hvalid⟩ := htautology (by decide) (by decide)
    refine ⟨e, he, ?_, hvalid⟩
    cases he
    rfl

end Propositional.Entailment
