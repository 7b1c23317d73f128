import Propositional.Proof.Checker
import Propositional.Proofs.Inference

/-!
# Accepted proofs are derivations

The checker passes over the lines once and carries what it has read so far. Line by line this
comes to the following: the formula on a line is what its text writes, whatever happened before,
and a step is checked against what the texts of all lines before it write. A proof is accepted
exactly if every text can be read, every step follows from the lines before it, and the last line
is the goal.

## Main definitions

* `Attempt.written`, `Proof.written`: what the texts of the lines write

## Main results

* `Attempt.getElem?_derive_given`, `Attempt.getElem?_derive_step`: a line after checking
* `Proof.check_ok_iff_derivation`: the accepted proofs
-/

namespace Propositional

/-- The formula that the text of a step writes, if it writes one. -/
def Step.written (maxDepth : Int) (s : Step) : Option Formula :=
  (Formula.parse maxDepth s.formula).toOption

namespace Attempt

/-- The formulas that the texts of the lines write, those of the givens first. -/
def written (maxDepth : Int) (a : Attempt) : Lines :=
  a.given.map Except.toOption ++ a.steps.map (Step.written maxDepth)

/-! ## Single lines -/

theorem checkGiven_formula (label : Int) (r : Reading) :
    (checkGiven label r).formula = r.toOption := by
  cases r <;> rfl

theorem checkGiven_justification (label : Int) (r : Reading) :
    (checkGiven label r).justification = none := by
  cases r <;> rfl

theorem checkGiven_fault_eq_none_iff {label : Int} {r : Reading} :
    (checkGiven label r).fault = none ↔ ∃ f, r = .ok f := by
  cases r <;> simp [checkGiven]

theorem checkStep_formula (maxDepth : Int) (lines : Lines) (s : Step) :
    (checkStep maxDepth lines s).formula = s.written maxDepth := by
  unfold checkStep Step.written
  cases Formula.parse maxDepth s.formula <;> rfl

theorem checkStep_justification (maxDepth : Int) (lines : Lines) (s : Step) :
    (checkStep maxDepth lines s).justification = some s.justification := by
  unfold checkStep
  cases Formula.parse maxDepth s.formula <;> rfl

/-- A step is without fault exactly if it writes a formula that follows. -/
theorem checkStep_fault_eq_none_iff {maxDepth : Int} {lines : Lines} {s : Step} :
    (checkStep maxDepth lines s).fault = none ↔
      ∃ F, Formula.parse maxDepth s.formula = .ok F ∧ Follows lines s.justification F := by
  unfold checkStep
  cases hp : Formula.parse maxDepth s.formula with
  | error e => simp
  | ok F =>
    simp only [Except.ok.injEq, exists_eq_left', ← Justification.validate_eq_ok_iff]
    cases hv : s.justification.validate lines F <;> simp

/-! ## The pass over all lines -/

theorem getElem?_checkGivens (label : Int) (rs : List Reading) (k : Nat) :
    (checkGivens label rs)[k]? = (rs[k]?).map (checkGiven (label + k)) := by
  induction rs generalizing label k with
  | nil => simp [checkGivens]
  | cons r rs ih =>
    cases k with
    | zero => simp [checkGivens]
    | succ k =>
      rw [checkGivens, List.getElem?_cons_succ, List.getElem?_cons_succ, ih]
      congr 2
      omega

theorem checkGivens_map_formula (label : Int) (rs : List Reading) :
    (checkGivens label rs).map Checked.formula = rs.map Except.toOption := by
  induction rs generalizing label with
  | nil => rfl
  | cons r rs ih => simp only [checkGivens, List.map_cons, checkGiven_formula, ih]

/-- A step is checked against the lines that the pass began with and what the steps before it
write. -/
theorem getElem?_checkSteps (maxDepth : Int) (lines : Lines) (steps : List Step) (k : Nat) :
    (checkSteps maxDepth lines steps)[k]? =
      (steps[k]?).map
        (checkStep maxDepth (lines ++ (steps.take k).map (Step.written maxDepth))) := by
  induction steps generalizing lines k with
  | nil => simp [checkSteps]
  | cons s steps ih =>
    cases k with
    | zero => simp [checkSteps]
    | succ k =>
      simp only [checkSteps, List.getElem?_cons_succ, checkStep_formula, ih, List.take_succ_cons,
        List.map_cons, List.append_assoc, List.singleton_append]

theorem checkSteps_map_formula (maxDepth : Int) (lines : Lines) (steps : List Step) :
    (checkSteps maxDepth lines steps).map Checked.formula = steps.map (Step.written maxDepth) := by
  induction steps generalizing lines with
  | nil => rfl
  | cons s steps ih => simp only [checkSteps, List.map_cons, checkStep_formula, ih]

/-- Further steps are checked behind what the steps before them write. -/
theorem checkSteps_append (maxDepth : Int) (lines : Lines) (steps more : List Step) :
    checkSteps maxDepth lines (steps ++ more) =
      checkSteps maxDepth lines steps ++
        checkSteps maxDepth (lines ++ steps.map (Step.written maxDepth)) more := by
  induction steps generalizing lines with
  | nil => simp [checkSteps]
  | cons s steps ih =>
    simp only [List.cons_append, checkSteps, ih, checkStep_formula, List.map_cons,
      List.append_assoc, List.nil_append]

section Derive

variable {maxDepth : Int} {a : Attempt}

theorem lines_eq_written (maxDepth : Int) (a : Attempt) :
    a.lines maxDepth = a.written maxDepth := by
  simp only [lines, derive, written, List.map_append, checkGivens_map_formula,
    checkSteps_map_formula]

theorem length_checkGivens (label : Int) (rs : List Reading) :
    (checkGivens label rs).length = rs.length := by
  simpa using congrArg List.length (checkGivens_map_formula label rs)

theorem getElem?_derive_given {k : Nat} (hk : k < a.given.length) :
    (a.derive maxDepth)[k]? = (a.given[k]?).map (checkGiven (1 + k)) := by
  rw [derive, List.getElem?_append_left (by rwa [length_checkGivens]), getElem?_checkGivens]

theorem take_written (k : Nat) :
    (a.written maxDepth).take (a.given.length + k) =
      a.given.map Except.toOption ++ (a.steps.take k).map (Step.written maxDepth) := by
  rw [written, List.take_append, List.length_map, List.take_of_length_le (by simp),
    Nat.add_sub_cancel_left, List.map_take]

/-- A step is checked against all lines before it. -/
theorem getElem?_derive_step (k : Nat) :
    (a.derive maxDepth)[a.given.length + k]? =
      (a.steps[k]?).map
        (checkStep maxDepth ((a.written maxDepth).take (a.given.length + k))) := by
  rw [derive, List.getElem?_append_right (by simp [length_checkGivens]), length_checkGivens,
    Nat.add_sub_cancel_left, getElem?_checkSteps, checkGivens_map_formula, take_written]

/-- Further steps leave the lines before them as they are. -/
theorem derive_append (more : List Step) :
    ({ a with steps := a.steps ++ more } : Attempt).derive maxDepth =
      a.derive maxDepth ++ checkSteps maxDepth (a.written maxDepth) more := by
  simp only [derive, written, checkSteps_append, checkGivens_map_formula, List.append_assoc]

/-- A further step adds its own diagnostic to those before it, if it has one. -/
theorem faults_concat (s : Step) :
    ({ a with steps := a.steps ++ [s] } : Attempt).faults maxDepth =
      a.faults maxDepth ++ (checkStep maxDepth (a.written maxDepth) s).diagnostic?.toList := by
  rw [faults, derive_append, List.filterMap_append, ← faults, checkSteps, checkSteps]
  cases h : (checkStep maxDepth (a.written maxDepth) s).diagnostic? <;> simp [h]

/-- A line is a given that was read, or a step that was checked against all lines before it. -/
theorem getElem?_derive_cases {k : Nat} {c : Checked} (h : (a.derive maxDepth)[k]? = some c) :
    (∃ r, a.given[k]? = some r ∧ c = checkGiven (1 + k) r) ∨
      ∃ i s, k = a.given.length + i ∧ a.steps[i]? = some s ∧
        c = checkStep maxDepth ((a.written maxDepth).take k) s := by
  rcases Nat.lt_or_ge k a.given.length with hk | hk
  · rw [getElem?_derive_given hk] at h
    obtain ⟨r, hr, rfl⟩ := Option.map_eq_some_iff.mp h
    exact .inl ⟨r, hr, rfl⟩
  · obtain ⟨i, rfl⟩ := Nat.exists_eq_add_of_le hk
    rw [getElem?_derive_step] at h
    obtain ⟨s, hs, rfl⟩ := Option.map_eq_some_iff.mp h
    exact .inr ⟨i, s, rfl, hs, rfl⟩

/-- The diagnostics are those of the lines with a fault. -/
theorem faults_eq_nil_iff_forall :
    a.faults maxDepth = [] ↔
      ∀ (k : Nat) (c : Checked), (a.derive maxDepth)[k]? = some c → c.fault = none := by
  simp only [faults, List.filterMap_eq_nil_iff, Checked.diagnostic?, Option.map_eq_none_iff,
    List.mem_iff_getElem?]
  exact ⟨fun h k c hc => h c ⟨k, hc⟩, fun h c ⟨k, hc⟩ => h k c hc⟩

/-- No line has a fault exactly if all givens can be read and all steps follow. -/
theorem faults_eq_nil_iff :
    a.faults maxDepth = [] ↔
      (∀ r ∈ a.given, ∃ g, r = .ok g) ∧
      ∀ k s, a.steps[k]? = some s →
        ∃ F, Formula.parse maxDepth s.formula = .ok F ∧
          Follows ((a.written maxDepth).take (a.given.length + k)) s.justification F := by
  rw [faults_eq_nil_iff_forall]
  constructor
  · intro h
    refine ⟨fun r hr => ?_, fun k s hs => ?_⟩
    · obtain ⟨k, hk⟩ := List.mem_iff_getElem?.mp hr
      have hlt := (List.getElem?_eq_some_iff.mp hk).1
      exact checkGiven_fault_eq_none_iff.mp
        (h k (checkGiven (1 + k) r) (by rw [getElem?_derive_given hlt, hk]; rfl))
    · exact checkStep_fault_eq_none_iff.mp
        (h (a.given.length + k) _ (by rw [getElem?_derive_step, hs]; rfl))
  · rintro ⟨hg, hs⟩ k c hc
    rcases getElem?_derive_cases hc with ⟨r, hr, rfl⟩ | ⟨i, s, rfl, hi, rfl⟩
    · exact checkGiven_fault_eq_none_iff.mpr (hg r (List.mem_of_getElem? hr))
    · exact checkStep_fault_eq_none_iff.mpr (hs i s hi)

/-! ## The goal -/

theorem goalFault?_eq_none_iff :
    a.goalFault? maxDepth = none ↔
      ∀ r, a.goal = some r → ∃ target, r = .ok target ∧
        (a.written maxDepth).getLast? = some (some target) := by
  unfold goalFault?
  rw [lines_eq_written]
  cases a.goal with
  | none => simp
  | some r =>
    cases r with
    | error e => simp
    | ok target => simp

/-- A check is passed exactly if no line has a fault and the goal is reached. -/
theorem check_ok_iff :
    (a.check maxDepth).ok = true ↔ a.faults maxDepth = [] ∧ a.goalFault? maxDepth = none := by
  simp only [check, Verdict.ok, List.isEmpty_iff, List.append_eq_nil_iff, missedGoal]
  cases a.goalFault? maxDepth <;> simp

end Derive

end Attempt

namespace Proof

/-- The formulas that the texts of the lines write, those of the givens first. -/
def written (maxDepth : Int) (p : Proof) : Lines :=
  (p.given ++ p.steps.map Step.formula).map fun t => (Formula.parse maxDepth t).toOption

theorem attempt_written (maxDepth : Int) (p : Proof) :
    (p.attempt maxDepth).written maxDepth = p.written maxDepth := by
  simp [attempt, Attempt.written, written, Step.written, Function.comp_def]

section Derive

variable {maxDepth : Int} {p : Proof} {k : Nat}

theorem length_attempt_given : (p.attempt maxDepth).given.length = p.given.length :=
  List.length_map _

theorem getElem?_derive_given {text : String} (hk : p.given[k]? = some text) :
    (p.derive maxDepth)[k]? = some (Attempt.checkGiven (k + 1) (Formula.parse maxDepth text)) := by
  have hlt : k < (p.attempt maxDepth).given.length := by
    rw [length_attempt_given]
    exact (List.getElem?_eq_some_iff.mp hk).1
  have hgiven : (p.attempt maxDepth).given[k]? = some (Formula.parse maxDepth text) := by
    rw [attempt, List.getElem?_map, hk, Option.map_some]
  rw [derive, Attempt.getElem?_derive_given hlt, hgiven, Int.add_comm, Option.map_some]

theorem getElem?_derive_step {s : Step} (hk : p.steps[k]? = some s) :
    (p.derive maxDepth)[p.given.length + k]? =
      some (Attempt.checkStep maxDepth ((p.written maxDepth).take (p.given.length + k)) s) := by
  have hline := @Attempt.getElem?_derive_step maxDepth (p.attempt maxDepth) k
  have hstep : (p.attempt maxDepth).steps[k]? = some s := hk
  rwa [length_attempt_given, attempt_written, hstep, Option.map_some] at hline

/-- A line of a proof is a given that was read, or a step that was checked against what the lines
before it write. -/
theorem getElem?_derive_cases {c : Checked} (h : (p.derive maxDepth)[k]? = some c) :
    (∃ text, p.given[k]? = some text ∧
      c = Attempt.checkGiven (k + 1) (Formula.parse maxDepth text)) ∨
      ∃ i s, k = p.given.length + i ∧ p.steps[i]? = some s ∧
        c = Attempt.checkStep maxDepth ((p.written maxDepth).take k) s := by
  rcases Attempt.getElem?_derive_cases h with ⟨r, hr, rfl⟩ | ⟨i, s, hk, hi, rfl⟩
  · rw [attempt, List.getElem?_map, Option.map_eq_some_iff] at hr
    obtain ⟨text, htext, rfl⟩ := hr
    exact .inl ⟨text, htext, by rw [Int.add_comm]⟩
  · rw [attempt_written]
    exact .inr ⟨i, s, by rw [hk, length_attempt_given], hi, rfl⟩

end Derive

/-- A formula on a line was read from the text of the line. -/
theorem exists_parse_of_mem_written {maxDepth : Int} {p : Proof} {f : Formula}
    (h : some f ∈ p.written maxDepth) : ∃ text, Formula.parse maxDepth text = .ok f := by
  obtain ⟨text, -, htext⟩ := List.mem_map.mp h
  refine ⟨text, ?_⟩
  cases hp : Formula.parse maxDepth text with
  | error e =>
    rw [hp] at htext
    cases htext
  | ok g =>
    rw [hp] at htext
    cases htext
    rfl

/-- A proof is accepted exactly if every given can be read, every step writes a formula that
follows from what the lines before it write, and the last line is the goal, if there is one. -/
theorem check_ok_iff_derivation (maxDepth : Int) (p : Proof) :
    (p.check maxDepth).ok = true ↔
      (∀ t ∈ p.given, ∃ g, Formula.parse maxDepth t = .ok g) ∧
      (∀ k s, p.steps[k]? = some s →
        ∃ F, Formula.parse maxDepth s.formula = .ok F ∧
          Follows ((p.written maxDepth).take (p.given.length + k)) s.justification F) ∧
      ∀ goal, p.goal = some goal →
        ∃ target, Formula.parse maxDepth goal = .ok target ∧
          (p.written maxDepth).getLast? = some (some target) := by
  rw [check, Attempt.check_ok_iff, Attempt.faults_eq_nil_iff, Attempt.goalFault?_eq_none_iff,
    attempt_written, and_assoc]
  simp [attempt]

end Proof

end Propositional
