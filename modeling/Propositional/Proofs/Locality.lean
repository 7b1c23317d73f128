import Propositional.Proofs.Diagnosis

/-!
# Locality of diagnostics

What the checker finds on a line depends on the line and on what the texts before it write, and on
nothing else: not on the justifications of the lines before it, not on what follows, and not on any
label. So two proofs that write the same up to a step find the same there, further steps only add
diagnostics behind those before them, and labels change nothing but the lines that diagnostics are
reported at.

Some checks do not return, because a line ends them. Then the lines behind it are not come to, and
nothing is found there. So a justification does matter to later steps in one way: whether the check
goes on. Where two checks come to a step, they find the same there or are both ended by it.

## Main definitions

* `Proof.unlabelled`, `Checked.unlabelled`: a proof and a checked line with the labels left out
* `Verdict.faults`: what is wrong, without the lines it is reported at
* `Proof.Reaches`: the check of a proof comes to a line

## Main results

* `Attempt.checkSteps_unlabelled`: checking commutes with leaving labels out
* `Proof.derive_congr`: lines that write the same are found the same
* `Proof.check_of_reaches`: the first line that ends a check says how it ends
* `Proof.check_local`: diagnostics are local
-/

namespace Propositional

/-! ## Leaving labels out -/

/-- A step with its label left out. -/
def Step.unlabelled (s : Step) : Step :=
  { s with line := 0 }

/-- A proof with the labels of its steps left out. -/
def Proof.unlabelled (p : Proof) : Proof :=
  { p with steps := p.steps.map Step.unlabelled }

/-- A checked line with its label left out. -/
def Checked.unlabelled (c : Checked) : Checked :=
  { c with label := 0 }

/-- What is wrong, without the lines it is reported at. -/
def Verdict.faults (v : Verdict) : List Fault :=
  v.errors.map Diagnostic.fault

theorem Verdict.ok_eq (v : Verdict) : v.ok = v.faults.isEmpty := by
  rw [ok, faults, List.isEmpty_map]

namespace Attempt

variable {maxDepth : Int}

/-- A label is only copied when a step is checked. -/
theorem checkStep_unlabelled (maxDepth : Int) (lines : Lines) (s : Step) :
    checkStep maxDepth lines s.unlabelled = (checkStep maxDepth lines s).unlabelled := by
  simp only [checkStep, Step.unlabelled]
  cases Formula.parse maxDepth s.formula <;> rfl

/-- Checking steps commutes with leaving their labels out. -/
theorem checkSteps_unlabelled (maxDepth : Int) (lines : Lines) (steps : List Step) :
    checkSteps maxDepth lines (steps.map Step.unlabelled) =
      (checkSteps maxDepth lines steps).map Checked.unlabelled := by
  induction steps generalizing lines with
  | nil => rfl
  | cons s steps ih =>
    simp only [List.map_cons, checkSteps, ih, checkStep_unlabelled]
    rfl

end Attempt

namespace Proof

variable {maxDepth : Int} {p q : Proof}

/-- Proofs that differ in their labels only are checked alike, labels apart. -/
theorem derive_map_unlabelled (h : p.unlabelled = q.unlabelled) :
    (p.derive maxDepth).map Checked.unlabelled = (q.derive maxDepth).map Checked.unlabelled := by
  simp only [unlabelled, Proof.mk.injEq] at h
  obtain ⟨hgiven, hsteps, -⟩ := h
  simp only [derive, Attempt.derive, attempt, List.map_append, ← Attempt.checkSteps_unlabelled,
    hgiven, hsteps]

/-! ## Lines that write the same -/

/-- What the lines before a step write. -/
theorem take_written (k : Nat) :
    (p.written maxDepth).take (p.given.length + k) =
      (p.given ++ (p.steps.take k).map Step.formula).map
        fun t => (Formula.parse maxDepth t).toOption := by
  rw [written, ← List.map_take, List.take_length_add_append, List.map_take]

/-- A step is found the same wherever the lines before it write the same. -/
theorem derive_congr {k : Nat} {t u : Step} (hgiven : p.given = q.given)
    (htexts : (p.steps.take k).map Step.formula = (q.steps.take k).map Step.formula)
    (ht : p.steps[k]? = some t) (hu : q.steps[k]? = some u) (htu : t.unlabelled = u.unlabelled) :
    ∃ c e, (p.derive maxDepth)[p.given.length + k]? = some c ∧
      (q.derive maxDepth)[q.given.length + k]? = some e ∧ c.unlabelled = e.unlabelled := by
  refine ⟨_, _, getElem?_derive_step ht, getElem?_derive_step hu, ?_⟩
  rw [take_written, take_written, hgiven, htexts, ← Attempt.checkStep_unlabelled, htu,
    Attempt.checkStep_unlabelled]

/-! ## Findings without labels -/

theorem map_fault_faults (maxDepth : Int) (p : Proof) :
    ((p.attempt maxDepth).faults maxDepth).map Diagnostic.fault =
      ((p.derive maxDepth).map Checked.unlabelled).filterMap Checked.fault := by
  rw [Attempt.faults, List.map_filterMap, List.filterMap_map]
  congr 1
  funext c
  cases hc : c.fault <;> simp [Checked.diagnostic?, Checked.unlabelled, hc]

theorem lines_eq_map_unlabelled (maxDepth : Int) (p : Proof) :
    p.lines maxDepth = ((p.derive maxDepth).map Checked.unlabelled).map Checked.formula := by
  rw [List.map_map]
  rfl

section Relabelled

variable (h : p.unlabelled = q.unlabelled)

include h

theorem map_fault_faults_congr :
    ((p.attempt maxDepth).faults maxDepth).map Diagnostic.fault =
      ((q.attempt maxDepth).faults maxDepth).map Diagnostic.fault := by
  rw [map_fault_faults, map_fault_faults, derive_map_unlabelled h]

theorem lines_congr : p.lines maxDepth = q.lines maxDepth := by
  rw [lines_eq_map_unlabelled, lines_eq_map_unlabelled, derive_map_unlabelled h]

theorem isEmpty_faults_congr :
    ((p.attempt maxDepth).faults maxDepth).isEmpty =
      ((q.attempt maxDepth).faults maxDepth).isEmpty := by
  rw [← List.isEmpty_map (f := Diagnostic.fault), map_fault_faults_congr h, List.isEmpty_map]

theorem goal_attempt_congr : (p.attempt maxDepth).goal = (q.attempt maxDepth).goal := by
  simp only [unlabelled, Proof.mk.injEq] at h
  rw [attempt, attempt, h.2.2]

theorem goalFault?_congr :
    (p.attempt maxDepth).goalFault? maxDepth = (q.attempt maxDepth).goalFault? maxDepth := by
  have hlines : (p.attempt maxDepth).lines maxDepth = (q.attempt maxDepth).lines maxDepth :=
    lines_congr h
  rw [Attempt.goalFault?, Attempt.goalFault?, hlines, goal_attempt_congr h]

theorem goalBreach?_congr {s : Settings} :
    Outcome.goalBreach? s (p.attempt s.maxDepth) =
      Outcome.goalBreach? s (q.attempt s.maxDepth) := by
  have hlines : (p.attempt s.maxDepth).lines s.maxDepth = (q.attempt s.maxDepth).lines s.maxDepth :=
    lines_congr h
  have heffort : (p.attempt s.maxDepth).goalEffort s.maxDepth =
      (q.attempt s.maxDepth).goalEffort s.maxDepth := by
    rw [Attempt.goalEffort, Attempt.goalEffort, hlines, goal_attempt_congr h]
  rw [Outcome.goalBreach?, Outcome.goalBreach?, goalFault?_congr h, heffort]

/-- A check finds the same whatever the labels are. -/
theorem faults_check_congr : (p.check maxDepth).faults = (q.check maxDepth).faults := by
  simp only [Verdict.faults, check, Attempt.check, List.map_append, missedGoal_eq, List.map_map,
    map_fault_faults_congr h, goalFault?_congr h]
  rfl

/-- So does the search for a contradiction. -/
theorem faults_refute_congr : (p.refute maxDepth).faults = (q.refute maxDepth).faults := by
  have hlines : (p.attempt maxDepth).lines maxDepth = (q.attempt maxDepth).lines maxDepth :=
    lines_congr h
  simp only [Verdict.faults, refute, Attempt.refute, List.map_append, map_fault_faults_congr h,
    Attempt.missedContradiction, hlines, isEmpty_faults_congr h]
  split <;> rfl

theorem contradictionEffort_congr :
    (p.attempt maxDepth).contradictionEffort maxDepth =
      (q.attempt maxDepth).contradictionEffort maxDepth := by
  have hlines : (p.attempt maxDepth).lines maxDepth = (q.attempt maxDepth).lines maxDepth :=
    lines_congr h
  rw [Attempt.contradictionEffort, Attempt.contradictionEffort, isEmpty_faults_congr h, hlines]

end Relabelled

end Proof

/-! ## Checks that may not return -/

namespace Outcome

variable {s : Settings} {p q : Proof}

/-- Why a line ends a check has nothing to do with its label. -/
theorem findSome?_lineBreach?_congr (h : p.unlabelled = q.unlabelled) :
    (p.derive s.maxDepth).findSome? lineBreach? = (q.derive s.maxDepth).findSome? lineBreach? := by
  have hline : lineBreach? = lineBreach? ∘ Checked.unlabelled := rfl
  rw [hline, ← List.findSome?_map, Proof.derive_map_unlabelled h, List.findSome?_map]

/-- A check finds the same whatever the labels are, or ends in the same way. -/
theorem check_map_faults_congr (h : p.unlabelled = q.unlabelled) :
    (check s p).result.map Verdict.faults = (check s q).result.map Verdict.faults := by
  have hbreach := findSome?_lineBreach?_congr (s := s) h
  have hgoal := Proof.goalBreach?_congr (s := s) h
  have hfaults : (p.check s.maxDepth).faults = (q.check s.maxDepth).faults :=
    Proof.faults_check_congr h
  simp only [Proof.derive] at hbreach
  simp only [check, checkOf, whenCheckable, hbreach, hgoal]
  split
  · split
    · exact congrArg Except.ok hfaults
    · rfl
  · rfl

/-- The search for a contradiction, too. -/
theorem refute_map_faults_congr (h : p.unlabelled = q.unlabelled) :
    (refute s p).result.map Verdict.faults = (refute s q).result.map Verdict.faults := by
  have hbreach := findSome?_lineBreach?_congr (s := s) h
  have heffort : (p.attempt s.maxDepth).contradictionEffort s.maxDepth =
      (q.attempt s.maxDepth).contradictionEffort s.maxDepth := Proof.contradictionEffort_congr h
  have hfaults : (p.refute s.maxDepth).faults = (q.refute s.maxDepth).faults :=
    Proof.faults_refute_congr h
  simp only [Proof.derive] at hbreach
  simp only [refute, refuteOf, whenCheckable, hbreach, heffort]
  split
  · split
    · exact congrArg Except.ok hfaults
    · rfl
  · rfl

end Outcome

/-! ## Further steps -/

namespace Proof

/-- Further steps leave the lines before them as they are. -/
theorem derive_prefix_append (maxDepth : Int) (given : List String) (steps more : List Step) :
    derive maxDepth ⟨given, steps, none⟩ <+: derive maxDepth ⟨given, steps ++ more, none⟩ :=
  ⟨_, (Attempt.derive_append (a := attempt maxDepth ⟨given, steps, none⟩) more).symm⟩

theorem errors_check_none (maxDepth : Int) (given : List String) (steps : List Step) :
    (check maxDepth ⟨given, steps, none⟩).errors =
      (derive maxDepth ⟨given, steps, none⟩).filterMap Checked.diagnostic? :=
  List.append_nil _

/-- Further steps add their diagnostics behind those before them. -/
theorem errors_prefix_append (maxDepth : Int) (given : List String) (steps more : List Step) :
    (check maxDepth ⟨given, steps, none⟩).errors <+:
      (check maxDepth ⟨given, steps ++ more, none⟩).errors := by
  rw [errors_check_none, errors_check_none]
  exact (derive_prefix_append maxDepth given steps more).filterMap _

/-- Without a goal a check returns exactly if no line ends it. -/
theorem check_none_eq_ok_iff {s : Settings} {given : List String} {steps : List Step}
    {v : Verdict} :
    (Outcome.check s ⟨given, steps, none⟩).result = .ok v ↔
      (∀ c ∈ derive s.maxDepth ⟨given, steps, none⟩, Outcome.lineBreach? c = none) ∧
        check s.maxDepth ⟨given, steps, none⟩ = v := by
  have hgoal : Outcome.goalBreach? s (attempt s.maxDepth ⟨given, steps, none⟩) = none := rfl
  rw [Outcome.check, Outcome.checkOf, Outcome.whenCheckable_eq_ok_iff, hgoal]
  simp only [Except.ok.injEq]
  exact Iff.rfl

/-- A check that returns would have returned before the last steps were added. -/
theorem check_result_of_append {s : Settings} {given : List String} {steps more : List Step}
    {v : Verdict} (h : (Outcome.check s ⟨given, steps ++ more, none⟩).result = .ok v) :
    ∃ u, (Outcome.check s ⟨given, steps, none⟩).result = .ok u ∧ u.errors <+: v.errors := by
  obtain ⟨hbreach, rfl⟩ := check_none_eq_ok_iff.mp h
  refine ⟨_, check_none_eq_ok_iff.mpr ⟨fun c hc => hbreach c ?_, rfl⟩,
    errors_prefix_append s.maxDepth given steps more⟩
  exact (derive_prefix_append s.maxDepth given steps more).subset hc

/-! ## Lines that a check comes to -/

/-- The check of a proof comes to the line at a place, counted from zero: no line before it ends
the check. -/
def Reaches (s : Settings) (p : Proof) (k : Nat) : Prop :=
  ∀ c ∈ (p.derive s.maxDepth).take k, Outcome.lineBreach? c = none

/-- The first line that ends a check says how it ends. -/
theorem check_of_reaches {s : Settings} {p : Proof} {k : Nat} {c : Checked} {b : Breach}
    (h : p.Reaches s k) (hc : (p.derive s.maxDepth)[k]? = some c)
    (hb : Outcome.lineBreach? c = some b) : (Outcome.check s p).result = .error (.breach b) := by
  obtain ⟨hk, rfl⟩ := List.getElem?_eq_some_iff.mp hc
  have hfound : (p.derive s.maxDepth).findSome? Outcome.lineBreach? = some b := by
    rw [List.findSome?_eq_some_iff]
    refine ⟨_, _, (p.derive s.maxDepth).drop (k + 1), ?_, hb, h⟩
    rw [← List.drop_eq_getElem_cons hk, List.take_append_drop]
  rw [derive] at hfound
  simp only [Outcome.check, Outcome.checkOf, Outcome.whenCheckable, hfound]

/-- Diagnostics are local. A check that returns comes to all lines and reports what is found there,
and then whether the goal is missed. Where the checks of two proofs that write the same up to a step
and justify it alike come to the step, they find the same: both accept it, or both refuse it for the
same reason, or it ends both in the same way, whatever their other justifications, their labels and
their further steps are. Further steps add diagnostics behind those before them, and a check that
returns would have returned without them. Labels change neither what is found nor how a check
ends. -/
theorem check_local (s : Settings) :
    (∀ (p : Proof) (v : Verdict), (Outcome.check s p).result = .ok v →
      (∀ k, p.Reaches s k) ∧
      v.errors = (p.derive s.maxDepth).filterMap Checked.diagnostic? ++
        (p.attempt s.maxDepth).missedGoal s.maxDepth) ∧
    (∀ (p q : Proof) (k : Nat) (t u : Step), p.given = q.given →
      (p.steps.take k).map Step.formula = (q.steps.take k).map Step.formula →
      p.steps[k]? = some t → q.steps[k]? = some u →
      t.formula = u.formula → t.justification = u.justification →
      p.Reaches s (p.given.length + k) → q.Reaches s (q.given.length + k) →
      ∃ c e, (p.derive s.maxDepth)[p.given.length + k]? = some c ∧
        (q.derive s.maxDepth)[q.given.length + k]? = some e ∧ c.fault = e.fault ∧
        (Outcome.lineBreach? c = none ∧ Outcome.lineBreach? e = none ∨
          ∃ b, (Outcome.check s p).result = .error (.breach b) ∧
            (Outcome.check s q).result = .error (.breach b))) ∧
    (∀ (given : List String) (steps more : List Step) (v : Verdict),
      (Outcome.check s ⟨given, steps ++ more, none⟩).result = .ok v →
        ∃ u, (Outcome.check s ⟨given, steps, none⟩).result = .ok u ∧ u.errors <+: v.errors) ∧
    ∀ p q : Proof, p.unlabelled = q.unlabelled →
      (Outcome.check s p).result.map Verdict.ok = (Outcome.check s q).result.map Verdict.ok ∧
      (Outcome.check s p).result.map Verdict.faults =
        (Outcome.check s q).result.map Verdict.faults ∧
      (Outcome.refute s p).result.map Verdict.faults =
        (Outcome.refute s q).result.map Verdict.faults := by
  refine ⟨fun p v hv => ?_, fun p q k t u hgiven htexts ht hu hformula hjustification hp hq => ?_,
    fun given steps more v => check_result_of_append, fun p q h => ?_⟩
  · obtain ⟨hbreach, rfl⟩ := Outcome.eq_of_checkOf_result hv
    exact ⟨fun k c hc => hbreach c (List.mem_of_mem_take hc), rfl⟩
  · -- the two steps differ in their labels at most
    have htu : t.unlabelled = u.unlabelled := by
      rw [Step.unlabelled, Step.unlabelled, hformula, hjustification]
    obtain ⟨c, e, hc, he, hce⟩ := derive_congr hgiven htexts ht hu htu
    have hfault : c.unlabelled.fault = e.unlabelled.fault := by rw [hce]
    have hbreach : Outcome.lineBreach? c.unlabelled = Outcome.lineBreach? e.unlabelled := by
      rw [hce]
    refine ⟨c, e, hc, he, hfault, ?_⟩
    cases hb : Outcome.lineBreach? c with
    | none => exact .inl ⟨rfl, hbreach.symm.trans hb⟩
    | some b =>
      exact .inr ⟨b, check_of_reaches hp hc hb, check_of_reaches hq he (hbreach.symm.trans hb)⟩
  · have hfaults := Outcome.check_map_faults_congr (s := s) h
    refine ⟨?_, hfaults, Outcome.refute_map_faults_congr h⟩
    have hok : ∀ r : Except Failure Verdict,
        r.map Verdict.ok = (r.map Verdict.faults).map List.isEmpty := by
      rintro (f | v)
      · rfl
      · exact congrArg Except.ok v.ok_eq
    rw [hok, hok, hfaults]

/-- A step that does not follow, and one that cites it. -/
def refusedSteps : List Step :=
  [⟨3, "C", .mp (.int 1) (.int 2)⟩, ⟨4, "C∧D", .adj (.int 3) (.int 1)⟩]

/-- The same texts with another justification of the first step and other labels. -/
def disguisedSteps : List Step :=
  [⟨-7, "C", .simp (.text "x") .left⟩, ⟨3, "C∧D", .adj (.int 3) (.int 1)⟩]

/-- A step that follows. -/
def followingStep : Step :=
  ⟨5, "B", .mp (.int 1) (.int 2)⟩

theorem check_local_samples :
    (∃ c e, (derive 100 ⟨["A", "A->B"], refusedSteps ++ [followingStep], none⟩)[3]? = some c ∧
      (derive 100 ⟨["A", "A->B"], disguisedSteps, none⟩)[3]? = some e ∧ c.fault = e.fault) ∧
    (∃ u v, (Outcome.check {} ⟨["A", "A->B"], refusedSteps, none⟩).result = .ok u ∧
      (Outcome.check {} ⟨["A", "A->B"], refusedSteps ++ [followingStep], none⟩).result = .ok v ∧
      u.errors <+: v.errors) ∧
    (Outcome.check {} ⟨["A", "A->B"], [followingStep], none⟩).result.map Verdict.ok =
      (Outcome.check {} ⟨["A", "A->B"], [{ followingStep with line := 9 }], none⟩).result.map
        Verdict.ok := by
  obtain ⟨hreturned, hstep, hmore, hlabels⟩ := check_local {}
  have hresult : ∃ v,
      (Outcome.check {} ⟨["A", "A->B"], refusedSteps ++ [followingStep], none⟩).result = .ok v :=
    Outcome.exception?_eq_none_iff.mp (by decide +kernel)
  have hdisguised : ∃ v, (Outcome.check {} ⟨["A", "A->B"], disguisedSteps, none⟩).result = .ok v :=
    Outcome.exception?_eq_none_iff.mp (by decide +kernel)
  obtain ⟨v, hv⟩ := hresult
  obtain ⟨w, hw⟩ := hdisguised
  obtain ⟨c, e, hc, he, hfault, -⟩ := hstep ⟨["A", "A->B"], refusedSteps ++ [followingStep], none⟩
    ⟨["A", "A->B"], disguisedSteps, none⟩ 1 _ _ rfl rfl rfl rfl rfl rfl ((hreturned _ _ hv).1 _)
    ((hreturned _ _ hw).1 _)
  obtain ⟨u, hu, herrors⟩ := hmore _ _ _ _ hv
  have hok := (hlabels ⟨["A", "A->B"], [followingStep], none⟩
    ⟨["A", "A->B"], [{ followingStep with line := 9 }], none⟩ rfl).1
  exact ⟨⟨c, e, hc, he, hfault⟩, ⟨u, v, hu, hv, herrors⟩, hok⟩

/-- An axiom behind a step that is justified in some way from a high given. -/
def axiomAfter (j : Justification) : Proof :=
  ⟨[Formula.negatedText 700], [⟨2, "A", j⟩, ⟨3, "A->B->A", .ax (.int 1)⟩], none⟩

theorem derive_axiomAfter (j : Justification) :
    derive 5000 (axiomAfter j) =
      [Attempt.checkGiven 1 (.ok (.negated 700)),
        Attempt.checkStep 5000 [some (.negated 700)] ⟨2, "A", j⟩,
        Attempt.checkStep 5000 [some (.negated 700), some (.var "A")]
          ⟨3, "A->B->A", .ax (.int 1)⟩] := by
  have hgiven : Formula.parse 5000 (Formula.negatedText 700) = .ok (.negated 700) :=
    Formula.parse_negatedText (by decide) (by decide)
  have hstep : (Attempt.checkStep 5000 [some (.negated 700)] ⟨2, "A", j⟩).formula =
      some (.var "A") := by
    have hparse : Formula.parse 5000 "A" = .ok (.var "A") :=
      Token.eq_ok_of_toOption (by decide +kernel)
    simp only [Attempt.checkStep, hparse]
  simp only [derive, axiomAfter, attempt, Attempt.derive, List.map_cons, List.map_nil, hgiven,
    Attempt.checkGivens, Attempt.checkGiven, Attempt.checkSteps, List.cons_append, List.nil_append,
    hstep]

/-- Both proofs write the same up to the axiom and justify it alike. The check of one is ended by
the step before, that of the other refuses that step and accepts the axiom. -/
theorem check_local_adjoined :
    (Outcome.check { maxDepth := 5000 } (axiomAfter (.adj (.int 1) (.int 1)))).result =
      .error (.breach .tooNested) ∧
    ∃ v, (Outcome.check { maxDepth := 5000 } (axiomAfter (.simp (.int 1) .left))).result = .ok v ∧
      (v.errors.map fun d => (d.line, d.fault.kindName)) = [(2, "RuleViolation")] := by
  constructor
  · have hderive := derive_axiomAfter (.adj (.int 1) (.int 1))
    refine check_of_reaches (k := 1) ?_ (by rw [hderive]; rfl)
      (lineBreach?_adjoined (s := { maxDepth := 5000 }) (by decide) (by decide))
    intro c hc
    rw [hderive] at hc
    obtain rfl := List.mem_singleton.mp hc
    rfl
  · have hderive := derive_axiomAfter (.simp (.int 1) .left)
    refine ⟨_, check_none_eq_ok_iff.mpr ⟨fun c hc => ?_, rfl⟩, ?_⟩
    · rw [← axiomAfter, hderive] at hc
      simp only [List.mem_cons, List.not_mem_nil, or_false] at hc
      rcases hc with rfl | rfl | rfl <;> decide +kernel
    · rw [errors_check_none, ← axiomAfter, hderive]
      decide +kernel

end Proof

end Propositional
