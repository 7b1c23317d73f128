import Mathlib.Data.List.Forall2
import Propositional.Proofs.Derivation
import Propositional.Proofs.Orders
import Propositional.Proofs.Printing
import Propositional.Proofs.Viability

/-!
# Diagnoses

The checker reports every faulty line once, in the order of the lines, and then at most once that
the goal is missed. A line is faulty if its text cannot be read or its justification is refused in
view of the lines before it. Steps that a document lists without labels are labelled by their
places, so that a diagnostic shows the place of its line.

A check compares formulas and quotes some. None of them is more than one level higher than the limit
on heights, axioms apart. So a check returns if there is room for formulas of that height, if no
number is too long to be named, and if no text strains the reader. Each of the three is needed: an
adjunction of two high lines, a citation of too many digits and a row of negations break it.

## Main definitions

* `Proof.Faulty`: the diagnostic of a faulty line
* `Proof.Diagnoses`: the diagnostics of all faulty lines
* `Proof.IsDocumented`: the justifications were read from documents
* `Step.AreFair`: steps that are checked or reported

## Main results

* `Proof.exists_diagnoses`: the diagnostics of a check
* `Attempt.ofFault?_eq_none`: the faults of fair steps are reported
* `Outcome.check_result`: checks return if there is room
* `Proof.check_adjoined`: a check that does not return
* `Proof.check_diagnoses_faults`: checks of proofs from documents
-/

namespace Propositional

/-! ## Faulty lines -/

namespace Attempt

variable {maxDepth : Int} {d : Diagnostic}

theorem checkGiven_diagnostic?_eq_some_iff {label : Int} {r : Reading} :
    (checkGiven label r).diagnostic? = some d ↔
      ∃ e, r = .error e ∧ d = { line := label, fault := .text e } := by
  cases r <;> simp [checkGiven, Checked.diagnostic?, eq_comm]

theorem checkStep_diagnostic?_eq_some_iff {lines : Lines} {s : Step} :
    (checkStep maxDepth lines s).diagnostic? = some d ↔
      (∃ e, Formula.parse maxDepth s.formula = .error e ∧
        d = { line := s.line, fault := .text e }) ∨
      ∃ F o, Formula.parse maxDepth s.formula = .ok F ∧
        s.justification.validate lines F = .error o ∧ d = { line := s.line, fault := .step o } := by
  unfold checkStep
  cases hp : Formula.parse maxDepth s.formula with
  | error e => simp [Checked.diagnostic?, eq_comm]
  | ok F => cases hv : s.justification.validate lines F <;> simp [Checked.diagnostic?, hv, eq_comm]

theorem checkGiven_effort (label : Int) (r : Reading) : (checkGiven label r).effort = [] := by
  cases r <;> rfl

/-- The effort of a step is that of validating it, and of writing its formula into a note. -/
theorem mem_effort_checkStep {lines : Lines} {s : Step} {e : Effort}
    (h : e ∈ (checkStep maxDepth lines s).effort) :
    ∃ F, Formula.parse maxDepth s.formula = .ok F ∧
      (e ∈ s.justification.validateEffort lines F ∨ e = .write F) := by
  unfold checkStep at h
  cases hp : Formula.parse maxDepth s.formula with
  | error e =>
    rw [hp] at h
    cases h
  | ok F =>
    rw [hp] at h
    refine ⟨F, rfl, ?_⟩
    rcases List.mem_append.mp h with h | h
    · exact .inl h
    · split at h
      · exact .inr (List.mem_singleton.mp h)
      · cases h

/-! ## Heights -/

section Heights

variable {a : Attempt}

/-- The formulas that were read as givens and as the goal keep to the limit on heights. -/
def KeepsTo (maxDepth : Int) (a : Attempt) : Prop :=
  (∀ f, .ok f ∈ a.given → (f.height : Int) ≤ maxDepth) ∧
    ∀ f, a.goal = some (.ok f) → (f.height : Int) ≤ maxDepth

/-- The formulas on the lines were read as givens or from the texts of steps. -/
theorem have_written {P : Formula → Prop} (hgiven : ∀ f, .ok f ∈ a.given → P f)
    (htext : ∀ text f, Formula.parse maxDepth text = .ok f → P f) :
    (a.written maxDepth).Have P := by
  intro f hf
  rcases List.mem_append.mp hf with hf | hf
  · obtain ⟨r, hr, hrf⟩ := List.mem_map.mp hf
    cases r with
    | error e => cases hrf
    | ok g =>
      cases hrf
      exact hgiven f hr
  · obtain ⟨s, -, hs⟩ := List.mem_map.mp hf
    unfold Step.written at hs
    cases hp : Formula.parse maxDepth s.formula with
    | error e =>
      rw [hp] at hs
      cases hs
    | ok g =>
      rw [hp] at hs
      cases hs
      exact htext s.formula f hp

theorem keepTo_take_written (h : a.KeepsTo maxDepth) (k : Nat) :
    Lines.KeepTo ((a.written maxDepth).take k) maxDepth.toNat := by
  intro f hf
  have hheight : (f.height : Int) ≤ maxDepth :=
    have_written h.1 (fun _ _ => Formula.height_le_of_parse) f (List.mem_of_mem_take hf)
  omega

theorem keepTo_lines (h : a.KeepsTo maxDepth) :
    Lines.KeepTo (a.lines maxDepth) maxDepth.toNat := by
  have hkeep := keepTo_take_written h (a.written maxDepth).length
  rwa [List.take_length, ← lines_eq_written] at hkeep

/-- What is done with formulas at a line is bounded by one level more than the limit, axioms
apart. -/
theorem within_effort (h : a.KeepsTo maxDepth) {c : Checked} (hc : c ∈ a.derive maxDepth) :
    ∀ e ∈ c.effort, e.Within (max 5 (maxDepth.toNat + 1)) := by
  obtain ⟨k, hk⟩ := List.mem_iff_getElem?.mp hc
  intro e he
  rcases getElem?_derive_cases hk with ⟨r, -, rfl⟩ | ⟨i, s, -, hi, rfl⟩
  · -- nothing is done with the formula of a given
    rw [checkGiven_effort] at he
    cases he
  · obtain ⟨F, hF, he⟩ := mem_effort_checkStep he
    have hheight := Formula.height_le_of_parse hF
    rcases he with he | rfl
    · exact Justification.within_validateEffort (keepTo_take_written h k) (by omega) _ e he
    · show F.height ≤ _
      omega

/-- The last line is compared with the goal, which keeps to the limit. -/
theorem within_goalEffort (h : a.KeepsTo maxDepth) :
    ∀ e ∈ a.goalEffort maxDepth, e.Within maxDepth.toNat := by
  intro e he
  unfold goalEffort at he
  split at he
  · next target f hgoal _ =>
    have htarget := h.2 target hgoal
    have hle : target.height ≤ maxDepth.toNat := by omega
    rcases List.mem_cons.mp he with rfl | he
    · exact .inr hle
    · split at he
      · cases he
      · obtain rfl := List.mem_singleton.mp he
        exact hle
  · next target hgoal _ =>
    have htarget := h.2 target hgoal
    obtain rfl := List.mem_singleton.mp he
    show target.height ≤ _
    omega
  · cases he

theorem within_contradictionEffort (h : a.KeepsTo maxDepth) :
    ∀ e ∈ a.contradictionEffort maxDepth, e.Within maxDepth.toNat := by
  intro e he
  unfold contradictionEffort at he
  split at he
  · exact Lines.within_contradictionEffort (keepTo_lines h) e he
  · cases he

end Heights

end Attempt

/-! ## Faults that are reported -/

/-- Steps that are checked or reported, whatever they claim: their justifications were read from
documents, no number in them is too long to be named, and no text strains the reader. -/
structure Step.AreFair (steps : List Step) : Prop where
  documented : ∀ s ∈ steps, ∃ v, Justification.ofValue v = .ok s.justification
  short : ∀ s ∈ steps, s.justification.isShort = true
  unstrained : ∀ s ∈ steps, ¬Formula.Strained s.formula

theorem Breach.ofSyntaxError?_eq_none {e : SyntaxError} (h : e.isPastEnd = false) :
    ofSyntaxError? e = none := by
  rw [ofSyntaxError?, h, if_neg Bool.false_ne_true]

/-- An objection of a rule or to a citation is made if it can name all citations. -/
theorem Rule.Warrants.ofObjection?_eq_none {lines : Lines} {refs : List Value} {o : Objection}
    (h : Warrants lines refs o) (hshort : ∀ n ∈ refs, n.isShort = true) :
    Breach.ofObjection? o = none := by
  have hkind := h.kind_eq hshort
  unfold Breach.ofObjection?
  cases hrule : o.isRule <;> simp [hkind, hrule]

theorem Justification.isShort_of_mem_references {j : Justification} (h : j.isShort = true) :
    ∀ n ∈ j.references, n.isShort = true := by
  cases j with
  | ax n => exact List.forall_mem_nil _
  | bare | mp | mt | hs | adj | ds | simp | iff => exact List.all_eq_true.mp h

/-- An objection to a justification from a document is made if it can name all numbers. -/
theorem Justification.ofObjection?_of_validate {j : Justification} {v : Value} {lines : Lines}
    {F : Formula} {o : Objection} (hj : ofValue v = .ok j) (hshort : j.isShort = true)
    (h : j.validate lines F = .error o) : Breach.ofObjection? o = none := by
  rcases validate_eq_error_cases h with ⟨n, rfl, hn⟩ | ⟨hax, -⟩
  · have hnumber : n.isShort = true := by simpa [isShort, numbers] using hshort
    rcases validateInstance_eq_error_cases hn with ⟨hscalar, -⟩ | rfl | ⟨S, -, rfl⟩
    · -- an axiom from a document is looked up
      rw [isScalar_of_ofValue hj] at hscalar
      cases hscalar
    · simp [Breach.ofObjection?, Objection.kind, hnumber]
    · rfl
  · exact (warrants_validate hax F o h).ofObjection?_eq_none (isShort_of_mem_references hshort)

namespace Attempt

/-- No given and no goal was read past its end. -/
def ReadsWithin (a : Attempt) : Prop :=
  (∀ e, .error e ∈ a.given → e.isPastEnd = false) ∧
    ∀ e, a.goal = some (.error e) → e.isPastEnd = false

/-- The faults of fair steps are reported. -/
theorem ofFault?_eq_none {maxDepth : Int} {a : Attempt} {d : Diagnostic} (hreads : a.ReadsWithin)
    (hsteps : Step.AreFair a.steps) (hd : d ∈ a.faults maxDepth) :
    Breach.ofFault? d.fault = none := by
  obtain ⟨c, hc, hcd⟩ := List.mem_filterMap.mp hd
  obtain ⟨k, hk⟩ := List.mem_iff_getElem?.mp hc
  rcases getElem?_derive_cases hk with ⟨r, hr, rfl⟩ | ⟨i, s, -, hi, rfl⟩
  · obtain ⟨e, rfl, rfl⟩ := checkGiven_diagnostic?_eq_some_iff.mp hcd
    exact Breach.ofSyntaxError?_eq_none (hreads.1 e (List.mem_of_getElem? hr))
  · have hs := List.mem_of_getElem? hi
    rcases checkStep_diagnostic?_eq_some_iff.mp hcd with ⟨e, he, rfl⟩ | ⟨F, o, -, ho, rfl⟩
    · have hpast : ¬e.isPastEnd = true := fun hpast =>
        hsteps.unstrained s hs (Formula.strained_of_isPastEnd he hpast)
      exact Breach.ofSyntaxError?_eq_none (Bool.not_eq_true _ ▸ hpast)
    · obtain ⟨v, hv⟩ := hsteps.documented s hs
      exact Justification.ofObjection?_of_validate hv (hsteps.short s hs) ho

end Attempt

namespace Proof

/-- The line at a place, counted from zero, is faulty, with a diagnostic that says so. -/
inductive Faulty (maxDepth : Int) (p : Proof) : Nat → Diagnostic → Prop
  /-- A given that cannot be read. -/
  | given {k : Nat} {text : String} {e : SyntaxError} (hk : p.given[k]? = some text)
      (he : Formula.parse maxDepth text = .error e) :
      Faulty maxDepth p k { line := k + 1, fault := .text e }
  /-- A step that cannot be read. -/
  | text {i : Nat} {s : Step} {e : SyntaxError} (hi : p.steps[i]? = some s)
      (he : Formula.parse maxDepth s.formula = .error e) :
      Faulty maxDepth p (p.given.length + i) { line := s.line, fault := .text e }
  /-- A step that is refused in view of the lines before it. -/
  | refused {i : Nat} {s : Step} {F : Formula} {o : Objection} (hi : p.steps[i]? = some s)
      (hF : Formula.parse maxDepth s.formula = .ok F)
      (ho : s.justification.validate ((p.written maxDepth).take (p.given.length + i)) F =
        .error o) :
      Faulty maxDepth p (p.given.length + i) { line := s.line, fault := .step o }

/-- The diagnostics of the faulty lines, which stand at the places `ks`: one for each, in order. -/
structure Diagnoses (maxDepth : Int) (p : Proof) (ks : List Nat) (errors : List Diagnostic) :
    Prop where
  increasing : ks.Pairwise (· < ·)
  complete : ∀ k, k ∈ ks ↔ ∃ d, p.Faulty maxDepth k d
  faulty : List.Forall₂ (p.Faulty maxDepth) ks errors

variable {maxDepth : Int} {p : Proof}

/-- A line is faulty exactly if the pass over the lines finds a fault there. -/
theorem faulty_iff {k : Nat} {d : Diagnostic} :
    p.Faulty maxDepth k d ↔
      ∃ c, (p.derive maxDepth)[k]? = some c ∧ c.diagnostic? = some d := by
  constructor
  · intro h
    cases h with
    | given hk he =>
      exact ⟨_, getElem?_derive_given hk,
        Attempt.checkGiven_diagnostic?_eq_some_iff.mpr ⟨_, he, rfl⟩⟩
    | text hi he =>
      exact ⟨_, getElem?_derive_step hi,
        Attempt.checkStep_diagnostic?_eq_some_iff.mpr (.inl ⟨_, he, rfl⟩)⟩
    | refused hi hF ho =>
      exact ⟨_, getElem?_derive_step hi,
        Attempt.checkStep_diagnostic?_eq_some_iff.mpr (.inr ⟨_, _, hF, ho, rfl⟩)⟩
  · rintro ⟨c, hc, hd⟩
    rcases getElem?_derive_cases hc with ⟨text, hk, rfl⟩ | ⟨i, s, rfl, hi, rfl⟩
    · obtain ⟨e, he, rfl⟩ := Attempt.checkGiven_diagnostic?_eq_some_iff.mp hd
      exact .given hk he
    · rcases Attempt.checkStep_diagnostic?_eq_some_iff.mp hd with
        ⟨e, he, rfl⟩ | ⟨F, o, hF, ho, rfl⟩
      · exact .text hi he
      · exact .refused hi hF ho

/-- The diagnostics of checked lines, with the places where the lines stand. -/
theorem exists_positions (cs : List Checked) :
    ∃ ks : List Nat, ks.Pairwise (· < ·) ∧
      (∀ k, k ∈ ks ↔ ∃ d c, cs[k]? = some c ∧ c.diagnostic? = some d) ∧
      List.Forall₂ (fun k d => ∃ c, cs[k]? = some c ∧ c.diagnostic? = some d) ks
        (cs.filterMap Checked.diagnostic?) := by
  -- from the front, so that the places of all other lines move up by one
  induction cs with
  | nil => exact ⟨[], .nil, by simp, .nil⟩
  | cons c cs ih =>
    obtain ⟨ks, hks, hmem, hfaults⟩ := ih
    have hks : (ks.map (· + 1)).Pairwise (· < ·) := by
      rw [List.pairwise_map]
      exact hks.imp fun h => Nat.succ_lt_succ h
    have hfaults : List.Forall₂ (fun k d => ∃ c', (c :: cs)[k]? = some c' ∧ c'.diagnostic? = some d)
        (ks.map (· + 1)) (cs.filterMap Checked.diagnostic?) := by
      rw [List.forall₂_map_left_iff]
      exact hfaults
    cases hc : c.diagnostic? with
    | none =>
      refine ⟨ks.map (· + 1), hks, fun k => ?_, ?_⟩
      · cases k <;> simp [hc, hmem]
      · rwa [List.filterMap_cons_none hc]
    | some d =>
      refine ⟨0 :: ks.map (· + 1), List.pairwise_cons.mpr ⟨by simp, hks⟩, fun k => ?_, ?_⟩
      · cases k <;> simp [hc, hmem]
      · rw [List.filterMap_cons_some hc]
        exact .cons ⟨c, rfl, hc⟩ hfaults

/-- The pass over the lines reports every faulty line once, in order. -/
theorem exists_diagnoses (maxDepth : Int) (p : Proof) :
    ∃ ks, p.Diagnoses maxDepth ks ((p.attempt maxDepth).faults maxDepth) := by
  obtain ⟨ks, hks, hmem, hfaults⟩ := exists_positions (p.derive maxDepth)
  refine ⟨ks, hks, fun k => ?_, hfaults.imp fun k d h => faulty_iff.mpr h⟩
  simp only [hmem, faulty_iff]

theorem exists_faulty_of_mem_faults {d : Diagnostic}
    (h : d ∈ (p.attempt maxDepth).faults maxDepth) : ∃ k, p.Faulty maxDepth k d := by
  obtain ⟨c, hc, hd⟩ := List.mem_filterMap.mp h
  obtain ⟨k, hk⟩ := List.mem_iff_getElem?.mp hc
  exact ⟨k, faulty_iff.mpr ⟨c, hk, hd⟩⟩

/-- The kinds of the faults of lines that are reported. -/
theorem Faulty.kindName_mem {k : Nat} {d : Diagnostic} (h : p.Faulty maxDepth k d)
    (hreported : Breach.ofFault? d.fault = none) :
    d.fault.kindName ∈ ["ParseError", "SchemaMismatch", "RuleViolation", "ReferenceError"] := by
  cases h with
  | given | text => exact List.mem_cons_self
  | @refused i s F o hi hF ho =>
    simp only [Breach.ofFault?, Breach.ofObjection?] at hreported
    simp only [Fault.kindName]
    cases h : o.kind with
    | lookup | oversized =>
      rw [h] at hreported
      cases hreported
    | reference | schema | rule => decide

/-! ## Proofs from documents -/

/-- Every justification was read from a document. -/
def IsDocumented (p : Proof) : Prop :=
  ∀ s ∈ p.steps, ∃ v, Justification.ofValue v = .ok s.justification

/-- No number in a justification is too long to be named. -/
def IsShort (p : Proof) : Prop :=
  ∀ s ∈ p.steps, s.justification.isShort = true

/-- The texts that are read as formulas. -/
def texts (p : Proof) : List String :=
  p.given ++ p.steps.map Step.formula ++ p.goal.toList

theorem keepsTo_attempt (maxDepth : Int) (p : Proof) :
    (p.attempt maxDepth).KeepsTo maxDepth := by
  constructor
  · intro f hf
    obtain ⟨text, -, htext⟩ := List.mem_map.mp hf
    exact Formula.height_le_of_parse htext
  · intro f hf
    obtain ⟨text, -, htext⟩ := Option.map_eq_some_iff.mp hf
    exact Formula.height_le_of_parse htext

section Fair

variable (hdocumented : p.IsDocumented) (hshort : p.IsShort)
  (htexts : ∀ text ∈ p.texts, ¬Formula.Strained text)

theorem isPastEnd_eq_false {text : String} {e : SyntaxError} (h : ¬Formula.Strained text)
    (he : Formula.parse maxDepth text = .error e) : e.isPastEnd = false := by
  rw [← Bool.not_eq_true]
  exact fun hpast => h (Formula.strained_of_isPastEnd he hpast)

include htexts

theorem readsWithin_attempt : (p.attempt maxDepth).ReadsWithin := by
  constructor
  · intro e he
    obtain ⟨text, htext, he⟩ := List.mem_map.mp he
    exact isPastEnd_eq_false (htexts text (by simp [texts, htext])) he
  · intro e he
    obtain ⟨goal, hgoal, he⟩ := Option.map_eq_some_iff.mp he
    exact isPastEnd_eq_false (htexts goal (by simp [texts, hgoal])) he

include hdocumented hshort

theorem areFair_steps : Step.AreFair p.steps where
  documented := hdocumented
  short := hshort
  unstrained s hs := htexts s.formula (by
    simp only [texts, List.mem_append, List.mem_map]
    exact .inl (.inr ⟨s, hs, rfl⟩))

/-- All faults of a proof from documents are reported, if numbers can be named and texts be read. -/
theorem ofFault?_eq_none :
    ∀ d ∈ (p.attempt maxDepth).faults maxDepth, Breach.ofFault? d.fault = none :=
  fun _ => Attempt.ofFault?_eq_none (readsWithin_attempt htexts)
    (areFair_steps hdocumented hshort htexts)

end Fair

/-! ## The goal -/

/-- A diagnostic of the goal says that the goal cannot be read or is not reached. -/
theorem goalFault?_cases {f : Fault} (h : (p.attempt maxDepth).goalFault? maxDepth = some f) :
    ∃ goal, p.goal = some goal ∧
      ((∃ e, Formula.parse maxDepth goal = .error e ∧ f = .goalText e) ∨
        ∃ target, Formula.parse maxDepth goal = .ok target ∧ f = .goalMissed target) := by
  unfold Attempt.goalFault? at h
  simp only [attempt] at h
  cases hg : p.goal with
  | none =>
    rw [hg] at h
    cases h
  | some goal =>
    refine ⟨goal, rfl, ?_⟩
    rw [hg, Option.map_some] at h
    cases hp : Formula.parse maxDepth goal with
    | error e =>
      rw [hp] at h
      cases h
      exact .inl ⟨e, rfl, rfl⟩
    | ok target =>
      simp only [hp] at h
      split at h <;> cases h
      exact .inr ⟨target, rfl, rfl⟩

theorem missedGoal_eq (maxDepth : Int) (p : Proof) :
    (p.attempt maxDepth).missedGoal maxDepth =
      ((p.attempt maxDepth).goalFault? maxDepth).toList.map fun f =>
        { line := (p.attempt maxDepth).lastLabel, fault := f } := by
  unfold Attempt.missedGoal
  cases (p.attempt maxDepth).goalFault? maxDepth <;> rfl

theorem length_missedGoal_le (maxDepth : Int) (p : Proof) :
    ((p.attempt maxDepth).missedGoal maxDepth).length ≤ 1 := by
  rw [missedGoal_eq, List.length_map]
  exact Option.length_toList_le

theorem mem_missedGoal_iff {d : Diagnostic} :
    d ∈ (p.attempt maxDepth).missedGoal maxDepth ↔
      d.line = (p.attempt maxDepth).lastLabel ∧
        (p.attempt maxDepth).goalFault? maxDepth = some d.fault := by
  rw [missedGoal_eq, List.mem_map]
  constructor
  · rintro ⟨f, hf, rfl⟩
    exact ⟨rfl, Option.mem_toList.mp hf⟩
  · rintro ⟨hline, hf⟩
    exact ⟨d.fault, Option.mem_toList.mpr hf, by rw [← hline]⟩

theorem kindName_mem_of_mem_missedGoal {d : Diagnostic}
    (h : d ∈ (p.attempt maxDepth).missedGoal maxDepth) :
    d.fault.kindName ∈ ["ParseError", "GoalMismatch"] := by
  obtain ⟨goal, -, ⟨e, -, hf⟩ | ⟨target, -, hf⟩⟩ := goalFault?_cases (mem_missedGoal_iff.mp h).2
  · rw [hf]
    exact List.mem_cons_self
  · rw [hf]
    exact List.mem_cons_of_mem _ List.mem_cons_self

/-- The goal is not reported exactly if there is none or the last line is the goal. -/
theorem missedGoal_eq_nil_iff :
    (p.attempt maxDepth).missedGoal maxDepth = [] ↔
      ∀ goal, p.goal = some goal →
        ∃ target, Formula.parse maxDepth goal = .ok target ∧
          (p.written maxDepth).getLast? = some (some target) := by
  rw [missedGoal_eq, List.map_eq_nil_iff, Option.toList_eq_nil_iff,
    Attempt.goalFault?_eq_none_iff, attempt_written]
  simp [attempt]

end Proof

/-! ## Checks that return -/

namespace Outcome

variable {s : Settings} {p : Proof}

/-- The default limit leaves room, and so does every lower one. -/
theorem room_of_le_default (hs : s.maxDepth ≤ ({} : Settings).maxDepth) :
    3 * (s.maxDepth + 1) ≤ Reader.capacity := by
  have hdefault : s.maxDepth ≤ 100 := hs
  rw [Reader.capacity]
  omega

/-- If there is room, the check ends at no line whose fault is reported. -/
theorem lineBreach?_eq_none {a : Attempt} (hroom : 3 * (s.maxDepth + 1) ≤ Reader.capacity)
    (hkeeps : a.KeepsTo s.maxDepth)
    (hreported : ∀ d ∈ a.faults s.maxDepth, Breach.ofFault? d.fault = none)
    {c : Checked} (hc : c ∈ a.derive s.maxDepth) : lineBreach? c = none := by
  have hfault : c.fault.bind Breach.ofFault? = none := by
    cases hf : c.fault with
    | none => rfl
    | some f =>
      have hd : c.diagnostic? = some { line := c.label, fault := f } := by
        rw [Checked.diagnostic?, hf, Option.map_some]
      exact hreported _ (List.mem_filterMap.mpr ⟨c, hc, hd⟩)
  have hfits : c.effort.all Effort.fits = true :=
    Effort.all_fits (Attempt.within_effort hkeeps hc) (by rw [Reader.capacity] at *; omega)
  rw [lineBreach?, hfault, hfits]
  rfl

/-- A line that ends no check has no fault but one that is reported. -/
theorem ofFault?_of_lineBreach? {c : Checked} {d : Diagnostic} (h : lineBreach? c = none)
    (hd : c.diagnostic? = some d) : Breach.ofFault? d.fault = none := by
  obtain ⟨f, hf, rfl⟩ := Option.map_eq_some_iff.mp hd
  unfold lineBreach? at h
  rw [hf] at h
  cases hb : Breach.ofFault? f with
  | none => rfl
  | some b => simp [hb] at h

/-- If there is room, the check does not end at a goal that was read or is reported. -/
theorem goalBreach?_eq_none {a : Attempt} (hroom : 3 * (s.maxDepth + 1) ≤ Reader.capacity)
    (hkeeps : a.KeepsTo s.maxDepth) (hreads : ∀ e, a.goal = some (.error e) → e.isPastEnd = false) :
    goalBreach? s a = none := by
  have hfault : (a.goalFault? s.maxDepth).bind Breach.ofFault? = none := by
    unfold Attempt.goalFault?
    split
    · rfl
    · next e he => exact Breach.ofSyntaxError?_eq_none (hreads e he)
    · split <;> rfl
  have hfits : (a.goalEffort s.maxDepth).all Effort.fits = true :=
    Effort.all_fits (Attempt.within_goalEffort hkeeps) (by rw [Reader.capacity] at *; omega)
  rw [goalBreach?, hfault, hfits]
  rfl

/-- A line that ends a check does so without a report. -/
theorem exists_breach_of_mem {α : Type} {breach? : Checked → Option Breach} {a : Attempt}
    {rest : Outcome α} {c : Checked} (hc : c ∈ a.derive s.maxDepth) (h : breach? c ≠ none) :
    ∃ b, (whenCheckable breach? s a rest).result = .error (.breach b) := by
  unfold whenCheckable
  dsimp only
  cases hfound : (a.derive s.maxDepth).findSome? breach? with
  | none => exact absurd (List.findSome?_eq_none_iff.mp hfound c hc) h
  | some b => exact ⟨b, rfl⟩

/-- What follows a check returns exactly if no line ends it. -/
theorem whenCheckable_eq_ok_iff {α : Type} {breach? : Checked → Option Breach} {a : Attempt}
    {rest : Outcome α} {v : α} :
    (whenCheckable breach? s a rest).result = .ok v ↔
      (∀ c ∈ a.derive s.maxDepth, breach? c = none) ∧ rest.result = .ok v := by
  rw [← List.findSome?_eq_none_iff]
  unfold whenCheckable
  dsimp only
  cases (a.derive s.maxDepth).findSome? breach? <;> simp

section Breaches

variable {breach? : Checked → Option Breach} {a : Attempt}
  (h : ∀ c ∈ a.derive s.maxDepth, breach? c = none)

include h

theorem whenCheckable_eq {α : Type} {rest : Outcome α} :
    whenCheckable breach? s a rest = rest := by
  unfold whenCheckable
  dsimp only
  rw [List.findSome?_eq_none_iff.mpr h]

theorem linesOf_result : (linesOf breach? s a).result = .ok (a.lines s.maxDepth) := by
  rw [linesOf, whenCheckable_eq h]

variable (hroom : 3 * (s.maxDepth + 1) ≤ Reader.capacity) (hkeeps : a.KeepsTo s.maxDepth)

include hroom hkeeps

theorem refuteOf_result : (refuteOf breach? s a).result = .ok (a.refute s.maxDepth) := by
  have hfits : (a.contradictionEffort s.maxDepth).all Effort.fits = true :=
    Effort.all_fits (Attempt.within_contradictionEffort hkeeps)
      (by rw [Reader.capacity] at *; omega)
  rw [refuteOf, whenCheckable_eq h, if_pos hfits]

/-- A check that ends at no line returns what it finds, if the goal keeps to the limit. -/
theorem checkOf_result (hreads : ∀ e, a.goal = some (.error e) → e.isPastEnd = false) :
    (checkOf breach? s a).result = .ok (a.check s.maxDepth) := by
  rw [checkOf, whenCheckable_eq h, goalBreach?_eq_none hroom hkeeps hreads]

end Breaches

/-- What a check returns is what it finds, and what it finds is reported. -/
theorem eq_of_checkOf_result {breach? : Checked → Option Breach} {a : Attempt} {v : Verdict}
    (h : (checkOf breach? s a).result = .ok v) :
    (∀ c ∈ a.derive s.maxDepth, breach? c = none) ∧ v = a.check s.maxDepth := by
  obtain ⟨hbreach, hv⟩ := whenCheckable_eq_ok_iff.mp h
  refine ⟨hbreach, ?_⟩
  cases hgoal : goalBreach? s a with
  | none =>
    rw [hgoal] at hv
    exact (Except.ok.inj hv).symm
  | some b =>
    rw [hgoal] at hv
    cases hv

section Results

variable (hroom : 3 * (s.maxDepth + 1) ≤ Reader.capacity)
  (hreported : ∀ d ∈ (p.attempt s.maxDepth).faults s.maxDepth, Breach.ofFault? d.fault = none)

include hroom hreported

theorem lines_result : (lines s p).result = .ok (p.lines s.maxDepth) :=
  linesOf_result fun _ => lineBreach?_eq_none hroom (p.keepsTo_attempt s.maxDepth) hreported

theorem refute_result : (refute s p).result = .ok (p.refute s.maxDepth) := by
  have hkeeps := p.keepsTo_attempt s.maxDepth
  exact refuteOf_result (fun _ => lineBreach?_eq_none hroom hkeeps hreported) hroom hkeeps

/-- If there is room for formulas one level higher than the limit and all faults are reported, a
check returns what it finds. -/
theorem check_result
    (hgoal : ∀ goal ∈ p.goal, ∀ e, Formula.parse s.maxDepth goal = .error e →
      e.isPastEnd = false) :
    (check s p).result = .ok (p.check s.maxDepth) := by
  have hkeeps := p.keepsTo_attempt s.maxDepth
  refine checkOf_result (fun _ => lineBreach?_eq_none hroom hkeeps hreported) hroom hkeeps ?_
  intro e he
  obtain ⟨goal, hgoal', he⟩ := Option.map_eq_some_iff.mp he
  exact hgoal goal hgoal' e he

end Results

end Outcome

/-! ## Labels -/

namespace Step

/-- A step is read from one of the documents, with its place as the label it has for want of one. -/
theorem exists_ofValue_of_ofValues {line : Int} {items : List Value} {steps : List Step}
    (h : ofValues line items = .ok steps) {i : Nat} {s : Step} (hi : steps[i]? = some s) :
    ∃ v ∈ items, ofValue (line + i) v = .ok s := by
  induction items generalizing line steps i with
  | nil =>
    cases h
    cases hi
  | cons v items ih =>
    unfold ofValues at h
    split at h
    · cases h
    next t ht =>
    split at h
    · cases h
    next ts hts =>
    cases h
    cases i with
    | zero =>
      cases hi
      exact ⟨v, List.mem_cons_self, by simpa using ht⟩
    | succ i =>
      obtain ⟨w, hw, hs⟩ := ih hts hi
      refine ⟨w, List.mem_cons_of_mem v hw, ?_⟩
      rwa [Int.add_assoc, Int.add_comm 1] at hs

/-- Steps that a document lists without labels are labelled by their places. -/
theorem line_eq_of_ofValues {line : Int} {items : List Value} {steps : List Step}
    (hitems : ∀ v ∈ items, v.field? "line" = none) (h : ofValues line items = .ok steps)
    {i : Nat} {s : Step} (hi : steps[i]? = some s) : s.line = line + i := by
  obtain ⟨v, hv, hs⟩ := exists_ofValue_of_ofValues h hi
  have hline := (ofValue_eq_ok hs).1
  rw [hitems v hv] at hline
  exact (Option.some.inj hline).symm

end Step

namespace Proof

variable {maxDepth : Int} {p : Proof}

/-- Steps that a document lists have their justifications from documents. -/
theorem isDocumented_of_ofValues {line : Int} {items : List Value}
    (h : Step.ofValues line items = .ok p.steps) : p.IsDocumented := by
  intro s hs
  obtain ⟨i, hi⟩ := List.mem_iff_getElem?.mp hs
  obtain ⟨v, -, hv⟩ := Step.exists_ofValue_of_ofValues h hi
  exact ⟨v, (Step.ofValue_eq_ok hv).2⟩

section Unlabelled

variable
  (hsteps : ∀ (i : Nat) (s : Step), p.steps[i]? = some s → s.line = p.given.length + 1 + i)

include hsteps

/-- If all steps are labelled by their places, a diagnostic shows the place of its line. -/
theorem Faulty.line_eq {k : Nat} {d : Diagnostic} (h : p.Faulty maxDepth k d) :
    d.line = k + 1 := by
  cases h with
  | given => rfl
  | text hi | refused hi =>
    have hline := hsteps _ _ hi
    dsimp only
    omega

/-- If all steps are labelled by their places, the last label is the number of lines. -/
theorem lastLabel_eq : (p.attempt maxDepth).lastLabel = p.given.length + p.steps.length := by
  unfold Attempt.lastLabel
  simp only [attempt, List.length_map]
  cases hlast : p.steps.getLast? with
  | none =>
    rw [List.getLast?_eq_none_iff.mp hlast]
    simp
  | some s =>
    rw [List.getLast?_eq_getElem?] at hlast
    have hline := hsteps _ _ hlast
    have hlt := (List.getElem?_eq_some_iff.mp hlast).1
    dsimp only
    omega

end Unlabelled

end Proof

/-! ## Checks that do not return -/

namespace Formula

/-- A text of the negated variable. -/
def negatedText (n : Nat) : String :=
  String.ofList (List.replicate n '¬' ++ ['A'])

theorem writesPhrase_negated (n : Nat) :
    WritesPhrase (List.replicate n '¬' ++ ['A']) 5 (negated n) n := by
  induction n with
  | zero =>
    have hname : WritesPhrase "A".toList 6 (.var "A") 0 := .var (by decide)
    exact hname.mono (by decide) (by decide)
  | succ n ih =>
    have hsign : ("¬", Token.Kind.not) ∈ Token.spellings := by decide
    have hneg := WritesPhrase.neg hsign ih
    rw [Reader.Frame.weight, Nat.add_comm] at hneg
    exact hneg

/-- Negations take little room when they are read. -/
theorem parse_negatedText {maxDepth : Int} {n : Nat} (hn : n ≤ Reader.capacity)
    (hheight : (n : Int) + 1 ≤ maxDepth) :
    parse maxDepth (negatedText n) = .ok (negated n) := by
  refine parse_of_writesPhrase (writesPhrase_negated n) (by decide) hn ?_
  rw [height_negated]
  omega

/-- The negations take one frame each when they are read. -/
theorem not_strained_negatedText {n : Nat} (hn : n ≤ Reader.assured) :
    ¬Strained (negatedText n) := by
  obtain ⟨us, t, hscan, ht, htakes⟩ := takes_of_writesPhrase (writesPhrase_negated n) (by decide)
  exact not_strained_of_takes hscan ht htakes hn

/-- A text of negations alone. -/
def negations (n : Nat) : String :=
  String.ofList (List.replicate n '¬')

theorem spells_negations (n o : Nat) :
    Token.Spells o (List.replicate n '¬')
      ((List.range' o n).map (fun i => ⟨.not, "¬", i⟩) ++ [⟨.stop, "", o + n⟩]) := by
  induction n generalizing o with
  | zero => exact .stop
  | succ n ih =>
    have hsign : ("¬", Token.Kind.not) ∈ Token.spellings := by decide
    have h := Token.Spells.sign (o := o) hsign (ih (o + 1))
    rw [Nat.add_right_comm] at h
    exact h

/-- Negations are pushed until the room ends, and the token behind the last is looked for in
vain. -/
theorem run_negations {room : Nat} {st : List Reader.Frame} {ts : List Token} (t : Token)
    (hst : Reader.expected 1 st ≤ 5) (hts : ∀ t ∈ ts, t.kind = .not) (hne : ts ≠ [])
    (hroom : Reader.weight st + ts.length = room + 1) :
    Reader.run room 1 st none (ts ++ [t]) = .error (.tooNested none) := by
  induction ts generalizing st with
  | nil => exact absurd rfl hne
  | cons u ts ih =>
    have hweight : Reader.weight (.neg :: st) = Reader.weight st + 1 := by
      rw [Reader.weight, Reader.Frame.weight, Nat.add_comm]
    rw [List.length_cons] at hroom
    rw [List.cons_append, Reader.run_not (hts u List.mem_cons_self) hst]
    cases ts with
    | nil =>
      -- the last negation takes one place too many
      have hlast : Reader.weight (.neg :: st) = room + 1 := by rw [hweight, ← hroom]; rfl
      rw [if_pos (by omega), Reader.lack, if_pos hlast]
      rfl
    | cons v ts =>
      rw [List.length_cons] at hroom
      rw [if_neg (by omega)]
      refine ih (Nat.le_refl 5) (fun t ht => hts t (List.mem_cons_of_mem u ht))
        (List.cons_ne_nil v ts) ?_
      rw [hweight, List.length_cons]
      omega

theorem parse_negations (maxDepth : Int) {n : Nat} (hn : n = Reader.capacity + 1) :
    parse maxDepth (negations n) = .error (.tooNested none) := by
  have hscan := Token.scanFrom_eq_ok_iff.mpr (spells_negations n 0)
  have hkind : ∀ t ∈ (List.range' 0 n).map (fun i => (⟨.not, "¬", i⟩ : Token)), t.kind = .not := by
    intro t ht
    obtain ⟨i, -, rfl⟩ := List.mem_map.mp ht
    rfl
  have hne : (List.range' 0 n).map (fun i => (⟨.not, "¬", i⟩ : Token)) ≠ [] := by
    rw [ne_eq, List.map_eq_nil_iff, List.range'_eq_nil_iff]
    omega
  have hrun : Reader.run Reader.capacity 1 [] none
      ((List.range' 0 n).map (fun i => ⟨.not, "¬", i⟩) ++ [⟨.stop, "", 0 + n⟩]) =
        .error (.tooNested none) :=
    run_negations ⟨.stop, "", 0 + n⟩ (by decide) hkind hne (by simpa [Reader.weight] using hn)
  simp only [parse, Token.scan, negations, String.toList_ofList, hscan, ofTokens, Reader.readAll,
    Reader.read, hrun]

end Formula

namespace Proof

/-- A proof that claims of a variable that it adjoins a negated variable to itself. -/
def adjoined (n : Nat) : Proof :=
  { given := [Formula.negatedText n],
    steps := [{ line := 2, formula := Formula.negatedText 0,
                justification := .adj (.int 1) (.int 1) }] }

/-- A claim that is answered with a conclusion for which there is no room ends the check. -/
theorem lineBreach?_adjoined {s : Settings} {n : Nat} (hheight : (n : Int) + 1 ≤ s.maxDepth)
    (hroom : Reader.capacity < 2 * (n + 2)) :
    Outcome.lineBreach? (Attempt.checkStep s.maxDepth [some (.negated n)]
      ⟨2, Formula.negatedText 0, .adj (.int 1) (.int 1)⟩) = some .tooNested := by
  have hstep : Formula.parse s.maxDepth (Formula.negatedText 0) = .ok (Formula.negated 0) :=
    Formula.parse_negatedText (Nat.zero_le _) (by omega)
  -- the answer quotes a conclusion that is one level higher than the given
  have hvalidate : Justification.validate [some (.negated n)] (.adj (.int 1) (.int 1))
      (.negated 0) = .error (.wrongConclusion "ADJ" (.negated 0)
        (.and (.negated n) (.negated n))) := rfl
  have hfits : (Formula.and (.negated n) (.negated n)).fitsText = false := by
    rw [Formula.fitsText_eq_false_iff, Formula.height, Formula.height_negated]
    omega
  have hmem : Effort.write (.and (.negated n) (.negated n)) ∈
      Justification.validateEffort [some (.negated n)] (.adj (.int 1) (.int 1)) (.negated 0) := by
    rw [Justification.validateEffort_eq (fun _ h => Justification.noConfusion h), hvalidate]
    simp [Rule.objecting, Objection.quoted]
  have hspent : (Justification.validateEffort [some (.negated n)] (.adj (.int 1) (.int 1))
      (.negated 0)).all Effort.fits = false :=
    List.all_eq_false.mpr ⟨_, hmem, by simp [Effort.fits, hfits]⟩
  simp [Attempt.checkStep, hstep, hvalidate, Outcome.lineBreach?, Breach.ofFault?,
    Breach.ofObjection?, Objection.kind, hspent]

theorem check_adjoined {s : Settings} {n : Nat} (hn : n ≤ Reader.capacity)
    (hheight : (n : Int) + 1 ≤ s.maxDepth) (hroom : Reader.capacity < 2 * (n + 2)) :
    (Outcome.check s (adjoined n)).result = .error (.breach .tooNested) := by
  have hbreach : (((adjoined n).attempt s.maxDepth).derive s.maxDepth).findSome?
      Outcome.lineBreach? = some .tooNested := by
    simp only [attempt, adjoined, Attempt.derive, List.map_cons, List.map_nil,
      Formula.parse_negatedText hn hheight, Attempt.checkGivens, Attempt.checkSteps,
      Attempt.checkGiven, List.cons_append, List.nil_append, List.findSome?_cons,
      lineBreach?_adjoined hheight hroom]
    rfl
  rw [Outcome.check, Outcome.checkOf, Outcome.whenCheckable]
  simp only [hbreach]

theorem isDocumented_adjoined (n : Nat) : (adjoined n).IsDocumented := by
  intro s hs
  obtain rfl := List.mem_singleton.mp hs
  exact ⟨.object [("rule", .text "ADJ"), ("refs", .list [.int 1, .int 1])], rfl⟩

theorem isShort_adjoined (n : Nat) : (adjoined n).IsShort := by
  intro s hs
  obtain rfl := List.mem_singleton.mp hs
  decide +kernel

theorem not_strained_adjoined {n : Nat} (hn : n ≤ Reader.assured) :
    ∀ text ∈ (adjoined n).texts, ¬Formula.Strained text := by
  intro text htext
  rcases List.mem_pair.mp htext with rfl | rfl
  · exact Formula.not_strained_negatedText hn
  · exact Formula.not_strained_negatedText (Nat.zero_le _)

/-- A given of negations alone. -/
def unended (n : Nat) : Proof :=
  { given := [Formula.negations n], steps := [] }

/-- Negations that end with the room end the check. -/
theorem check_unended (s : Settings) {n : Nat} (hn : n = Reader.capacity + 1) :
    (Outcome.check s (unended n)).result = .error (.breach .pastEnd) := by
  have hparse := Formula.parse_negations s.maxDepth hn
  have hbreach : (((unended n).attempt s.maxDepth).derive s.maxDepth).findSome?
      Outcome.lineBreach? = some .pastEnd := by
    simp only [attempt, unended, Attempt.derive, List.map_cons, List.map_nil, hparse,
      Attempt.checkGivens, Attempt.checkSteps, Attempt.checkGiven]
    rfl
  rw [Outcome.check, Outcome.checkOf, Outcome.whenCheckable]
  simp only [hbreach]

/-- A proof that cites a line by a number of too many digits. -/
def misnumbered : Proof :=
  { given := [],
    steps := [{ line := 1, formula := "A",
                justification := .mp (.int Text.numberLimit) (.int 1) }] }

theorem check_misnumbered {s : Settings} (hs : 1 ≤ s.maxDepth) :
    (Outcome.check s misnumbered).result = .error (.breach .oversized) := by
  have hparse : Formula.parse s.maxDepth "A" = .ok (.var "A") :=
    Formula.parse_negatedText (n := 0) (Nat.zero_le _) (by omega)
  have hvalidate : Justification.validate [] (.mp (.int Text.numberLimit) (.int 1)) (.var "A") =
      .error (.noLine (.int Text.numberLimit)) := by
    have hcite : Lines.cite [] (.int Text.numberLimit) =
        .error (.noLine (.int Text.numberLimit)) := by
      rw [Lines.cite, Value.wholeNumber?_int]
      exact if_pos (.inr (by decide +kernel))
    refine Justification.validate_of_error (fun n h => by cases h) ?_ _
    rw [Justification.conclusions, Rule.modusPonens, hcite]
    rfl
  have hlong : (Objection.noLine (.int Text.numberLimit)).kind = .oversized := by
    decide +kernel
  have hbreach : ((misnumbered.attempt s.maxDepth).derive s.maxDepth).findSome?
      Outcome.lineBreach? = some .oversized := by
    simp only [attempt, misnumbered, Attempt.derive, List.map_nil, Attempt.checkGivens,
      Attempt.checkSteps, Attempt.checkStep, hparse, hvalidate, List.nil_append]
    simp only [List.findSome?_cons, Outcome.lineBreach?, Breach.ofFault?, Breach.ofObjection?,
      Option.bind_some, hlong]
  rw [Outcome.check, Outcome.checkOf, Outcome.whenCheckable]
  simp only [hbreach]

theorem isDocumented_misnumbered : misnumbered.IsDocumented := by
  intro s hs
  obtain rfl := List.mem_singleton.mp hs
  exact ⟨.object [("rule", .text "MP"), ("refs", .list [.int Text.numberLimit, .int 1])], rfl⟩

/-! ## What checks return -/

/-- Checks of proofs from documents return if there is room for formulas one level higher than the
limit, no number is too long to be named and no text strains the reader; without any one of the
three some check does not return. A check that returns gives one diagnostic for each faulty line, in
the order of the lines and of one of four kinds, and behind these at most one for a goal that cannot
be read or is missed. If the document lists the steps without labels, a diagnostic shows the place
of its line, counted from one, and that of the goal the number of lines. The lines are what their
texts write. -/
theorem check_diagnoses_faults (s : Settings) :
    (3 * (s.maxDepth + 1) ≤ Reader.assured → ∀ p : Proof, p.IsDocumented → p.IsShort →
      (∀ text ∈ p.texts, ¬Formula.Strained text) →
        (Outcome.check s p).result = .ok (p.check s.maxDepth) ∧
        (Outcome.refute s p).result = .ok (p.refute s.maxDepth) ∧
        (Outcome.lines s p).result = .ok (p.lines s.maxDepth)) ∧
    (701 ≤ s.maxDepth → ∃ p : Proof, p.IsDocumented ∧ p.IsShort ∧
      (∀ text ∈ p.texts, ¬Formula.Strained text) ∧
      (Outcome.check s p).result = .error (.breach .tooNested)) ∧
    (∃ p : Proof, p.IsDocumented ∧ p.IsShort ∧
      (Outcome.check s p).result = .error (.breach .pastEnd)) ∧
    (1 ≤ s.maxDepth → ∃ p : Proof, p.IsDocumented ∧
      (∀ text ∈ p.texts, ¬Formula.Strained text) ∧
      (Outcome.check s p).result = .error (.breach .oversized)) ∧
    (∀ p v, (Outcome.check s p).result = .ok v →
      ∃ (ks : List Nat) (lineErrors goalErrors : List Diagnostic),
        v.errors = lineErrors ++ goalErrors ∧
        p.Diagnoses s.maxDepth ks lineErrors ∧
        (∀ d ∈ lineErrors, d.fault.kindName ∈
          ["ParseError", "SchemaMismatch", "RuleViolation", "ReferenceError"]) ∧
        goalErrors.length ≤ 1 ∧
        (∀ d ∈ goalErrors, d.fault.kindName ∈ ["ParseError", "GoalMismatch"]) ∧
        (goalErrors = [] ↔ ∀ goal, p.goal = some goal →
          ∃ target, Formula.parse s.maxDepth goal = .ok target ∧
            (p.lines s.maxDepth).getLast? = some (some target)) ∧
        ∀ items, (∀ v ∈ items, v.field? "line" = none) →
          Step.listOfValue p.given.length (.list items) = .ok p.steps →
            List.Forall₂ (fun (k : Nat) (d : Diagnostic) => d.line = k + 1) ks lineErrors ∧
            ∀ d ∈ goalErrors, d.line = p.given.length + p.steps.length) ∧
    ∀ p lines, (Outcome.lines s p).result = .ok lines →
      lines.length = p.given.length + p.steps.length ∧
      lines = (p.given ++ p.steps.map Step.formula).map
        fun text => (Formula.parse s.maxDepth text).toOption := by
  have hwritten : ∀ p : Proof, p.lines s.maxDepth = p.written s.maxDepth := by
    intro p
    rw [lines, Attempt.lines_eq_written, attempt_written]
  refine ⟨?_, ?_, ?_, ?_, ?_, ?_⟩
  · intro hroom p hdocumented hshort htexts
    have hroom : 3 * (s.maxDepth + 1) ≤ Reader.capacity := Int.le_trans hroom (by decide)
    have hreported : ∀ d ∈ (p.attempt s.maxDepth).faults s.maxDepth,
        Breach.ofFault? d.fault = none := ofFault?_eq_none hdocumented hshort htexts
    refine ⟨Outcome.check_result hroom hreported fun goal hgoal e he => ?_,
      Outcome.refute_result hroom hreported, Outcome.lines_result hroom hreported⟩
    exact isPastEnd_eq_false (htexts goal (by simp [texts, Option.mem_def.mp hgoal])) he
  · intro hdeep
    refine ⟨adjoined 700, isDocumented_adjoined 700, isShort_adjoined 700,
      not_strained_adjoined (by decide), check_adjoined (by decide) (by omega) (by decide)⟩
  · exact ⟨unended _, List.forall_mem_nil _, List.forall_mem_nil _, check_unended s rfl⟩
  · intro hpositive
    refine ⟨misnumbered, isDocumented_misnumbered, fun text htext => ?_,
      check_misnumbered hpositive⟩
    obtain rfl := List.mem_singleton.mp htext
    exact Formula.not_strained_of_length_le (by decide)
  · intro p v hv
    obtain ⟨hbreach, rfl⟩ := Outcome.eq_of_checkOf_result hv
    obtain ⟨ks, hks⟩ := exists_diagnoses s.maxDepth p
    refine ⟨ks, _, _, rfl, hks, fun d hd => ?_, length_missedGoal_le s.maxDepth p,
      fun d hd => ?_, ?_, fun items hitems hsteps => ?_⟩
    · obtain ⟨c, hc, hcd⟩ := List.mem_filterMap.mp hd
      obtain ⟨k, hk⟩ := exists_faulty_of_mem_faults hd
      exact hk.kindName_mem (Outcome.ofFault?_of_lineBreach? (hbreach c hc) hcd)
    · exact kindName_mem_of_mem_missedGoal hd
    · rw [hwritten]
      exact missedGoal_eq_nil_iff
    · have hlabels : ∀ (i : Nat) (t : Step), p.steps[i]? = some t →
          t.line = p.given.length + 1 + i := fun i t hi => Step.line_eq_of_ofValues hitems hsteps hi
      refine ⟨hks.faulty.imp fun k d hd => hd.line_eq hlabels, fun d hd => ?_⟩
      rw [(mem_missedGoal_iff.mp hd).1, lastLabel_eq hlabels]
  · intro p lines hlines
    obtain ⟨-, hlines⟩ := Outcome.whenCheckable_eq_ok_iff.mp hlines
    obtain rfl : p.lines s.maxDepth = lines := Except.ok.inj hlines
    exact ⟨by simp [hwritten, written], hwritten p⟩

/-- Steps without labels: a citation of a line that cannot be read, a formula that is no instance of
the axiom, a simplification of no conjunction, and a text that cannot be read. -/
def faultyItems : List Value :=
  [.object [("formula", .text "B"), ("rule", .text "MP"), ("refs", .list [.int 1, .int 2])],
    .object [("formula", .text "¬A"), ("rule", .text "AX"), ("axiom", .int 1)],
    .object [("formula", .text "A"), ("rule", .text "SIMP"), ("refs", .list [.int 1]),
      ("pick", .text "left")],
    .object [("formula", .text "(A"), ("rule", .text "A2")]]

/-- The proof with these steps, in which a given cannot be read and the goal is missed, too. -/
def faultySample : Proof :=
  { given := ["A", "A->"],
    steps :=
      [{ line := 3, formula := "B", justification := .mp (.int 1) (.int 2) },
        { line := 4, formula := "¬A", justification := .ax (.int 1) },
        { line := 5, formula := "A", justification := .simp (.int 1) .left },
        { line := 6, formula := "(A", justification := .ax (.int 2) }],
    goal := some "C" }

theorem listOfValue_faultyItems :
    Step.listOfValue faultySample.given.length (.list faultyItems) = .ok faultySample.steps := by
  rfl

theorem check_diagnoses_faults_sample :
    faultySample.IsDocumented ∧ (∀ v ∈ faultyItems, v.field? "line" = none) ∧
    (Outcome.check {} faultySample).result = .ok (faultySample.check 100) ∧
    ((faultySample.check 100).errors.map fun d => (d.line, d.fault.kindName)) =
      [(2, "ParseError"), (3, "ReferenceError"), (4, "SchemaMismatch"), (5, "RuleViolation"),
        (6, "ParseError"), (6, "GoalMismatch")] ∧
    ∃ (ks : List Nat) (lineErrors goalErrors : List Diagnostic),
      (faultySample.check 100).errors = lineErrors ++ goalErrors ∧
      faultySample.Diagnoses 100 ks lineErrors ∧
      List.Forall₂ (fun (k : Nat) (d : Diagnostic) => d.line = k + 1) ks lineErrors ∧
      ∀ d ∈ goalErrors, d.line = 6 := by
  have hp : faultySample.IsDocumented := isDocumented_of_ofValues listOfValue_faultyItems
  have hitems : ∀ v ∈ faultyItems, v.field? "line" = none := by
    simp [faultyItems, Value.field?, Table.get?]
  have htexts : ∀ text ∈ faultySample.texts, ¬Formula.Strained text := by
    intro text htext
    have hlength : ∀ text ∈ faultySample.texts, 6 * text.length ≤ Reader.assured := by decide
    exact Formula.not_strained_of_length_le (hlength text htext)
  have hshort : faultySample.IsShort := by
    intro s hs
    have hall : (faultySample.steps.all fun s => s.justification.isShort) = true := by
      decide +kernel
    exact List.all_eq_true.mp hall s hs
  obtain ⟨hresults, -, -, -, hreports, -⟩ := check_diagnoses_faults {}
  have hcheck := (hresults (by decide) faultySample hp hshort htexts).1
  obtain ⟨ks, lineErrors, goalErrors, herrors, hks, -, -, -, -, hlabels⟩ :=
    hreports faultySample _ hcheck
  obtain ⟨hlines, hgoal⟩ := hlabels faultyItems hitems listOfValue_faultyItems
  exact ⟨hp, hitems, hcheck, by decide +kernel, ks, lineErrors, goalErrors, herrors, hks, hlines,
    hgoal⟩

/-- A limit far above the default lets formulas through for which there is no room. -/
theorem check_adjoined_tooNested :
    (adjoined 700).IsDocumented ∧
    (Outcome.check { maxDepth := 5000 } (adjoined 700)).result = .error (.breach .tooNested) :=
  ⟨isDocumented_adjoined 700, check_adjoined (by decide) (by decide) (by decide)⟩

end Proof

end Propositional
