import Propositional.Exercise
import Propositional.Proofs.Locality
import Propositional.Proofs.Refutation

/-!
# Solutions of exercises

A solution is held against what its exercise allows before it is checked. If a step is not allowed,
the verdict says so of every such step and of nothing else, if the numbers of axioms among them are
short enough to be named. If a solution is accepted, all its steps
are allowed and all givens can be read. Then the givens are never all true, if a contradiction was
asked for; otherwise the goal is the last line and a consequence of the givens, unless the document
of the exercise sets its goal to null. Such an exercise has no goal, and the empty solution is
accepted.

## Main definitions

* `Exercise.Allows`: the steps that an exercise allows
* `Exercise.reading`, `Exercise.premises`, `Exercise.written`: what the givens and the lines of a
  solution write

## Main results

* `Exercise.verify_of_forbidden`: the verdict on a solution that is not allowed
* `Exercise.verify_eq_ok_cases`: the verdict on any other solution
* `Exercise.verify_sound`: accepted solutions solve their exercise
-/

namespace Propositional

namespace Exercise

/-! ## What is allowed -/

/-- A step is allowed: its axiom by its number, any other rule by its name. -/
def Allows (e : Exercise) (t : Step) : Prop :=
  match t.justification with
  | .ax n => ∃ m ∈ e.axioms, n.equalsInteger m = true
  | j => j.rule ∈ e.rules

/-- A step that is not allowed is reported at its line. -/
def IsForbidden (t : Step) (d : Diagnostic) : Prop :=
  d.line = t.line ∧ d.fault.kindName = "NotAllowed"

variable {e : Exercise} {t : Step} {steps : List Step}

/-- A step is let through exactly if it is allowed. -/
theorem forbidden?_eq_none_iff : e.forbidden? t = none ↔ e.Allows t := by
  unfold forbidden? Allows
  cases t.justification <;> simp

/-- A step that is not let through is reported by its axiom or by its rule. -/
theorem forbidden?_cases {d : Diagnostic} (h : e.forbidden? t = some d) :
    d.line = t.line ∧ ((∃ n, t.justification = .ax n ∧ d.fault = .axiomForbidden n) ∨
      (∀ n, t.justification ≠ .ax n) ∧ ∃ rule, d.fault = .ruleForbidden rule) := by
  unfold forbidden? at h
  split at h
  · next n hn =>
    split at h <;> cases h
    exact ⟨rfl, .inl ⟨n, hn, rfl⟩⟩
  · next hax =>
    split at h <;> cases h
    exact ⟨rfl, .inr ⟨hax, _, rfl⟩⟩

theorem isForbidden_of_forbidden? {d : Diagnostic} (h : e.forbidden? t = some d) :
    IsForbidden t d := by
  obtain ⟨hline, ⟨n, -, hfault⟩ | ⟨-, rule, hfault⟩⟩ := forbidden?_cases h
  · exact ⟨hline, by rw [hfault]; rfl⟩
  · exact ⟨hline, by rw [hfault]; rfl⟩

instance (e : Exercise) (t : Step) : Decidable (e.Allows t) :=
  decidable_of_iff ((e.forbidden? t).isNone = true)
    (Option.isNone_iff_eq_none.trans forbidden?_eq_none_iff)

theorem forbidden_eq_nil_iff : e.forbidden steps = [] ↔ ∀ t ∈ steps, e.Allows t := by
  simp only [forbidden, List.filterMap_eq_nil_iff, forbidden?_eq_none_iff]

/-- The steps that are not allowed are reported one by one, in order. -/
theorem forall₂_forbidden (e : Exercise) (steps : List Step) :
    List.Forall₂ IsForbidden (steps.filter fun t => ¬ e.Allows t) (e.forbidden steps) := by
  induction steps with
  | nil => exact .nil
  | cons t steps ih =>
    unfold forbidden
    cases h : e.forbidden? t with
    | none =>
      rw [List.filterMap_cons_none h, List.filter_cons_of_neg]
      · exact ih
      · simpa using forbidden?_eq_none_iff.mp h
    | some d =>
      have hnot : ¬ e.Allows t := by
        rw [← forbidden?_eq_none_iff, h]
        simp
      rw [List.filterMap_cons_some h, List.filter_cons_of_pos (by simpa using hnot)]
      exact .cons (isForbidden_of_forbidden? h) ih

/-- An axiom that is not allowed and whose number is too long to be named. -/
def IsUnnamed (e : Exercise) (t : Step) : Prop :=
  ∃ n, t.justification = .ax n ∧ ¬ e.Allows t ∧ n.isShort = false

/-- Only the number of an axiom can be too long. -/
theorem ofFault?_of_forbidden? {d : Diagnostic} (h : e.forbidden? t = some d) :
    Breach.ofFault? d.fault = none ∧ ¬ e.IsUnnamed t ∨
      Breach.ofFault? d.fault = some .oversized ∧ e.IsUnnamed t := by
  have hnot : ¬ e.Allows t := by
    rw [← forbidden?_eq_none_iff, h]
    simp
  obtain ⟨-, ⟨n, hn, hfault⟩ | ⟨hax, rule, hfault⟩⟩ := forbidden?_cases h
  · rw [hfault, Breach.ofFault?]
    cases hshort : n.isShort with
    | true =>
      refine .inl ⟨rfl, ?_⟩
      rintro ⟨m, hm, -, hlong⟩
      cases hn.symm.trans hm
      cases hshort.symm.trans hlong
    | false => exact .inr ⟨rfl, n, hn, hnot, hshort⟩
  · refine .inl ⟨by rw [hfault]; rfl, ?_⟩
    rintro ⟨n, hn, -⟩
    exact hax n hn

section Forbidden

variable {s : Settings} (h : ∃ t ∈ steps, ¬ e.Allows t)

include h

/-- A solution with a step that is not allowed is not checked; it is refused for such steps only. -/
theorem verify_of_forbidden : e.verify s steps = refuse (e.forbidden steps) := by
  have hne : e.forbidden steps ≠ [] := by
    rw [Ne, forbidden_eq_nil_iff]
    push Not
    exact h
  unfold verify
  cases hd : e.forbidden steps with
  | nil => exact absurd hd hne
  | cons d ds => rfl

theorem verify_of_named (hnamed : ∀ t ∈ steps, ¬ e.IsUnnamed t) :
    (e.verify s steps).result = .ok { errors := e.forbidden steps } := by
  have hnone : ((e.forbidden steps).findSome? fun d => Breach.ofFault? d.fault) = none := by
    rw [List.findSome?_eq_none_iff]
    intro d hd
    obtain ⟨t, ht, htd⟩ := List.mem_filterMap.mp hd
    rcases ofFault?_of_forbidden? htd with ⟨hnone, -⟩ | ⟨-, hunnamed⟩
    · exact hnone
    · exact absurd hunnamed (hnamed t ht)
  rw [verify_of_forbidden h, refuse, hnone]
  rfl

theorem verify_of_unnamed (hunnamed : ∃ t ∈ steps, e.IsUnnamed t) :
    (e.verify s steps).result = .error (.breach .oversized) := by
  have hsome : ((e.forbidden steps).findSome? fun d => Breach.ofFault? d.fault) =
      some .oversized := by
    cases hfound : (e.forbidden steps).findSome? fun d => Breach.ofFault? d.fault with
    | some b =>
      obtain ⟨d, hd, hb⟩ := List.exists_of_findSome?_eq_some hfound
      obtain ⟨t, -, htd⟩ := List.mem_filterMap.mp hd
      rcases ofFault?_of_forbidden? htd with ⟨hnone, -⟩ | ⟨hlong, -⟩
      · rw [hb] at hnone
        cases hnone
      · rw [← hb, hlong]
    | none =>
      -- the step that cannot be named would have been found
      obtain ⟨t, ht, n, hn, hnot, hlong⟩ := hunnamed
      rw [List.findSome?_eq_none_iff] at hfound
      cases htd : e.forbidden? t with
      | none => exact absurd (forbidden?_eq_none_iff.mp htd) hnot
      | some d =>
        rcases ofFault?_of_forbidden? htd with ⟨-, hnamed⟩ | ⟨hsome, -⟩
        · exact absurd ⟨n, hn, hnot, hlong⟩ hnamed
        · rw [hfound d (List.mem_filterMap.mpr ⟨t, ht, htd⟩)] at hsome
          cases hsome
  rw [verify_of_forbidden h, refuse, hsome]
  rfl

end Forbidden

/-! ## What is written -/

/-- The formula that a document writes, if it writes one. -/
def reading (maxDepth : Int) (v : Value) : Option Formula :=
  match Formula.ofValue maxDepth v with
  | .ok r => r.toOption
  | .error _ => none

/-- The formulas that the givens write. -/
def premises (maxDepth : Int) (e : Exercise) : List Formula :=
  e.given.filterMap (reading maxDepth)

/-- The formulas that the givens and the steps of a solution write, line by line. -/
def written (maxDepth : Int) (e : Exercise) (steps : List Step) : Lines :=
  e.given.map (reading maxDepth) ++ steps.map (Step.written maxDepth)

variable {s : Settings} {maxDepth : Int}

/-- Givens that are all texts or lists of signs are read one by one. -/
theorem map_toOption_of_readings {vs : List Value} {rs : List Reading}
    (h : readings maxDepth vs = (rs, none)) :
    rs.map Except.toOption = vs.map (reading maxDepth) := by
  induction vs generalizing rs with
  | nil =>
    cases h
    rfl
  | cons v vs ih =>
    unfold readings at h
    cases hv : Formula.ofValue maxDepth v with
    | error f => simp [hv] at h
    | ok r =>
      simp only [hv, Prod.mk.injEq] at h
      obtain ⟨rfl, hnone⟩ := h
      rw [List.map_cons, List.map_cons, ih (Prod.ext rfl hnone), reading, hv]

section Readings

variable {rs : List Reading} (h : readings maxDepth e.given = (rs, none)) (goal : Option Reading)

include h

theorem attempt_premises : Attempt.premises ⟨rs, steps, goal⟩ = e.premises maxDepth := by
  show rs.filterMap Except.toOption = e.given.filterMap (reading maxDepth)
  calc rs.filterMap Except.toOption
      = (rs.map Except.toOption).filterMap (fun o => o) := by
        rw [List.filterMap_map]
        rfl
    _ = (e.given.map (reading maxDepth)).filterMap (fun o => o) := by
        rw [map_toOption_of_readings h]
    _ = e.given.filterMap (reading maxDepth) := by
        rw [List.filterMap_map]
        rfl

theorem attempt_written :
    Attempt.written maxDepth ⟨rs, steps, goal⟩ = e.written maxDepth steps := by
  rw [Attempt.written, map_toOption_of_readings h, written]

end Readings

/-! ## Verdicts on allowed solutions -/

/-- An outcome that fails in the end has no result. -/
theorem result_bind_fail {α β : Type} (x : Outcome α) (f : Failure) (b : β) :
    (x >>= fun _ => (Outcome.fail f : Outcome β)).result ≠ .ok b := by
  show (Outcome.bind x fun _ => Outcome.fail f).result ≠ .ok b
  unfold Outcome.bind
  cases x.result <;> simp [Outcome.fail]

/-- A search for a contradiction that returns returns what is found. -/
theorem eq_refute_of_refuteOf {breach? : Checked → Option Breach} {a : Attempt} {v : Verdict}
    (h : (Outcome.refuteOf breach? s a).result = .ok v) : v = a.refute s.maxDepth := by
  obtain ⟨-, hv⟩ := Outcome.whenCheckable_eq_ok_iff.mp h
  split at hv <;> cases hv
  rfl

/-- A solution of allowed steps has a verdict only if all givens are texts or lists of signs. It is
that of the search for a contradiction, or else of the check against the goal, if there is one. -/
theorem verify_eq_ok_cases {v : Verdict} (hallowed : e.forbidden steps = [])
    (h : (e.verify s steps).result = .ok v) :
    ∃ rs, readings s.maxDepth e.given = (rs, none) ∧
      ((e.isRefutation = true ∧ v = Attempt.refute s.maxDepth ⟨rs, steps, none⟩) ∨
        (e.isRefutation = false ∧
          ((e.goal = .null ∧ v = Attempt.check s.maxDepth ⟨rs, steps, none⟩) ∨
            ∃ r, Formula.ofValue s.maxDepth e.goal = .ok r ∧
              v = Attempt.check s.maxDepth ⟨rs, steps, some r⟩))) := by
  unfold verify at h
  simp only [hallowed] at h
  rcases hreadings : readings s.maxDepth e.given with ⟨rs, _ | f⟩
  · refine ⟨rs, rfl, ?_⟩
    simp only [hreadings] at h
    cases hmode : e.isRefutation with
    | true =>
      rw [if_pos hmode] at h
      exact .inl ⟨rfl, eq_refute_of_refuteOf h⟩
    | false =>
      rw [if_neg (by simp [hmode])] at h
      refine .inr ⟨rfl, ?_⟩
      unfold verifyGoal at h
      split at h
      · next hgoal => exact .inl ⟨hgoal, (Outcome.eq_of_checkOf_result h).2⟩
      · split at h
        · next r hr => exact .inr ⟨r, hr, (Outcome.eq_of_checkOf_result h).2⟩
        · exact absurd h (result_bind_fail _ _ _)
  · simp only [hreadings] at h
    exact absurd h (result_bind_fail _ _ _)

/-! ## Accepted solutions -/

/-- The goal of an exercise is the field of its document, and an empty text without one. -/
theorem goal_of_ofValue {data : Value} (h : ofValue data = .ok e) :
    e.goal = (data.field? "goal").getD (.text "") := by
  unfold ofValue at h
  simp only [bind, Except.bind, pure, Except.pure] at h
  split at h
  · cases h
  · split at h
    · -- each field that is read fails by itself, or the exercise is complete
      repeat (split at h; · cases h)
      cases h
      rfl
    · cases h

/-- Only a document that sets its goal to null gives an exercise without a goal. -/
theorem field?_of_goal_eq_null {data : Value} (h : ofValue data = .ok e) (hgoal : e.goal = .null) :
    data.field? "goal" = some .null := by
  rw [goal_of_ofValue h] at hgoal
  cases hfield : data.field? "goal" with
  | none =>
    rw [hfield] at hgoal
    cases hgoal
  | some v =>
    rw [hfield] at hgoal
    exact congrArg some hgoal

/-- The goal of an exercise is a text, or a list of signs, that writes a formula. -/
def SetsGoal (maxDepth : Int) (e : Exercise) (f : Formula) : Prop :=
  (∃ text, e.goal = .text text ∧ Formula.parse maxDepth text = .ok f) ∨
    ∃ signs, e.goal = .list signs ∧ Formula.ofSigns maxDepth signs = .ok (.ok f)

/-- An empty text writes no formula. -/
theorem parse_empty (maxDepth : Int) :
    Formula.parse maxDepth "" = .error (.unexpectedEnd 0) := by
  have hscan : Token.scan "" = .ok [⟨.stop, "", 0⟩] := by
    rw [Token.scan]
    simp [Token.scanFrom]
  rw [Formula.parse, hscan]
  rfl

/-- Nothing but texts and lists of signs write formulas. -/
theorem setsGoal_of_ofValue {f : Formula} (h : Formula.ofValue maxDepth e.goal = .ok (.ok f)) :
    e.SetsGoal maxDepth f := by
  unfold Formula.ofValue at h
  split at h
  · next text hgoal => exact .inl ⟨text, hgoal, Except.ok.inj h⟩
  · next signs hgoal => exact .inr ⟨signs, hgoal, h⟩
  · -- an empty object is read as an empty text
    rw [parse_empty] at h
    cases h
  · cases h
  · cases h

/-- The givens of a solution without faulty lines can all be read. -/
theorem isSome_reading_of_faults {rs : List Reading} {goal : Option Reading}
    (hreadings : readings maxDepth e.given = (rs, none))
    (hfaults : Attempt.faults maxDepth ⟨rs, steps, goal⟩ = []) :
    ∀ v ∈ e.given, (reading maxDepth v).isSome = true := by
  intro v hv
  have hmem : reading maxDepth v ∈ rs.map Except.toOption := by
    rw [map_toOption_of_readings hreadings]
    exact List.mem_map_of_mem hv
  obtain ⟨r, hr, hrv⟩ := List.mem_map.mp hmem
  obtain ⟨g, rfl⟩ := (Attempt.faults_eq_nil_iff.mp hfaults).1 r hr
  rw [← hrv]
  rfl

/-- The givens are never all true. -/
def IsContradictory (maxDepth : Int) (e : Exercise) : Prop :=
  ¬ ∃ w : Valuation, ∀ f ∈ e.premises maxDepth, f.evaluate w = .ok true

theorem isContradictory_of_refute {rs : List Reading} {goal : Option Reading}
    (hreadings : readings maxDepth e.given = (rs, none))
    (hok : (Attempt.refute maxDepth ⟨rs, steps, goal⟩).ok = true) : e.IsContradictory maxDepth := by
  rintro ⟨w, hw⟩
  refine Attempt.not_forall_holds_of_refute hok w.total fun f hf => ?_
  rw [attempt_premises hreadings] at hf
  exact Formula.holds_of_evaluate w.agreesWith_total (hw f hf)

/-- A solution ends with the goal, and the goal follows from the givens. -/
def ReachesGoal (maxDepth : Int) (e : Exercise) (steps : List Step) : Prop :=
  ∃ f, e.SetsGoal maxDepth f ∧ (e.written maxDepth steps).getLast? = some (some f) ∧
    f.IsConsequence (e.premises maxDepth)

theorem reachesGoal_of_check {rs : List Reading} {r : Reading}
    (hreadings : readings maxDepth e.given = (rs, none))
    (hr : Formula.ofValue maxDepth e.goal = .ok r)
    (hok : (Attempt.check maxDepth ⟨rs, steps, some r⟩).ok = true) :
    e.ReachesGoal maxDepth steps := by
  obtain ⟨hfaults, hgoal⟩ := Attempt.check_ok_iff.mp hok
  obtain ⟨f, rfl, hlast⟩ := Attempt.goalFault?_eq_none_iff.mp hgoal r rfl
  refine ⟨f, setsGoal_of_ofValue hr, ?_, ?_⟩
  · rwa [← attempt_written hreadings (some (.ok f))]
  · rw [← attempt_premises hreadings (some (.ok f))]
    exact Attempt.isConsequence_of_getLast? hfaults (by rwa [Attempt.lines_eq_written])

/-- Accepted solutions solve their exercise. All their steps are allowed, and all givens can be
read. If a contradiction is asked for, the givens are never all true; if not, the solution ends with
the goal, which follows from the givens, unless the document sets the goal to null. A solution with
steps that are not allowed is refused with one diagnostic for each of them, in order, and nothing
else, unless one of them is an axiom whose number has too many digits to be named. -/
theorem verify_sound (s : Settings) {data : Value} {e : Exercise} (he : ofValue data = .ok e)
    (steps : List Step) :
    (∀ v, (e.verify s steps).result = .ok v → v.ok = true →
      (∀ t ∈ steps, e.Allows t) ∧ (∀ g ∈ e.given, (reading s.maxDepth g).isSome = true) ∧
      ((e.isRefutation = true ∧ e.IsContradictory s.maxDepth) ∨
        (e.isRefutation = false ∧
          (data.field? "goal" = some .null ∨ e.ReachesGoal s.maxDepth steps)))) ∧
    ((∃ t ∈ steps, ¬ e.Allows t) →
      ((∀ t ∈ steps, ¬ e.IsUnnamed t) → ∃ v, (e.verify s steps).result = .ok v ∧
        List.Forall₂ IsForbidden (steps.filter fun t => ¬ e.Allows t) v.errors) ∧
      ((∃ t ∈ steps, e.IsUnnamed t) →
        (e.verify s steps).result = .error (.breach .oversized))) := by
  refine ⟨fun v hv hok => ?_, fun h => ⟨fun hnamed => ⟨_, verify_of_named h hnamed,
    forall₂_forbidden e steps⟩, verify_of_unnamed h⟩⟩
  have hallowed : e.forbidden steps = [] := by
    by_contra hne
    -- a verdict on steps that are not allowed has errors
    have hnot : ∃ t ∈ steps, ¬ e.Allows t := by
      rw [forbidden_eq_nil_iff] at hne
      push Not at hne
      exact hne
    by_cases hunnamed : ∃ t ∈ steps, e.IsUnnamed t
    · rw [verify_of_unnamed hnot hunnamed] at hv
      cases hv
    · push Not at hunnamed
      rw [verify_of_named hnot hunnamed] at hv
      cases hv
      exact hne (List.isEmpty_iff.mp hok)
  refine ⟨forbidden_eq_nil_iff.mp hallowed, ?_⟩
  obtain ⟨rs, hreadings, ⟨hmode, rfl⟩ | ⟨hmode, ⟨hgoal, rfl⟩ | ⟨r, hr, rfl⟩⟩⟩ :=
    verify_eq_ok_cases hallowed hv
  · exact ⟨isSome_reading_of_faults hreadings (Attempt.refute_ok_iff.mp hok).1,
      .inl ⟨hmode, isContradictory_of_refute hreadings hok⟩⟩
  · exact ⟨isSome_reading_of_faults hreadings (Attempt.check_ok_iff.mp hok).1,
      .inr ⟨hmode, .inl (field?_of_goal_eq_null he hgoal)⟩⟩
  · exact ⟨isSome_reading_of_faults hreadings (Attempt.check_ok_iff.mp hok).1,
      .inr ⟨hmode, .inr (reachesGoal_of_check hreadings hr hok)⟩⟩

/-- An exercise to be solved by modus ponens alone. -/
def detaching : Exercise where
  id := "detach"
  title := "detach"
  goal := .text "B"
  given := [.text "A", .text "A -> B"]
  axioms := []

theorem ofValue_detaching :
    ofValue (.object [("id", .text "detach"), ("goal", .text "B"),
      ("given", .list [.text "A", .text "A -> B"]),
      ("allowed", .object [("axioms", .list [])])]) = .ok detaching :=
  rfl

/-- An exercise that asks for a contradiction. -/
def contradicting : Exercise where
  id := "contradict"
  title := "contradict"
  given := [.text "A", .text "~A"]
  goalMode := .text "contradiction"

theorem ofValue_contradicting :
    ofValue (.object [("id", .text "contradict"), ("goalMode", .text "contradiction"),
      ("given", .list [.text "A", .text "~A"])]) = .ok contradicting :=
  rfl

/-- Whether a solution is accepted. -/
def accepts (s : Settings) (e : Exercise) (steps : List Step) : Bool :=
  (e.verify s steps).result.toOption.any Verdict.ok

theorem exists_of_accepts (h : e.accepts s steps = true) :
    ∃ v, (e.verify s steps).result = .ok v ∧ v.ok = true := by
  unfold accepts at h
  cases hv : (e.verify s steps).result with
  | error f =>
    rw [hv] at h
    cases h
  | ok v =>
    rw [hv] at h
    exact ⟨v, rfl, h⟩

theorem verify_sound_samples :
    detaching.ReachesGoal 100 [⟨3, "B", .mp (.int 1) (.int 2)⟩] ∧
    contradicting.IsContradictory 100 ∧
    ∃ v, (detaching.verify {} [⟨3, "B", .mp (.int 1) (.int 2)⟩,
        ⟨4, "A -> B -> A", .ax (.int 1)⟩]).result = .ok v ∧
      List.Forall₂ IsForbidden [⟨4, "A -> B -> A", .ax (.int 1)⟩] v.errors := by
  refine ⟨?_, ?_, ?_⟩
  · obtain ⟨v, hv, hok⟩ := exists_of_accepts
      (show accepts {} detaching [⟨3, "B", .mp (.int 1) (.int 2)⟩] = true by decide +kernel)
    obtain ⟨-, -, ⟨hmode, -⟩ | ⟨-, hnull | hgoal⟩⟩ :=
      (verify_sound {} ofValue_detaching _).1 v hv hok
    · cases hmode
    · cases hnull
    · exact hgoal
  · obtain ⟨v, hv, hok⟩ := exists_of_accepts
      (show accepts {} contradicting [] = true by decide +kernel)
    obtain ⟨-, -, ⟨-, h⟩ | ⟨hmode, -⟩⟩ := (verify_sound {} ofValue_contradicting _).1 v hv hok
    · exact h
    · cases hmode
  · refine ((verify_sound {} ofValue_detaching _).2
      ⟨_, List.mem_cons_of_mem _ List.mem_cons_self, by decide⟩).1 ?_
    rintro t ht ⟨n, hn, -, hlong⟩
    rcases List.mem_pair.mp ht with rfl | rfl
    · cases hn
    · cases hn
      exact absurd hlong (by decide +kernel)

/-- An exercise whose document sets the goal to null. -/
def goalless : Exercise where
  id := "x"
  title := "x"
  goal := .null

/-- An exercise with a goal of null accepts the empty solution, which reaches nothing. -/
theorem verify_goalless :
    ofValue (.object [("id", .text "x"), ("goal", .null)]) = .ok goalless ∧
      goalless.isRefutation = false ∧
      (∃ v, (goalless.verify {} []).result = .ok v ∧ v.ok = true) ∧
      ¬ goalless.ReachesGoal 100 [] := by
  refine ⟨rfl, rfl, exists_of_accepts (by decide +kernel), ?_⟩
  rintro ⟨f, ⟨text, htext, -⟩ | ⟨signs, hsigns, -⟩, -⟩
  · cases htext
  · cases hsigns

end Exercise

end Propositional
