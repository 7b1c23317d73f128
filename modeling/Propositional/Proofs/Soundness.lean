import Propositional.Proofs.Derivation

/-!
# Soundness of the checker

A line is clean if it has no fault and all lines that it cites, and those that they cite, and so
on, are clean. Faulty lines keep their places and may be cited, so only clean lines count: a clean
line is true wherever all givens that could be read are true. In an accepted proof all lines are
clean, so its goal is a consequence of its givens.

## Main definitions

* `Clean`: lines that rest on no fault
* `Attempt.premises`, `Proof.premises`: the givens that can be read

## Main results

* `Attempt.holds_of_clean`: clean lines are true where the premises are
* `Proof.check_sound`: clean lines and accepted goals are consequences of the givens
-/

namespace Propositional

/-- A line, counted from zero, rests on no fault: it has none, and all lines that it cites rest on
none. -/
inductive Clean (cs : List Checked) : Nat → Prop
  | intro {k : Nat} {c : Checked} (hc : cs[k]? = some c) (hf : c.fault = none)
      (hcited : ∀ j, c.justification = some j → ∀ n ∈ j.references, ∀ i : Nat,
        n.wholeNumber? = some (i + 1 : Int) → Clean cs i) : Clean cs k

namespace Attempt

/-- The givens that can be read. -/
def premises (a : Attempt) : List Formula :=
  a.given.filterMap Except.toOption

variable {maxDepth : Int} {a : Attempt}

/-- A given that can be read is clean. -/
theorem clean_given {k : Nat} {r : Reading} (hr : a.given[k]? = some r)
    (hok : r.toOption.isSome = true) : Clean (a.derive maxDepth) k := by
  have hlt := (List.getElem?_eq_some_iff.mp hr).1
  have hc : (a.derive maxDepth)[k]? = some (checkGiven (1 + k) r) := by
    rw [getElem?_derive_given hlt, hr]
    rfl
  refine .intro hc ?_ fun j hj => ?_
  · cases r with
    | error e => cases hok
    | ok f => rfl
  · rw [checkGiven_justification] at hj
    cases hj

/-- A line without fault cites only lines before it. -/
theorem lt_of_reference {k i : Nat} {c : Checked} {j : Justification} {n : Value}
    (hc : (a.derive maxDepth)[k]? = some c) (hf : c.fault = none) (hj : c.justification = some j)
    (hn : n ∈ j.references) (hi : n.wholeNumber? = some (i + 1 : Int)) : i < k := by
  rcases getElem?_derive_cases hc with ⟨r, hr, rfl⟩ | ⟨m, s, rfl, hs, rfl⟩
  · rw [checkGiven_justification] at hj
    cases hj
  · rw [checkStep_justification] at hj
    cases hj
    obtain ⟨F, -, hF⟩ := checkStep_fault_eq_none_iff.mp hf
    obtain ⟨f, i', hi', hget⟩ := hF.exists_cites hn
    have hlt := (List.getElem?_eq_some_iff.mp hget).1
    rw [hi, Option.some.injEq] at hi'
    rw [List.length_take] at hlt
    omega

/-- Where no line has a fault all lines are clean. -/
theorem clean_of_faults_eq_nil (h : a.faults maxDepth = []) {k : Nat}
    (hk : k < (a.derive maxDepth).length) : Clean (a.derive maxDepth) k := by
  -- by induction on the number of the line, since citations go back
  induction k using Nat.strongRecOn with
  | ind k ih =>
    have hc := List.getElem?_eq_getElem hk
    have hf := faults_eq_nil_iff_forall.mp h k _ hc
    refine .intro hc hf fun j hj n hn i hi => ?_
    have hik := lt_of_reference hc hf hj hn hi
    exact ih i hik (Nat.lt_trans hik hk)

/-- Clean lines hold formulas that are true wherever the premises are. -/
theorem holds_of_clean {k : Nat} (h : Clean (a.derive maxDepth) k) :
    ∃ f, (a.written maxDepth)[k]? = some (some f) ∧
      ∀ w : String → Bool, (∀ g ∈ a.premises, g.holds w = true) → f.holds w = true := by
  induction h with
  | @intro k c hc hf hcited ih =>
    have hk : (a.written maxDepth)[k]? = some c.formula := by
      rw [← lines_eq_written, lines, List.getElem?_map, hc]
      rfl
    rw [hk]
    rcases getElem?_derive_cases hc with ⟨r, hr, rfl⟩ | ⟨i, s, rfl, hs, rfl⟩
    · obtain ⟨f, rfl⟩ := checkGiven_fault_eq_none_iff.mp hf
      have hmem : f ∈ a.premises := List.mem_filterMap.mpr ⟨_, List.mem_of_getElem? hr, rfl⟩
      exact ⟨f, rfl, fun w hw => hw f hmem⟩
    · obtain ⟨F, hp, hF⟩ := checkStep_fault_eq_none_iff.mp hf
      refine ⟨F, by rw [checkStep_formula, Step.written, hp]; rfl, fun w hw => hF.holds ?_⟩
      -- a cited line stands before the step, so it is the line that the induction speaks of
      rintro n hn f ⟨m, hm, hf⟩
      obtain ⟨g, hg, hgw⟩ := ih s.justification (checkStep_justification _ _ s) n hn m hm
      rw [List.getElem?_take] at hf
      split at hf
      · rw [hg] at hf
        cases hf
        exact hgw w hw
      · cases hf

/-- Clean lines hold consequences of the premises. -/
theorem isConsequence_of_clean {k : Nat} (h : Clean (a.derive maxDepth) k) :
    ∃ f, (a.lines maxDepth)[k]? = some (some f) ∧ f.IsConsequence a.premises := by
  obtain ⟨f, hf, hw⟩ := holds_of_clean h
  rw [lines_eq_written]
  exact ⟨f, hf, Formula.isConsequence_of_holds hw⟩

/-- The last line of an attempt without faults is a consequence of the premises. -/
theorem isConsequence_of_getLast? (h : a.faults maxDepth = []) {f : Formula}
    (hf : (a.lines maxDepth).getLast? = some (some f)) : f.IsConsequence a.premises := by
  rw [List.getLast?_eq_getElem?] at hf
  have hlt := (List.getElem?_eq_some_iff.mp hf).1
  rw [lines, List.length_map] at hlt
  obtain ⟨g, hg, hcons⟩ := isConsequence_of_clean (clean_of_faults_eq_nil h hlt)
  rw [lines, List.length_map] at hf
  rw [lines, hf] at hg
  cases hg
  exact hcons

end Attempt

namespace Proof

/-- The givens that can be read. -/
def premises (maxDepth : Int) (p : Proof) : List Formula :=
  p.given.filterMap fun t => (Formula.parse maxDepth t).toOption

theorem attempt_premises (maxDepth : Int) (p : Proof) :
    (p.attempt maxDepth).premises = p.premises maxDepth := by
  rw [Attempt.premises, attempt, List.filterMap_map]
  rfl

/-- Every clean line holds a formula that is a consequence of the givens that can be read. If a
proof with a goal is accepted, then all givens can be read and the goal is a consequence of
them. -/
theorem check_sound (maxDepth : Int) (p : Proof) :
    (∀ k, Clean (p.derive maxDepth) k →
      ∃ f, (p.lines maxDepth)[k]? = some (some f) ∧ f.IsConsequence (p.premises maxDepth)) ∧
    ((p.check maxDepth).ok = true → ∀ goal, p.goal = some goal →
      (∀ t ∈ p.given, ∃ g, Formula.parse maxDepth t = .ok g) ∧
      ∃ target, Formula.parse maxDepth goal = .ok target ∧
        target.IsConsequence (p.premises maxDepth)) := by
  rw [← attempt_premises]
  refine ⟨fun k hk => Attempt.isConsequence_of_clean hk, fun hok goal hgoal => ?_⟩
  obtain ⟨hfaults, hgoalFault⟩ := Attempt.check_ok_iff.mp hok
  refine ⟨fun t ht => ?_, ?_⟩
  · exact (Attempt.faults_eq_nil_iff.mp hfaults).1 _ (List.mem_map_of_mem ht)
  · obtain ⟨target, htarget, hlast⟩ := Attempt.goalFault?_eq_none_iff.mp hgoalFault
      (Formula.parse maxDepth goal) (by rw [attempt, hgoal]; rfl)
    rw [← Attempt.lines_eq_written] at hlast
    exact ⟨target, htarget, Attempt.isConsequence_of_getLast? hfaults hlast⟩

/-- A proof with a given that cannot be read and a step that does not follow. -/
def faulty : Proof :=
  { given := ["A", "A->", "A->B"],
    steps := [⟨4, "C", .mp (.int 1) (.int 3)⟩, ⟨5, "B", .mp (.int 1) (.int 3)⟩] }

/-- A proof without faults. -/
def faultless : Proof :=
  { given := ["A", "A->B"], steps := [⟨3, "B", .mp (.int 1) (.int 2)⟩], goal := some "B" }

theorem clean_faulty_last : Clean (faulty.derive 100) 4 := by
  refine .intro (Attempt.getElem?_derive_step 1) ?_ fun j hj n hn i hi => ?_
  · exact Option.isNone_iff_eq_none.mp (by decide +kernel)
  rw [Attempt.checkStep_justification] at hj
  cases hj
  simp only [Justification.references, List.mem_cons, List.not_mem_nil, or_false] at hn
  rcases hn with rfl | rfl
  · obtain rfl : i = 0 := by simp at hi; omega
    exact Attempt.clean_given rfl (by decide +kernel)
  · obtain rfl : i = 2 := by simp at hi; omega
    exact Attempt.clean_given rfl (by decide +kernel)

theorem check_sound_samples :
    (∃ f, (faulty.lines 100)[4]? = some (some f) ∧ f.IsConsequence (faulty.premises 100)) ∧
      (∀ t ∈ faultless.given, ∃ g, Formula.parse 100 t = .ok g) ∧
      ∃ target, Formula.parse 100 "B" = .ok target ∧
        target.IsConsequence (faultless.premises 100) :=
  ⟨(check_sound 100 faulty).1 4 clean_faulty_last,
    (check_sound 100 faultless).2 (by decide +kernel) "B" rfl⟩

end Proof

end Propositional
