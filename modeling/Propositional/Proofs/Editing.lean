import Mathlib.Logic.Relation
import Propositional.Editor
import Propositional.Proofs.Diagnosis
import Propositional.Proofs.Orders

/-!
# Writing proofs line by line

An editor infers the next line of a draft from the lines so far, or takes an instance of an axiom,
and writes it down as text. The checker reads that text again. Since what was inferred follows, has
well-formed names and exceeds the limit on heights by little if at all, its text finds room and is
read back to the very formula, as long as that keeps to the limit. So a draft without faults stays
without faults however often it grows. Only adjunction and axioms can exceed the limit, and then the
new line alone is at fault.

## Main definitions

* `Draft.Offers`: what the editor infers from a draft, or chooses
* `Draft.add`: a draft with a further line
* `Draft.Grows`: a draft with a further line that keeps to the limit

## Main results

* `Justification.follows_of_infer`: what is inferred follows
* `Draft.faults_add`: what a further line adds to the diagnostics
* `Draft.check_of_grows`: drafts grow without faults
-/

namespace Propositional

/-- What is inferred follows by the justification that comes with it, which is no axiom. -/
theorem Justification.follows_of_infer {lines : Lines} {i j : Justification} {F : Formula}
    (h : i.infer lines = .ok (j, F)) : (∀ n, j ≠ .ax n) ∧ Follows lines j F := by
  obtain ⟨⟨c, hc, rfl⟩, -⟩ := infer_cases h
  refine ⟨?_, follows_preferred hc⟩
  rintro n rfl
  cases hc

/-- A formula on a line was read from the text of the line. -/
theorem Attempt.exists_parse_of_cites {maxDepth : Int} {p : Proof} {n : Value} {f : Formula}
    (h : ((p.attempt maxDepth).written maxDepth).Cites n f) :
    ∃ text, Formula.parse maxDepth text = .ok f := by
  obtain ⟨k, -, hk⟩ := h
  rw [Proof.attempt_written] at hk
  exact Proof.exists_parse_of_mem_written (List.mem_of_getElem? hk)

namespace Draft

/-! ## Additions -/

/-- The formulas on the lines of a draft. -/
def lines (maxDepth : Int) (d : Draft) : Lines :=
  (d.proof none).lines maxDepth

/-- What the editor can add to a draft: a formula that is inferred from its lines, with the
justification that comes with it, or an instance of an axiom. -/
inductive Offers (maxDepth : Int) (d : Draft) : Justification → Formula → Prop
  | inferred {i j : Justification} {F : Formula} (h : i.infer (d.lines maxDepth) = .ok (j, F)) :
      Offers maxDepth d j F
  | chosen {n : Value} {parts : Table (Option String)} {F : Formula}
      (h : Hilbert.build maxDepth n parts = .ok F) : Offers maxDepth d (.ax n) F

/-- The step that writes a formula on the line after the lines so far. -/
def stepOf (lines : Lines) (j : Justification) (F : Formula) : Step :=
  { line := lines.length + 1, formula := F.text, justification := j }

/-- A draft with a further line. -/
def add (maxDepth : Int) (d : Draft) (j : Justification) (F : Formula) : Draft :=
  d.push (stepOf (d.lines maxDepth) j F)

/-- A draft grows by a further line that keeps to the limit on heights. -/
inductive Grows (maxDepth : Int) : Draft → Draft → Prop
  | add {d : Draft} {j : Justification} {F : Formula} (h : Offers maxDepth d j F)
      (hF : (F.depth : Int) ≤ maxDepth) : Grows maxDepth d (d.add maxDepth j F)

section Offers

variable {maxDepth : Int} {d : Draft} {j : Justification} {F : Formula}

theorem lines_eq_written : d.lines maxDepth = ((d.proof none).attempt maxDepth).written maxDepth :=
  Attempt.lines_eq_written maxDepth _

theorem Offers.follows (h : Offers maxDepth d j F) : Follows (d.lines maxDepth) j F := by
  cases h with
  | inferred h => exact (Justification.follows_of_infer h).2
  | chosen h => exact Hilbert.follows_of_build _ h

theorem Offers.isNamed (h : Offers maxDepth d j F) : F.IsNamed := by
  cases h with
  | inferred h =>
    obtain ⟨hj, hfollows⟩ := Justification.follows_of_infer h
    intro x hx
    obtain ⟨n, -, g, hg, hxg⟩ := hfollows.exists_mem_leaves hj x hx
    rw [lines_eq_written] at hg
    obtain ⟨text, htext⟩ := Attempt.exists_parse_of_cites hg
    exact Formula.isNamed_of_parse htext x hxg
  | chosen h => exact Hilbert.isNamed_of_build h

theorem Offers.height_le (h : Offers maxDepth d j F) : F.height ≤ 5 + maxDepth.toNat := by
  cases h with
  | inferred h =>
    obtain ⟨hj, hfollows⟩ := Justification.follows_of_infer h
    have hlines : ∀ n ∈ j.references, ∀ g, (d.lines maxDepth).Cites n g →
        g.height ≤ maxDepth.toNat := by
      intro n _ g hg
      rw [lines_eq_written] at hg
      obtain ⟨text, htext⟩ := Attempt.exists_parse_of_cites hg
      have hle := Formula.height_le_of_parse htext
      omega
    have hle := hfollows.height_le_succ hj hlines
    omega
  | chosen h =>
    have hle := Hilbert.height_le_of_build h
    omega

/-- What is added is no higher than a line that it cites, unless it is an adjunction or an
axiom. -/
theorem Offers.exists_depth_le (h : Offers maxDepth d j F) (hax : ∀ n, j ≠ .ax n)
    (hadj : ∀ a b, j ≠ .adj a b) :
    ∃ n ∈ j.references, ∃ g, (d.lines maxDepth).Cites n g ∧ F.depth ≤ g.depth := by
  obtain ⟨n, hn, g, hg, hle⟩ := h.follows.exists_height_le hax hadj
  refine ⟨n, hn, g, hg, ?_⟩
  rwa [Formula.depth_eq_height, Formula.depth_eq_height]

/-- What is added is higher than the limit only if it is an adjunction or an axiom. -/
theorem Offers.adj_or_ax (h : Offers maxDepth d j F) (hlt : maxDepth < F.depth) :
    (∃ a b, j = .adj a b) ∨ ∃ n, j = .ax n := by
  by_cases hadj : ∃ a b, j = .adj a b
  · exact .inl hadj
  by_cases hax : ∃ n, j = .ax n
  · exact .inr hax
  -- otherwise a cited line would be as high, but it was read
  obtain ⟨n, -, g, hg, hle⟩ := h.exists_depth_le (fun n hn => hax ⟨n, hn⟩)
    fun a b hab => hadj ⟨a, b, hab⟩
  rw [lines_eq_written] at hg
  obtain ⟨text, htext⟩ := Attempt.exists_parse_of_cites hg
  have hlimit := Formula.height_le_of_parse htext
  rw [← Formula.depth_eq_height] at hlimit
  omega

variable (hmax : maxDepth ≤ ({} : Settings).maxDepth)

include hmax

/-- There is room to read what is added, and more than enough to write it. -/
theorem Offers.height_le_room (h : Offers maxDepth d j F) : 7 * F.height ≤ Reader.capacity := by
  have hle := h.height_le
  have hdefault : maxDepth ≤ 100 := hmax
  rw [Reader.capacity]
  omega

theorem Offers.fitsText (h : Offers maxDepth d j F) : F.fitsText = true := by
  have hroom := h.height_le_room hmax
  rw [Formula.fitsText, decide_eq_true_eq, Formula.depth_eq_height]
  omega

/-- What is added is read back unless it is higher than the limit. -/
theorem Offers.parse_eq (h : Offers maxDepth d j F) :
    Formula.parse maxDepth F.text =
      if maxDepth < F.depth then .error .tooDeep else .ok F :=
  Formula.parse_text_eq maxDepth h.isNamed (h.height_le_room hmax)

end Offers

/-! ## Growth -/

section Growth

variable {maxDepth : Int} {d : Draft} {j : Justification} {F : Formula}

theorem check_proof_none_ok_iff :
    ((d.proof none).check maxDepth).ok = true ↔
      ((d.proof none).attempt maxDepth).faults maxDepth = [] := by
  rw [Proof.check, Attempt.check_ok_iff]
  exact and_iff_left rfl

/-- What a further line adds to the diagnostics: nothing if it keeps to the limit. -/
theorem faults_add (hmax : maxDepth ≤ ({} : Settings).maxDepth) (h : Offers maxDepth d j F) :
    (((d.add maxDepth j F).proof none).attempt maxDepth).faults maxDepth =
      ((d.proof none).attempt maxDepth).faults maxDepth ++
        if maxDepth < F.depth then
          [{ line := (d.lines maxDepth).length + 1, fault := .text .tooDeep }]
        else [] := by
  have hparse := h.parse_eq hmax
  have hconcat := @Attempt.faults_concat maxDepth ((d.proof none).attempt maxDepth)
    (stepOf (d.lines maxDepth) j F)
  rw [← lines_eq_written] at hconcat
  refine hconcat.trans (congrArg (_ ++ ·) ?_)
  -- the new line is too high to be read back, or is read back and follows
  by_cases hlt : maxDepth < F.depth
  · rw [if_pos hlt] at hparse ⊢
    simp only [Attempt.checkStep, stepOf, hparse]
    rfl
  · rw [if_neg hlt] at hparse ⊢
    have hfault : (Attempt.checkStep maxDepth (d.lines maxDepth)
        (stepOf (d.lines maxDepth) j F)).fault = none :=
      Attempt.checkStep_fault_eq_none_iff.mpr ⟨F, hparse, h.follows⟩
    rw [Checked.diagnostic?, hfault]
    rfl

/-- A further line holds what was added, if that keeps to the limit. -/
theorem lines_add (hmax : maxDepth ≤ ({} : Settings).maxDepth) (h : Offers maxDepth d j F)
    (hF : (F.depth : Int) ≤ maxDepth) :
    (d.add maxDepth j F).lines maxDepth = d.lines maxDepth ++ [some F] := by
  have hparse := h.parse_eq hmax
  rw [if_neg (Int.not_lt.mpr hF)] at hparse
  have hwritten : (stepOf (d.lines maxDepth) j F).written maxDepth = some F := by
    rw [Step.written, stepOf, hparse]
    rfl
  rw [lines_eq_written, lines_eq_written]
  simp only [Attempt.written, Proof.attempt, proof, add, push, List.map_append, List.map_cons,
    List.map_nil, hwritten, List.append_assoc]

/-- A draft without faults grows to one without faults. -/
theorem Grows.faults_eq_nil (hmax : maxDepth ≤ ({} : Settings).maxDepth) {e : Draft}
    (h : Grows maxDepth d e) (hd : ((d.proof none).attempt maxDepth).faults maxDepth = []) :
    ((e.proof none).attempt maxDepth).faults maxDepth = [] := by
  cases h with
  | add h hF => rw [faults_add hmax h, hd, if_neg (Int.not_lt.mpr hF), List.append_nil]

/-- However often a draft without faults grows, it stays without faults. -/
theorem faults_eq_nil_of_grows (hmax : maxDepth ≤ ({} : Settings).maxDepth) {e : Draft}
    (h : Relation.ReflTransGen (Grows maxDepth) d e)
    (hd : ((d.proof none).attempt maxDepth).faults maxDepth = []) :
    ((e.proof none).attempt maxDepth).faults maxDepth = [] := by
  induction h with
  | refl => exact hd
  | tail _ hgrows ih => exact hgrows.faults_eq_nil hmax ih

/-- What was added is a goal that is reached, if it keeps to the limit. -/
theorem goalFault?_add (hmax : maxDepth ≤ ({} : Settings).maxDepth) (h : Offers maxDepth d j F)
    (hF : (F.depth : Int) ≤ maxDepth) :
    (((d.add maxDepth j F).proof (some F.text)).attempt maxDepth).goalFault? maxDepth = none := by
  refine Attempt.goalFault?_eq_none_iff.mpr fun r hr => ?_
  have hparse := h.parse_eq hmax
  rw [if_neg (Int.not_lt.mpr hF)] at hparse
  obtain rfl : Formula.parse maxDepth F.text = r := Option.some.inj hr
  have hlines := lines_add hmax h hF
  rw [lines_eq_written] at hlines
  exact ⟨F, hparse, by rw [← List.getLast?_concat (a := some F)]; exact congrArg _ hlines⟩

end Growth

/-! ## The editor -/

/-- What is offered is what the editor writes down, by one of its two ways to add a line. -/
theorem Offers.exists_result {s : Settings} {d : Draft} {j : Justification} {F : Formula}
    (hs : s.maxDepth ≤ ({} : Settings).maxDepth) (h : Offers s.maxDepth d j F) :
    (∃ i, (infer (d.lines s.maxDepth) i).result = .ok (stepOf (d.lines s.maxDepth) j F)) ∨
      ∃ n parts, (instantiate s (d.lines s.maxDepth) n parts).result =
        .ok (stepOf (d.lines s.maxDepth) j F) := by
  have hnext : (nextStep (d.lines s.maxDepth) F j).result =
      .ok (stepOf (d.lines s.maxDepth) j F) := by
    simp only [nextStep, Outcome.write, Outcome.within, h.fitsText hs, if_true]
    rfl
  cases h with
  | @inferred i j F h =>
    have hlow := Attempt.keepTo_lines ((d.proof none).keepsTo_attempt s.maxDepth)
    have hroom := Outcome.room_of_le_default hs
    have hinfer : Outcome.infer (d.lines s.maxDepth) i = .ofRule (i.infer (d.lines s.maxDepth)) :=
      Outcome.infer_eq hlow (by rw [Reader.capacity] at *; omega) i
    refine .inl ⟨i, ?_⟩
    rw [infer, hinfer, h, ← hnext]
    rfl
  | @chosen n parts F h =>
    refine .inr ⟨n, parts, ?_⟩
    rw [instantiate, Outcome.build, h, ← hnext]
    rfl

/-- The check of a proof returns the faults of its lines, if it has no goal or reaches it and all of
them are reported. -/
theorem check_result_of_faults {s : Settings} (hs : s.maxDepth ≤ ({} : Settings).maxDepth)
    {p : Proof} {errors : List Diagnostic}
    (hfaults : (p.attempt s.maxDepth).faults s.maxDepth = errors)
    (hreported : ∀ d ∈ errors, Breach.ofFault? d.fault = none)
    (hgoal : (p.attempt s.maxDepth).goalFault? s.maxDepth = none) :
    (Outcome.check s p).result = .ok { errors } := by
  have hread : ∀ goal ∈ p.goal, ∀ e, Formula.parse s.maxDepth goal = .error e →
      e.isPastEnd = false := by
    intro goal hmem e he
    obtain ⟨target, htarget, -⟩ := Attempt.goalFault?_eq_none_iff.mp hgoal _
      (congrArg (Option.map _) hmem)
    rw [he] at htarget
    cases htarget
  rw [Outcome.check_result (Outcome.room_of_le_default hs) (by rwa [hfaults]) hread, Proof.check,
    Attempt.check, Attempt.missedGoal, hgoal, hfaults, List.append_nil]

/-- However often a draft without faults grows by lines that the editor infers or chooses, the check
of its proof returns and finds nothing wrong. A further line that keeps to the limit is accepted,
too, comes behind the lines so far and is a goal that is reached. No line is higher than all those
it cites unless it is an adjunction or an axiom, and only such a line may exceed the limit, with one
diagnostic for its text. -/
theorem check_of_grows (s : Settings) (hs : s.maxDepth ≤ ({} : Settings).maxDepth) (d₀ d : Draft)
    (h₀ : ((d₀.proof none).check s.maxDepth).ok = true)
    (hgrows : Relation.ReflTransGen (Grows s.maxDepth) d₀ d) :
    (Outcome.check s (d.proof none)).result = .ok { errors := [] } ∧
    ∀ j F, Offers s.maxDepth d j F →
      ((∃ i, (infer (d.lines s.maxDepth) i).result = .ok (stepOf (d.lines s.maxDepth) j F)) ∨
        ∃ n parts, (instantiate s (d.lines s.maxDepth) n parts).result =
          .ok (stepOf (d.lines s.maxDepth) j F)) ∧
      ((F.depth : Int) ≤ s.maxDepth →
        (Outcome.check s ((d.add s.maxDepth j F).proof none)).result = .ok { errors := [] } ∧
        (Outcome.lines s ((d.add s.maxDepth j F).proof none)).result =
          .ok (d.lines s.maxDepth ++ [some F]) ∧
        (Outcome.check s ((d.add s.maxDepth j F).proof (some F.text))).result =
          .ok { errors := [] }) ∧
      ((∀ n, j ≠ .ax n) → (∀ a b, j ≠ .adj a b) →
        ∃ n ∈ j.references, ∃ g, (d.lines s.maxDepth).Cites n g ∧ F.depth ≤ g.depth) ∧
      (s.maxDepth < F.depth →
        ((∃ a b, j = .adj a b) ∨ ∃ n, j = .ax n) ∧
        (Outcome.check s ((d.add s.maxDepth j F).proof none)).result =
          .ok { errors :=
            [{ line := (d.lines s.maxDepth).length + 1, fault := .text .tooDeep }] }) := by
  have hd := faults_eq_nil_of_grows hs hgrows (check_proof_none_ok_iff.mp h₀)
  refine ⟨check_result_of_faults hs hd nofun rfl, fun j F hF => ?_⟩
  refine ⟨hF.exists_result hs, fun hle => ?_, hF.exists_depth_le, fun hlt => ?_⟩
  · have hadd := (Grows.add hF hle).faults_eq_nil hs hd
    refine ⟨check_result_of_faults hs hadd nofun rfl, ?_,
      check_result_of_faults hs hadd nofun (goalFault?_add hs hF hle)⟩
    rw [← lines_add hs hF hle]
    exact Outcome.lines_result (Outcome.room_of_le_default hs) (by rw [hadd]; exact nofun)
  · have hadd := faults_add hs hF
    rw [hd, if_pos hlt, List.nil_append] at hadd
    exact ⟨hF.adj_or_ax hlt,
      check_result_of_faults hs hadd (List.forall_mem_singleton.mpr rfl) rfl⟩

/-- A draft with two givens. -/
def sample : Draft :=
  { given := ["A", "A->B"] }

/-- The draft with the line that modus ponens yields; the citations were exchanged. -/
def grownSample : Draft :=
  sample.add 100 (.mp (.int 1) (.int 2)) (.var "B")

theorem grows_sample : Relation.ReflTransGen (Grows 100) sample grownSample := by
  have hlines : sample.lines 100 = [some (.var "A"), some (.imp (.var "A") (.var "B"))] := by
    decide +kernel
  have hinfer : Justification.infer (sample.lines 100) (.mp (.int 2) (.int 1)) =
      .ok (.mp (.int 1) (.int 2), .var "B") := by
    rw [hlines]
    rfl
  refine .single (.add (.inferred hinfer) ?_)
  rw [Formula.depth_eq_height]
  decide

theorem offers_adjunction :
    Offers 1 { given := ["A"] } (.adj (.int 1) (.int 1)) (.and (.var "A") (.var "A")) := by
  have hlines : lines 1 { given := ["A"] } = [some (.var "A")] := by
    decide +kernel
  refine .inferred (i := .adj (.int 1) (.int 1)) ?_
  rw [hlines]
  rfl

theorem check_of_grows_samples :
    (Outcome.check {} (grownSample.proof none)).result = .ok { errors := [] } ∧
    (Outcome.check { maxDepth := 1 }
      ((add 1 { given := ["A"] } (.adj (.int 1) (.int 1)) (.and (.var "A") (.var "A"))).proof
        none)).result = .ok { errors := [{ line := 2, fault := .text .tooDeep }] } := by
  refine ⟨(check_of_grows {} (by decide) sample grownSample (by decide +kernel) grows_sample).1, ?_⟩
  have hoffer := (check_of_grows { maxDepth := 1 } (by decide) { given := ["A"] }
    { given := ["A"] } (by decide +kernel) .refl).2 _ _ offers_adjunction
  refine (hoffer.2.2.2 ?_).2
  rw [Formula.depth_eq_height]
  decide

end Draft

end Propositional
