import Mathlib.Data.List.Induction
import Mathlib.Logic.Function.Basic
import Propositional.Proofs.Hilbert
import Propositional.Proofs.Inference

/-!
# Completeness of the axioms

Every consequence of given formulas can be reached from them by lines that validation accepts, each
an instance of an axiom or a case of modus ponens, as long as all formulas are built from variables
by negation and implication. The argument has two halves.

A valuation is written down by literals: its variables that are true, and the negations of those
that are false. From the literals of its variables every formula is derivable that the valuation
makes true, and the negation of every other one. So a consequence is derivable from the givens and
the literals of any valuation whatever: either it is true, or one of the givens is false and thus
refuted. The literals are then discharged one variable after the other.

A derivable formula gets its lines at the end of any row of accepted lines. Rows grow at their end
only, so lines keep their numbers, and citations of them stay right.

## Main definitions

* `Formula.isImplicational`: built by negation and implication only
* `Formula.signed`: a formula or its negation, whichever is true
* `Hilbert.Accepted`: rows of lines that validation accepts

## Main results

* `Hilbert.derivable_signed`: derivability from the literals of a valuation
* `Hilbert.derivable_of_literals`: literals of all valuations are discharged
* `Hilbert.exists_accepted_of_derivable`: derivable formulas get accepted lines
* `Hilbert.isConsequence_iff_exists_accepted`: soundness and completeness of accepted rows
-/

namespace Propositional

/-- Whether a formula is built from variables by negation and implication only. -/
def Formula.isImplicational : Formula → Bool
  | .var _ => true
  | .neg f => f.isImplicational
  | .bin .imp l r => l.isImplicational && r.isImplicational
  | .bin _ _ _ => false

/-- The formula if a valuation makes it true, else its negation. -/
def Formula.signed (w : String → Bool) (f : Formula) : Formula :=
  if f.holds w then f else .neg f

theorem Formula.signed_of_holds {w : String → Bool} {f : Formula} (h : f.holds w = true) :
    f.signed w = f :=
  if_pos h

theorem Formula.signed_of_not_holds {w : String → Bool} {f : Formula} (h : ¬ f.holds w = true) :
    f.signed w = .neg f :=
  if_neg h

namespace Hilbert

/-! ## Derivability of consequences -/

/-- The variables that a valuation makes true, and the negations of those that it makes false. -/
def literals (w : String → Bool) (names : List String) : List Formula :=
  names.map fun x => (Formula.var x).signed w

/-- From the literals of its variables a formula is derivable if it is true, else its negation. -/
theorem derivable_signed {hyps : List Formula} {w : String → Bool} {f : Formula}
    (hf : f.isImplicational = true) (hlit : literals w f.leaves ⊆ hyps) :
    Derivable hyps (f.signed w) := by
  induction f with
  | var x => exact .hyp (hlit (List.mem_singleton.mpr rfl))
  | neg f ih =>
    have hd := ih hf hlit
    by_cases h : f.holds w = true
    · rw [Formula.signed_of_holds h] at hd
      rw [Formula.signed_of_not_holds (by simp [Formula.holds, h])]
      exact hd.neg_neg
    · rw [Formula.signed_of_not_holds h] at hd
      rwa [Formula.signed_of_holds (Formula.holds_neg.mpr h)]
  | bin op f g ihf ihg =>
    cases op with
    | and | or | iff => cases hf
    | imp =>
      obtain ⟨hf, hg⟩ := Bool.and_eq_true_iff.mp hf
      rw [literals, Formula.leaves, List.map_append] at hlit
      have hdf := ihf hf (List.Subset.trans (List.subset_append_left _ _) hlit)
      have hdg := ihg hg (List.Subset.trans (List.subset_append_right _ _) hlit)
      by_cases h : g.holds w = true
      · rw [Formula.signed_of_holds h] at hdg
        rw [Formula.signed_of_holds (Formula.holds_imp.mpr fun _ => h)]
        exact hdg.imp_of_right f
      · rw [Formula.signed_of_not_holds h] at hdg
        by_cases h' : f.holds w = true
        · -- the implication fails: it would lead from its left side to its right side
          rw [Formula.signed_of_holds h'] at hdf
          rw [Formula.signed_of_not_holds fun himp => h (Formula.holds_imp.mp himp h')]
          exact .neg_intro (.mp (hdf.weaken _) (.head _ hyps)) (hdg.weaken _)
        · rw [Formula.signed_of_not_holds h'] at hdf
          rw [Formula.signed_of_holds (Formula.holds_imp.mpr fun hf => absurd hf h')]
          exact .deduction (.exfalso (.head f hyps) (hdf.weaken _))

/-- A change at a name that does not occur leaves the literals as they are. -/
theorem literals_update {w : String → Bool} {x : String} {names : List String} (b : Bool)
    (hx : x ∉ names) : literals (Function.update w x b) names = literals w names := by
  refine List.map_congr_left fun y hy => ?_
  have hyx : y ≠ x := fun h => hx (h ▸ hy)
  have hholds : (Formula.var y).holds (Function.update w x b) = (Formula.var y).holds w := by
    rw [Formula.holds, Formula.holds, Function.update_of_ne hyx]
  rw [Formula.signed, Formula.signed, hholds]

/-- What is derivable from the literals of every valuation is derivable without them. -/
theorem derivable_of_literals {hyps : List Formula} {f : Formula} {names : List String}
    (h : ∀ w, Derivable (literals w names ++ hyps) f) : Derivable hyps f := by
  induction names with
  | nil => exact h fun _ => false
  | cons x names ih =>
    refine ih fun w => ?_
    by_cases hx : x ∈ names
    · -- the literal is among the others
      refine (h w).mono (List.append_subset.mpr ⟨List.cons_subset.mpr ⟨?_, ?_⟩, ?_⟩)
      · exact List.mem_append_left _ (List.mem_map_of_mem hx)
      · exact List.subset_append_left _ _
      · exact List.subset_append_right _ _
    · -- both signs of the variable lead to the formula, over the same other literals
      have htrue := h (Function.update w x true)
      have hfalse := h (Function.update w x false)
      rw [literals, List.map_cons, ← literals, literals_update _ hx, List.cons_append]
        at htrue hfalse
      rw [Formula.signed_of_holds (by simp [Formula.holds])] at htrue
      rw [Formula.signed_of_not_holds (by simp [Formula.holds])] at hfalse
      exact .byCases htrue hfalse

/-- A consequence of formulas built by negation and implication is derivable from them. -/
theorem derivable_of_holds {given : List Formula} {f : Formula}
    (hgiven : ∀ g ∈ given, g.isImplicational = true) (hf : f.isImplicational = true)
    (h : ∀ w : String → Bool, (∀ g ∈ given, g.holds w = true) → f.holds w = true) :
    Derivable given f := by
  -- under each valuation the literals of all names decide all formulas
  let names := f.leaves ++ given.flatMap Formula.leaves
  refine derivable_of_literals fun w => (?_ : Derivable (literals w names ++ given) f)
  have hmem {g : Formula} (hg : g.leaves ⊆ names) :
      literals w g.leaves ⊆ literals w names ++ given :=
    List.Subset.trans (List.map_subset _ hg) (List.subset_append_left _ _)
  by_cases hw : ∀ g ∈ given, g.holds w = true
  · have hd := derivable_signed hf (hmem (List.subset_append_left _ _))
    rwa [Formula.signed_of_holds (h w hw)] at hd
  · -- a given that fails is refuted by the literals, though it is given
    simp only [not_forall] at hw
    obtain ⟨g, hg, hgw⟩ := hw
    have hleaves : g.leaves ⊆ names := fun x hx =>
      List.mem_append_right _ (List.mem_flatMap.mpr ⟨g, hg, hx⟩)
    have hd := derivable_signed (hgiven g hg) (hmem hleaves)
    rw [Formula.signed_of_not_holds hgw] at hd
    exact .exfalso (.hyp (List.mem_append_right _ hg)) hd

end Hilbert

/-! ## Rows of accepted lines -/

/-- An axiom by its number, or modus ponens by the numbers of two lines. -/
inductive Justification.IsHilbert : Justification → Prop
  | ax {n : Int} (h : n ∈ [1, 2, 3]) : IsHilbert (.ax (.int n))
  | mp (a b : Nat) : IsHilbert (.mp (.int a) (.int b))

namespace Hilbert

/-- The given formulas, and behind them those of a row of lines. -/
def linesOf (given : List Formula) (row : List (Formula × Justification)) : List Formula :=
  given ++ row.map Prod.fst

/-- Each line of a row is an axiom or a case of modus ponens that validation accepts behind the
given formulas and the lines before it. -/
def Accepted (given : List Formula) (row : List (Formula × Justification)) : Prop :=
  ∀ (k : Nat) (f : Formula) (j : Justification), row[k]? = some (f, j) →
    j.IsHilbert ∧ j.validate ((linesOf given (row.take k)).map some) f = .ok ()

variable {given : List Formula} {row : List (Formula × Justification)} {f g : Formula}
  {j : Justification}

theorem linesOf_concat : linesOf given (row ++ [(f, j)]) = linesOf given row ++ [f] := by
  simp [linesOf]

theorem linesOf_subset_append (more : List (Formula × Justification)) :
    linesOf given row ⊆ linesOf given (row ++ more) := by
  rw [linesOf, linesOf, List.map_append, ← List.append_assoc]
  exact List.subset_append_left _ _

theorem accepted_nil : Accepted given [] := by
  intro k f j h
  cases h

/-- A row of accepted lines grows by lines that follow. -/
theorem accepted_concat_iff :
    Accepted given (row ++ [(f, j)]) ↔
      Accepted given row ∧ j.IsHilbert ∧ Follows ((linesOf given row).map some) j f := by
  rw [← Justification.validate_eq_ok_iff]
  constructor
  · intro h
    refine ⟨fun k g i hk => ?_, ?_⟩
    · have hlt := (List.getElem?_eq_some_iff.mp hk).1
      have hacc := h k g i (by rwa [List.getElem?_append_left hlt])
      rwa [List.take_append_of_le_length (Nat.le_of_lt hlt)] at hacc
    · simpa using h row.length f j (by simp)
  · rintro ⟨hrow, hlast⟩ k g i hk
    rcases Nat.lt_trichotomy k row.length with hlt | rfl | hgt
    · rw [List.getElem?_append_left hlt] at hk
      rw [List.take_append_of_le_length (Nat.le_of_lt hlt)]
      exact hrow k g i hk
    · rw [List.getElem?_concat_length, Option.some.injEq, Prod.mk.injEq] at hk
      obtain ⟨rfl, rfl⟩ := hk
      rwa [List.take_left]
    · have hlt := (List.getElem?_eq_some_iff.mp hk).1
      rw [List.length_append, List.length_singleton] at hlt
      omega

theorem exists_cites_of_mem {fs : List Formula} (h : f ∈ fs) :
    ∃ k : Nat, Lines.Cites (fs.map some) (.int k) f := by
  obtain ⟨k, hk⟩ := List.mem_iff_getElem?.mp h
  exact ⟨k + 1, k, by simp, by rw [List.getElem?_map, hk]; rfl⟩

theorem mem_of_cites {fs : List Formula} {n : Value} (h : Lines.Cites (fs.map some) n f) :
    f ∈ fs := by
  obtain ⟨k, -, hk⟩ := h
  rw [List.getElem?_map, Option.map_eq_some_iff] at hk
  obtain ⟨g, hg, hgf⟩ := hk
  cases hgf
  exact List.mem_of_getElem? hg

/-- Two formulas on lines of an accepted row yield a further line by modus ponens. -/
theorem exists_accepted_mp (hrow : Accepted given row) (hf : f ∈ linesOf given row)
    (hfg : .imp f g ∈ linesOf given row) : ∃ j, Accepted given (row ++ [(g, j)]) := by
  obtain ⟨a, ha⟩ := exists_cites_of_mem hf
  obtain ⟨b, hb⟩ := exists_cites_of_mem hfg
  exact ⟨.mp (.int a) (.int b), accepted_concat_iff.mpr ⟨hrow, .mp a b, .mp ha hb⟩⟩

/-- Every accepted row can be continued by accepted lines until a derivable formula is on one. -/
theorem exists_accepted_of_derivable (h : Derivable given f) (hrow : Accepted given row) :
    ∃ more, Accepted given (row ++ more) ∧ f ∈ linesOf given (row ++ more) := by
  induction h generalizing row with
  | hyp hf =>
    refine ⟨[], ?_, List.mem_append_left _ hf⟩
    rwa [List.append_nil]
  | @ax k S f s hk hs =>
    refine ⟨[(f, .ax (.int k))], accepted_concat_iff.mpr ⟨hrow, .ax ?_, ?_⟩, ?_⟩
    · simp only [numbered, List.mem_cons, Prod.mk.injEq, List.not_mem_nil, or_false] at hk
      rcases hk with ⟨rfl, -⟩ | ⟨rfl, -⟩ | ⟨rfl, -⟩ <;> decide
    · exact .ax (by simp [Value.equalsInteger]) hk hs
    · rw [linesOf_concat]
      exact List.mem_append_right _ (List.mem_singleton.mpr rfl)
  | @mp f g _ _ ihf ihfg =>
    -- the second premise is written behind the first, whose line keeps its number
    obtain ⟨more, hmore, hf⟩ := ihf hrow
    obtain ⟨more', hmore', hfg⟩ := ihfg hmore
    obtain ⟨j, hj⟩ := exists_accepted_mp hmore' (linesOf_subset_append more' hf) hfg
    rw [List.append_assoc, List.append_assoc] at hj
    refine ⟨more ++ (more' ++ [(g, j)]), hj, ?_⟩
    rw [← List.append_assoc, ← List.append_assoc, linesOf_concat]
    exact List.mem_append_right _ (List.mem_singleton.mpr rfl)

/-- A derivable formula is on the last line of an accepted row. -/
theorem exists_accepted_getLast? (h : Derivable given f) :
    ∃ row, Accepted given row ∧ (linesOf given row).getLast? = some f := by
  obtain ⟨row, hrow, hf⟩ := exists_accepted_of_derivable h accepted_nil
  obtain ⟨more, hmore, hff⟩ := exists_accepted_of_derivable (Derivable.imp_self f) hrow
  -- the formula may stand further up; that it implies itself brings it down to the end
  obtain ⟨j, hj⟩ := exists_accepted_mp hmore (linesOf_subset_append more hf) hff
  refine ⟨_, hj, ?_⟩
  rw [linesOf_concat, List.getLast?_concat]

/-- The lines of an accepted row are true wherever the given formulas are. -/
theorem holds_of_accepted {w : String → Bool} (hw : ∀ g ∈ given, g.holds w = true)
    (hrow : Accepted given row) (hf : f ∈ linesOf given row) : f.holds w = true := by
  induction row using List.reverseRecOn generalizing f with
  | nil => exact hw f (by simpa [linesOf] using hf)
  | append_singleton row p ih =>
    obtain ⟨hrow, -, hfollows⟩ := accepted_concat_iff.mp hrow
    rw [linesOf_concat, List.mem_append, List.mem_singleton] at hf
    rcases hf with hf | rfl
    · exact ih hrow hf
    · exact hfollows.holds fun n _ g hg => ih hrow (mem_of_cites hg)

/-- Among formulas built by negation and implication, the consequences of given ones are exactly
those on the last lines of the rows that axioms and modus ponens accept behind the given ones. -/
theorem isConsequence_iff_exists_accepted (given : List Formula) (f : Formula)
    (hgiven : ∀ g ∈ given, g.isImplicational = true) (hf : f.isImplicational = true) :
    f.IsConsequence given ↔
      ∃ row, Accepted given row ∧ (linesOf given row).getLast? = some f := by
  rw [Formula.isConsequence_iff_holds]
  constructor
  · intro h
    exact exists_accepted_getLast? (derivable_of_holds hgiven hf h)
  · rintro ⟨row, hrow, hlast⟩ w hw
    exact holds_of_accepted hw hrow (List.mem_of_getLast? hlast)

/-- `¬B->¬A` and `A`, of which `B` is a consequence by the third axiom. -/
def contraposed : List Formula :=
  [.imp (.neg (.var "B")) (.neg (.var "A")), .var "A"]

theorem isConsequence_contraposed : (Formula.var "B").IsConsequence contraposed := by
  refine Formula.isConsequence_of_holds fun w hw => ?_
  have himp := hw _ (List.mem_cons_self ..)
  have hA := hw (.var "A") (by simp [contraposed])
  rw [Formula.holds_imp, Formula.holds_neg, Formula.holds_neg] at himp
  by_contra hB
  exact himp hB hA

theorem exists_accepted_contraposed :
    (∀ g ∈ contraposed, g.isImplicational = true) ∧ (Formula.var "B").IsConsequence contraposed ∧
      ∃ row, Accepted contraposed row ∧
        (linesOf contraposed row).getLast? = some (.var "B") := by
  have hgiven : ∀ g ∈ contraposed, g.isImplicational = true := by decide
  exact ⟨hgiven, isConsequence_contraposed,
    (isConsequence_iff_exists_accepted contraposed (.var "B") hgiven rfl).mp
      isConsequence_contraposed⟩

end Hilbert

end Propositional
