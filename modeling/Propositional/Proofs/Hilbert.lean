import Propositional.Proofs.Matching

/-!
# Derivability from the axioms

A formula is derivable from hypotheses if instances of the three axioms and modus ponens lead from
the hypotheses to it. The first two axioms are what the deduction theorem needs: an implication is
derivable if its right side is derivable once its left side is a further hypothesis. With the third
axiom negation obeys the classical rules, of which the last is the case split that a proof of
completeness rests on.

## Main definitions

* `Hilbert.Derivable`: derivability from hypotheses

## Main results

* `Hilbert.Derivable.deduction`: the deduction theorem
* `Hilbert.Derivable.byContradiction`, `Hilbert.Derivable.byCases`: the classical rules
-/

namespace Propositional.Hilbert

/-- A formula is reached from hypotheses by instances of the axioms and modus ponens. -/
inductive Derivable (hyps : List Formula) : Formula → Prop
  | hyp {f : Formula} (h : f ∈ hyps) : Derivable hyps f
  | ax {k : Int} {S f : Formula} {s : Substitution} (hk : (k, S) ∈ numbered)
      (hs : S.instantiate s = .ok f) : Derivable hyps f
  | mp {f g : Formula} (hf : Derivable hyps f) (hfg : Derivable hyps (.imp f g)) :
      Derivable hyps g

/-! ## Instances of the axioms -/

theorem instantiate_first (a b : Formula) :
    first.instantiate [("α", a), ("β", b)] = .ok (.imp a (.imp b a)) := rfl

theorem instantiate_second (a b c : Formula) :
    second.instantiate [("α", a), ("β", b), ("γ", c)] =
      .ok (.imp (.imp a (.imp b c)) (.imp (.imp a b) (.imp a c))) := rfl

theorem instantiate_third (a b : Formula) :
    third.instantiate [("α", a), ("β", b)] =
      .ok (.imp (.imp (.neg b) (.neg a)) (.imp (.imp (.neg b) a) b)) := rfl

namespace Derivable

variable {hyps more : List Formula} {f g h : Formula}

theorem first (f g : Formula) : Derivable hyps (.imp f (.imp g f)) :=
  .ax (k := 1) (by simp [numbered]) (instantiate_first f g)

theorem second (f g h : Formula) :
    Derivable hyps (.imp (.imp f (.imp g h)) (.imp (.imp f g) (.imp f h))) :=
  .ax (k := 2) (by simp [numbered]) (instantiate_second f g h)

theorem third (f g : Formula) :
    Derivable hyps (.imp (.imp (.neg g) (.neg f)) (.imp (.imp (.neg g) f) g)) :=
  .ax (k := 3) (by simp [numbered]) (instantiate_third f g)

/-! ## Hypotheses -/

/-- What is derivable stays so under more hypotheses. -/
theorem mono (hd : Derivable hyps f) (hsub : hyps ⊆ more) : Derivable more f := by
  induction hd with
  | hyp h => exact .hyp (hsub h)
  | ax hk hs => exact .ax hk hs
  | mp _ _ ihf ihfg => exact .mp ihf ihfg

theorem weaken (g : Formula) (hd : Derivable hyps f) : Derivable (g :: hyps) f :=
  hd.mono (List.subset_cons_self g hyps)

theorem head (f : Formula) (hyps : List Formula) : Derivable (f :: hyps) f :=
  .hyp List.mem_cons_self

/-- What is derivable follows from anything. -/
theorem imp_of_right (g : Formula) (hd : Derivable hyps f) : Derivable hyps (.imp g f) :=
  .mp hd (first f g)

theorem imp_self (f : Formula) : Derivable hyps (.imp f f) := by
  have h₁ : Derivable hyps (.imp f (.imp (.imp f f) f)) := first f (.imp f f)
  have h₂ : Derivable hyps (.imp f (.imp f f)) := first f f
  exact .mp h₂ (.mp h₁ (second f (.imp f f) f))

/-- The deduction theorem: a hypothesis becomes the left side of an implication. -/
theorem deduction (hd : Derivable (f :: hyps) g) : Derivable hyps (.imp f g) := by
  -- along the derivation, the implication from `f` is carried from line to line
  induction hd with
  | @hyp g hmem =>
    rcases List.mem_cons.mp hmem with rfl | hmem
    · exact imp_self g
    · exact imp_of_right f (.hyp hmem)
  | ax hk hs => exact imp_of_right f (.ax hk hs)
  | @mp a b _ _ iha ihab => exact .mp iha (.mp ihab (second f a b))

/-! ## Negation -/

/-- What cannot fail, because its negation leads to a formula and to its negation, is derivable. -/
theorem byContradiction (hf : Derivable (.neg g :: hyps) f)
    (hnf : Derivable (.neg g :: hyps) (.neg f)) : Derivable hyps g :=
  .mp hf.deduction (.mp hnf.deduction (third f g))

/-- A formula and its negation lead to anything. -/
theorem exfalso (hf : Derivable hyps f) (hnf : Derivable hyps (.neg f)) : Derivable hyps g :=
  byContradiction (hf.weaken _) (hnf.weaken _)

theorem of_neg_neg (hd : Derivable hyps (.neg (.neg f))) : Derivable hyps f :=
  byContradiction (head (.neg f) hyps) (hd.weaken _)

/-- A hypothesis that leads to a formula and to its negation is refuted. -/
theorem neg_intro (hf : Derivable (g :: hyps) f) (hnf : Derivable (g :: hyps) (.neg f)) :
    Derivable hyps (.neg g) := by
  -- the third axiom refutes negations only, so the hypothesis is doubly negated first
  have hg : Derivable (.neg (.neg g) :: hyps) g := of_neg_neg (head _ hyps)
  exact byContradiction (.mp hg (hf.deduction.weaken _)) (.mp hg (hnf.deduction.weaken _))

theorem neg_neg (hd : Derivable hyps f) : Derivable hyps (.neg (.neg f)) :=
  neg_intro (hd.weaken _) (head (.neg f) hyps)

/-- What follows from a formula and from its negation is derivable without either. -/
theorem byCases (hpos : Derivable (f :: hyps) g) (hneg : Derivable (.neg f :: hyps) g) :
    Derivable hyps g := by
  -- if `g` fails then so does `f`, and then `g` holds after all
  have hng : Derivable (f :: .neg g :: hyps) (.neg g) := .hyp (by simp)
  have hg : Derivable (f :: .neg g :: hyps) g :=
    hpos.mono (List.cons_subset_cons f (List.subset_cons_self _ hyps))
  have hnf : Derivable (.neg g :: hyps) (.neg f) := neg_intro hg hng
  exact byContradiction (.mp hnf (hneg.deduction.weaken _)) (head (.neg g) hyps)

end Derivable

end Propositional.Hilbert
