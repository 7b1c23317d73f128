import Propositional.Proofs.Enumeration
import Propositional.Proofs.Inference
import Propositional.Proofs.Occurrences

/-!
# Values of instances

Putting formulas in for the metavariables of a schema and evaluating the result is evaluating the
schema, each metavariable having the value of the formula that it stands for. Evaluation goes from
left to right and no further than needed, and so it does in the schema and in the instance: a part
of the instance is passed over exactly if the part of the schema that it comes from is.

A formula that is put in may have metavariables of its own, which then are variables of the
instance like all others. The schema and its instance may therefore share a name and give it
different values; so there are two valuations, one for each.

## Main definitions

* `Substitution.Carries`: the values that the variables of a schema get from an instance
* `Substitution.leavesOf`: the names that stand in the place of a name

## Main results

* `Formula.leaves_instantiate`: the names of an instance
* `Formula.evaluate_instantiate`: the value of an instance is that of the schema
* `Formula.instance_evaluates`: the substitution lemma, and the truth of instances and axioms
-/

namespace Propositional

namespace Substitution

variable {s : Substitution} {v w : Valuation}

/-- A valuation `w` of a schema comes from a valuation `v` of its instance: a metavariable has the
value that the formula has for which it stands, and every other variable has its own. -/
structure Carries (s : Substitution) (v w : Valuation) (S : Formula) : Prop where
  metavariable : ∀ m ∈ S.leaves, Formula.isMetavariable m = true →
    ∃ f b, s.get? m = some f ∧ f.evaluate v = .ok b ∧ w.get? m = some b
  other : ∀ x ∈ S.leaves, Formula.isMetavariable x = false →
    ∃ b, v.get? x = some b ∧ w.get? x = some b

namespace Carries

/-- Values for a schema are values for a part of it. -/
theorem of_subset {S T : Formula} (h : s.Carries v w S) (hT : ∀ x ∈ T.leaves, x ∈ S.leaves) :
    s.Carries v w T :=
  ⟨fun m hm => h.metavariable m (hT m hm), fun x hx => h.other x (hT x hx)⟩

theorem left {op : Connective} {f g : Formula} (h : s.Carries v w (.bin op f g)) :
    s.Carries v w f :=
  h.of_subset fun _ hx => List.mem_append_left _ hx

theorem right {op : Connective} {f g : Formula} (h : s.Carries v w (.bin op f g)) :
    s.Carries v w g :=
  h.of_subset fun _ hx => List.mem_append_right _ hx

/-- All variables of the schema have values. -/
theorem covers {S : Formula} (h : s.Carries v w S) : w.Covers S := by
  intro x hx
  rw [Table.has, Option.isSome_iff_exists]
  cases hm : Formula.isMetavariable x with
  | true =>
    obtain ⟨f, b, -, -, hb⟩ := h.metavariable x hx hm
    exact ⟨b, hb⟩
  | false =>
    obtain ⟨b, -, hb⟩ := h.other x hx hm
    exact ⟨b, hb⟩

end Carries

/-- The names that an instance has in the place of a name of the schema. -/
def leavesOf (s : Substitution) (name : String) : List String :=
  if Formula.isMetavariable name then ((s.get? name).map Formula.leaves).getD [] else [name]

end Substitution

namespace Formula

variable {S F : Formula} {s : Substitution} {v w : Valuation}

/-! ## Names of instances -/

/-- An instance has the names of the schema, and for a metavariable those of the formula that it
stands for. -/
theorem leaves_instantiate (h : S.instantiate s = .ok F) :
    F.leaves = S.leaves.flatMap s.leavesOf := by
  induction S generalizing F with
  | var name =>
    by_cases hm : isMetavariable name = true
    · have hF := (instantiate_metavariable hm).mp h
      simp [leaves, Substitution.leavesOf, hm, hF]
    · have hF := (instantiate_var (by simpa using hm)).mp h
      simp [leaves, Substitution.leavesOf, hm, hF]
  | neg f ih =>
    obtain ⟨g, rfl, hg⟩ := instantiate_neg.mp h
    rw [leaves, leaves, ih hg]
  | bin op f g ihf ihg =>
    obtain ⟨f', g', rfl, hf, hg⟩ := instantiate_bin.mp h
    rw [leaves, leaves, List.flatMap_append, ihf hf, ihg hg]

/-- Values for all variables of an instance are values for what stands in the place of a name. -/
theorem has_of_mem_leavesOf (h : S.instantiate s = .ok F) (hv : v.Covers F) {x y : String}
    (hx : x ∈ S.leaves) (hy : y ∈ s.leavesOf x) : v.has y = true := by
  apply hv y
  rw [leaves_instantiate h]
  exact List.mem_flatMap.mpr ⟨x, hx, hy⟩

/-! ## The substitution lemma -/

/-- The value of an instance is that of the schema. -/
theorem evaluate_instantiate (h : S.instantiate s = .ok F) (hw : s.Carries v w S) :
    F.evaluate v = S.evaluate w := by
  induction S generalizing F with
  | var name =>
    have hname : name ∈ (var name).leaves := List.mem_singleton.mpr rfl
    by_cases hm : isMetavariable name = true
    · obtain ⟨f, b, hf, hb, hwb⟩ := hw.metavariable name hname hm
      obtain rfl : f = F := Option.some.inj (hf.symm.trans ((instantiate_metavariable hm).mp h))
      rw [hb, evaluate_var.mpr hwb]
    · have hm : isMetavariable name = false := by simpa using hm
      obtain ⟨b, hb, hwb⟩ := hw.other name hname hm
      rw [(instantiate_var hm).mp h, evaluate_var.mpr hb, evaluate_var.mpr hwb]
  | neg f ih =>
    obtain ⟨g, rfl, hg⟩ := instantiate_neg.mp h
    have hf : g.evaluate v = f.evaluate w := ih hg (hw.of_subset fun _ hx => hx)
    rw [evaluate, evaluate, hf]
  | bin op f g ihf ihg =>
    -- both sides are evaluated alike, so they are also passed over alike
    obtain ⟨f', g', rfl, hf, hg⟩ := instantiate_bin.mp h
    rw [evaluate, evaluate, ihf hf hw.left, ihg hg hw.right]

/-- Values for all variables of an instance give values to all variables of the schema. -/
theorem exists_carries (h : S.instantiate s = .ok F) (hv : v.Covers F) :
    ∃ w : Valuation, s.Carries v w S := by
  refine ⟨Valuation.restrict (s.valuation v.total) S.leaves, fun m hmS hm => ?_, fun x hxS hx => ?_⟩
  · -- all names of the formula that is put in are names of the instance, so it has a value
    have hbound := exists_instantiate_iff.mp ⟨F, h⟩ m (mem_metavariables.mpr ⟨hmS, hm⟩)
    obtain ⟨f, hf⟩ := Option.isSome_iff_exists.mp hbound
    have hcovers : v.Covers f := by
      intro y hy
      exact has_of_mem_leavesOf h hv hmS (by simpa [Substitution.leavesOf, hm, hf] using hy)
    refine ⟨f, f.holds v.total, hf, evaluate_eq_holds v.agreesWith_total hcovers, ?_⟩
    rw [Valuation.get?_restrict, if_pos hmS, Substitution.valuation, if_pos hm, hf]
    rfl
  · -- any other name stands for itself
    have hself : x ∈ s.leavesOf x := by simp [Substitution.leavesOf, hx]
    have hhas := has_of_mem_leavesOf h hv hxS hself
    obtain ⟨b, hb⟩ := Option.isSome_iff_exists.mp hhas
    refine ⟨b, hb, ?_⟩
    rw [Valuation.get?_restrict, if_pos hxS, Substitution.valuation, if_neg (by simp [hx]),
      v.agreesWith_total x b hb]

/-! ## Truth of instances -/

/-- A formula is true under every valuation that gives values to its variables. -/
def IsValid (f : Formula) : Prop :=
  ∀ v : Valuation, v.Covers f → f.evaluate v = .ok true

/-- Instances of a valid schema are valid. -/
theorem IsValid.instantiate (hS : S.IsValid) (h : S.instantiate s = .ok F) : F.IsValid := by
  intro v hv
  obtain ⟨w, hw⟩ := exists_carries h hv
  rw [evaluate_instantiate h hw, hS w hw.covers]

/-- The axioms are valid. -/
theorem isValid_of_mem_numbered {k : Int} (hS : (k, S) ∈ Hilbert.numbered) : S.IsValid := by
  intro v hv
  rw [evaluate_eq_holds v.agreesWith_total hv, Hilbert.holds_of_mem_numbered hS]

/-- A formula that is accepted as an instance of an axiom is valid. -/
theorem isValid_of_validate {lines : Lines} {n : Value}
    (h : Justification.validate lines (.ax n) F = .ok ()) : F.IsValid := by
  cases Justification.validate_eq_ok_iff.mp h with
  | ax _ hk hs => exact (isValid_of_mem_numbered hk).instantiate hs

/-- If all metavariables of a schema stand for formulas, the schema has an instance. Values for all
variables of the instance give values to the variables of the schema, to a metavariable that of the
formula for which it stands; and under such values the schema has the value that the instance has.
So instances of a schema that is true under all valuations are true under all valuations, and so is
every formula that is accepted as an instance of an axiom. -/
theorem instance_evaluates (S : Formula) :
    (∀ s : Substitution, (∀ m ∈ S.metavariables, s.has m = true) →
      ∃ F, S.instantiate s = .ok F ∧ ∀ v : Valuation, v.Covers F →
        (∃ w : Valuation, s.Carries v w S) ∧
        ∀ w : Valuation, s.Carries v w S → ∃ b, F.evaluate v = .ok b ∧ S.evaluate w = .ok b) ∧
    (S.IsValid → ∀ s F, S.instantiate s = .ok F → F.IsValid) ∧
    ∀ lines n F, Justification.validate lines (.ax n) F = .ok () → F.IsValid := by
  refine ⟨fun s hs => ?_, fun hS s F h => hS.instantiate h, fun lines n F h =>
    isValid_of_validate h⟩
  obtain ⟨F, hF⟩ := exists_instantiate_iff.mpr hs
  refine ⟨F, hF, fun v hv => ⟨exists_carries hF hv, fun w hw => ?_⟩⟩
  obtain ⟨b, hb⟩ := exists_evaluate_of_covers hv
  exact ⟨b, hb, (evaluate_instantiate hF hw).symm.trans hb⟩

/-- A schema in which a metavariable and a variable stand side by side. -/
def linked : Formula :=
  .iff (.var "α") (.and (.var "β") (.var "A"))

/-- Puts the next name in for each metavariable of `linked`. -/
def shifted : Substitution :=
  [("α", .var "β"), ("β", .var "A")]

/-- In the instance `β` is true, and in the schema it is false, as `A` is. -/
theorem carries_shifted :
    shifted.Carries [("β", true), ("A", false)] [("α", true), ("β", false), ("A", false)]
      linked := by
  have hleaves : linked.leaves = ["α", "β", "A"] := rfl
  constructor
  · intro m hm hgreek
    rw [hleaves] at hm
    simp only [List.mem_cons, List.not_mem_nil, or_false] at hm
    rcases hm with rfl | rfl | rfl
    · exact ⟨.var "β", true, rfl, rfl, rfl⟩
    · exact ⟨.var "A", false, rfl, rfl, rfl⟩
    · exact absurd hgreek (by decide)
  · intro x hx hlatin
    rw [hleaves] at hx
    simp only [List.mem_cons, List.not_mem_nil, or_false] at hx
    rcases hx with rfl | rfl | rfl
    · exact absurd hlatin (by decide)
    · exact absurd hlatin (by decide)
    · exact ⟨false, rfl, rfl⟩

theorem instance_evaluates_shifted :
    (∃ F b, linked.instantiate shifted = .ok F ∧
      F = .iff (.var "β") (.and (.var "A") (.var "A")) ∧
      F.evaluate [("β", true), ("A", false)] = .ok b ∧
      linked.evaluate [("α", true), ("β", false), ("A", false)] = .ok b ∧ b = false) ∧
    (imp (var "β") (imp (neg (var "A")) (var "β"))).IsValid ∧
    ∃ F, Hilbert.first.instantiate shifted = .ok F ∧ F.IsValid := by
  refine ⟨?_, ?_, ?_⟩
  · obtain ⟨F, hF, hvalue⟩ := (instance_evaluates linked).1 shifted (by decide)
    cases hF
    obtain ⟨-, hsame⟩ := hvalue [("β", true), ("A", false)] (by unfold Valuation.Covers; decide)
    obtain ⟨b, hb, hb'⟩ := hsame _ carries_shifted
    cases hb
    exact ⟨_, _, rfl, rfl, rfl, hb', rfl⟩
  · exact (instance_evaluates linked).2.2 [] (.int 1) _ rfl
  · refine ⟨_, rfl, (instance_evaluates Hilbert.first).2.1 ?_ shifted _ rfl⟩
    exact isValid_of_mem_numbered (.head _)

end Formula

end Propositional
