import Propositional.Proofs.Truth
import Propositional.Schema

/-!
# Matching and instances

Matching a schema against a formula succeeds exactly if the formula is an instance of the schema.
The substitution is threaded from left to right, so both halves are stated for any substitution
to start from: matching only adds to it, and it never binds anything that a substitution which
makes the instance would bind differently.

Putting formulas in for metavariables commutes with truth, so an instance of a schema that is true
under all valuations is true under all valuations. The three axioms are such schemas.

## Main definitions

* `Table.Extends`: one table says all that another says
* `Substitution.valuation`: the truth values of the formulas that metavariables stand for
* `Hilbert.numbered`: the axioms with their numbers

## Main results

* `Formula.instantiate_of_matchWith`, `Formula.exists_matchWith`: matching finds an instance, and
  finds it whenever there is one
* `Formula.holds_instantiate`: the truth value of an instance
* `Hilbert.holds_of_instance`: instances of the axioms are true
-/

namespace Propositional

/-- A table gives the same value as another to every name that the other gives one to. -/
def Table.Extends {α : Type} (t s : Table α) : Prop :=
  ∀ x a, s.get? x = some a → t.get? x = some a

theorem Table.Extends.refl {α : Type} (s : Table α) : s.Extends s := fun _ _ h => h

theorem Table.Extends.trans {α : Type} {r s t : Table α} (hts : t.Extends s) (hsr : s.Extends r) :
    t.Extends r :=
  fun x a h => hts x a (hsr x a h)

theorem Table.extends_nil {α : Type} (s : Table α) : s.Extends [] := by
  intro x a h
  simp at h

/-- Setting a new name keeps the values of all others. -/
theorem Table.extends_set {α : Type} {s : Table α} {x : String} (hx : s.get? x = none) (a : α) :
    (s.set x a).Extends s := by
  intro y b hy
  rw [Table.get?_set]
  split
  · next h => rw [h, hx] at hy; cases hy
  · exact hy

namespace Formula

variable {S T : Formula} {s t r : Substitution}

/-! ## One step of matching and of instantiating -/

-- the equations of both recursions are made here once; otherwise every proof below waits for them
attribute [grind =] matchWith instantiate

theorem matchWith_metavariable {name : String} (hm : isMetavariable name = true) :
    (var name).matchWith T s = some r ↔
      s.get? name = none ∧ r = s.set name T ∨ s.get? name = some T ∧ r = s := by
  rw [matchWith.eq_1, if_pos hm]
  cases hs : s.get? name with
  | none => simp [eq_comm]
  | some bound =>
    by_cases hb : bound = T
    · simp [hb, eq_comm]
    · simp [hb]

theorem matchWith_var {name : String} (hm : isMetavariable name = false) :
    (var name).matchWith T s = some r ↔ T = var name ∧ r = s := by
  rw [matchWith.eq_1, if_neg (by simp [hm])]
  by_cases hT : T = var name
  · simp [hT, eq_comm]
  · simp [hT]

theorem matchWith_neg {f : Formula} :
    (neg f).matchWith T s = some r ↔ ∃ g, T = neg g ∧ f.matchWith g s = some r := by
  cases T <;> simp [matchWith]

theorem matchWith_bin {op : Connective} {f g : Formula} :
    (bin op f g).matchWith T s = some r ↔
      ∃ f' g' s', T = bin op f' g' ∧ f.matchWith f' s = some s' ∧ g.matchWith g' s' = some r := by
  cases T with
  | var name => simp [matchWith]
  | neg h => simp [matchWith]
  | bin op' f' g' =>
    by_cases hop : op = op'
    · subst hop
      rw [matchWith, if_pos rfl]
      constructor
      · intro h
        cases hf : f.matchWith f' s with
        | none => simp [hf] at h
        | some s' => exact ⟨f', g', s', rfl, hf, by simpa [hf] using h⟩
      · rintro ⟨f'', g'', s', hT, hf, hg⟩
        cases hT
        simpa [hf] using hg
    · simp [matchWith, hop, Ne.symm hop]

theorem instantiate_metavariable {name : String} (hm : isMetavariable name = true) :
    (var name).instantiate s = .ok T ↔ s.get? name = some T := by
  rw [instantiate, if_pos hm]
  cases s.get? name <;> simp

theorem instantiate_var {name : String} (hm : isMetavariable name = false) :
    (var name).instantiate s = .ok T ↔ T = var name := by
  rw [instantiate, if_neg (by simp [hm])]
  simp [eq_comm]

theorem instantiate_neg {f : Formula} :
    (neg f).instantiate s = .ok T ↔ ∃ g, T = neg g ∧ f.instantiate s = .ok g := by
  rw [instantiate]
  cases f.instantiate s <;> simp [eq_comm]

theorem instantiate_bin {op : Connective} {f g : Formula} :
    (bin op f g).instantiate s = .ok T ↔
      ∃ f' g', T = bin op f' g' ∧ f.instantiate s = .ok f' ∧ g.instantiate s = .ok g' := by
  rw [instantiate]
  cases f.instantiate s with
  | error u => simp
  | ok f' => cases g.instantiate s <;> simp [eq_comm]

/-! ## Matching finds instances -/

/-- Matching only adds to the substitution that it starts from. -/
theorem extends_of_matchWith (h : S.matchWith T s = some r) : r.Extends s := by
  induction S generalizing T s r with
  | var name =>
    by_cases hm : isMetavariable name = true
    · rcases (matchWith_metavariable hm).mp h with ⟨hs, rfl⟩ | ⟨-, rfl⟩
      · exact Table.extends_set hs T
      · exact Table.Extends.refl r
    · obtain ⟨-, rfl⟩ := (matchWith_var (by simpa using hm)).mp h
      exact Table.Extends.refl r
  | neg f ih =>
    obtain ⟨g, -, hg⟩ := matchWith_neg.mp h
    exact ih hg
  | bin op f g ihf ihg =>
    obtain ⟨f', g', s', -, hf, hg⟩ := matchWith_bin.mp h
    exact (ihg hg).trans (ihf hf)

/-- A substitution that extends one which makes an instance makes the same instance. -/
theorem instantiate_of_extends (hts : t.Extends s) (h : S.instantiate s = .ok T) :
    S.instantiate t = .ok T := by
  induction S generalizing T with
  | var name =>
    by_cases hm : isMetavariable name = true
    · exact (instantiate_metavariable hm).mpr (hts name T ((instantiate_metavariable hm).mp h))
    · have hm : isMetavariable name = false := by simpa using hm
      exact (instantiate_var hm).mpr ((instantiate_var hm).mp h)
  | neg f ih =>
    obtain ⟨g, rfl, hg⟩ := instantiate_neg.mp h
    exact instantiate_neg.mpr ⟨g, rfl, ih hg⟩
  | bin op f g ihf ihg =>
    obtain ⟨f', g', rfl, hf, hg⟩ := instantiate_bin.mp h
    exact instantiate_bin.mpr ⟨f', g', rfl, ihf hf, ihg hg⟩

/-- The substitution that matching finds makes the formula of the schema. -/
theorem instantiate_of_matchWith (h : S.matchWith T s = some r) : S.instantiate r = .ok T := by
  induction S generalizing T s r with
  | var name =>
    by_cases hm : isMetavariable name = true
    · rw [instantiate_metavariable hm]
      rcases (matchWith_metavariable hm).mp h with ⟨-, rfl⟩ | ⟨hs, rfl⟩
      · rw [Table.get?_set, if_pos rfl]
      · exact hs
    · have hm : isMetavariable name = false := by simpa using hm
      exact (instantiate_var hm).mpr ((matchWith_var hm).mp h).1
  | neg f ih =>
    obtain ⟨g, rfl, hg⟩ := matchWith_neg.mp h
    exact instantiate_neg.mpr ⟨g, rfl, ih hg⟩
  | bin op f g ihf ihg =>
    obtain ⟨f', g', s', rfl, hf, hg⟩ := matchWith_bin.mp h
    -- what the left side bound is still bound after the right side
    have hf' := instantiate_of_extends (extends_of_matchWith hg) (ihf hf)
    exact instantiate_bin.mpr ⟨f', g', rfl, hf', ihg hg⟩

/-- Matching succeeds if some extension of the substitution it starts from makes the formula, and
binds nothing otherwise than that extension does. -/
theorem exists_matchWith (hts : t.Extends s) (h : S.instantiate t = .ok T) :
    ∃ r, S.matchWith T s = some r ∧ t.Extends r := by
  induction S generalizing T s with
  | var name =>
    by_cases hm : isMetavariable name = true
    · have ht := (instantiate_metavariable hm).mp h
      cases hs : s.get? name with
      | none =>
        refine ⟨s.set name T, (matchWith_metavariable hm).mpr (.inl ⟨hs, rfl⟩), ?_⟩
        intro x f hx
        rw [Table.get?_set] at hx
        split at hx
        · next hxn => rw [hxn, ht, ← hx]
        · exact hts x f hx
      | some bound =>
        -- the two bindings of the name agree, since `t` extends `s`
        have hb : s.get? name = some T := by rw [← ht, hts name bound hs, hs]
        exact ⟨s, (matchWith_metavariable hm).mpr (.inr ⟨hb, rfl⟩), hts⟩
    · have hm : isMetavariable name = false := by simpa using hm
      exact ⟨s, (matchWith_var hm).mpr ⟨(instantiate_var hm).mp h, rfl⟩, hts⟩
  | neg f ih =>
    obtain ⟨g, rfl, hg⟩ := instantiate_neg.mp h
    obtain ⟨r, hr, htr⟩ := ih hts hg
    exact ⟨r, matchWith_neg.mpr ⟨g, rfl, hr⟩, htr⟩
  | bin op f g ihf ihg =>
    obtain ⟨f', g', rfl, hf, hg⟩ := instantiate_bin.mp h
    obtain ⟨s', hs', hts'⟩ := ihf hts hf
    obtain ⟨r, hr, htr⟩ := ihg hts' hg
    exact ⟨r, matchWith_bin.mpr ⟨f', g', s', rfl, hs', hr⟩, htr⟩

/-- A formula matches a schema exactly if it is an instance of it. -/
theorem exists_matchWith_nil_iff :
    (∃ r, S.matchWith T [] = some r) ↔ ∃ t, S.instantiate t = .ok T := by
  constructor
  · rintro ⟨r, hr⟩
    exact ⟨r, instantiate_of_matchWith hr⟩
  · rintro ⟨t, ht⟩
    obtain ⟨r, hr, -⟩ := exists_matchWith (Table.extends_nil t) ht
    exact ⟨r, hr⟩

end Formula

/-! ## Truth of instances -/

/-- The truth values that a schema's names have when its metavariables stand for formulas. -/
def Substitution.valuation (s : Substitution) (w : String → Bool) (name : String) : Bool :=
  if Formula.isMetavariable name then ((s.get? name).map (Formula.holds w)).getD false else w name

/-- The truth value of an instance is that of the schema, each metavariable having the value of
the formula that it stands for. -/
theorem Formula.holds_instantiate {S F : Formula} {s : Substitution} (w : String → Bool)
    (h : S.instantiate s = .ok F) : F.holds w = S.holds (s.valuation w) := by
  induction S generalizing F with
  | var name =>
    by_cases hm : isMetavariable name = true
    · rw [holds, Substitution.valuation, if_pos hm, (instantiate_metavariable hm).mp h]
      rfl
    · rw [(instantiate_var (by simpa using hm)).mp h, holds, holds, Substitution.valuation,
        if_neg hm]
  | neg f ih =>
    obtain ⟨g, rfl, hg⟩ := instantiate_neg.mp h
    rw [holds, holds, ih hg]
  | bin op f g ihf ihg =>
    obtain ⟨f', g', rfl, hf, hg⟩ := instantiate_bin.mp h
    rw [holds, holds, ihf hf, ihg hg]

namespace Value

/-- A value has the size of one integer only. -/
theorem eq_of_equalsInteger {v : Value} {m n : Int} (hm : v.equalsInteger m = true)
    (hn : v.equalsInteger n = true) : m = n := by
  cases v with
  | int k => simp_all [equalsInteger]
  | bool b => simp_all [equalsInteger]
  | real x =>
    simp only [equalsInteger, Binary64.equalsInteger, Bool.and_eq_true, beq_iff_eq] at hm hn
    exact Option.some.inj (hm.2.symm.trans hn.2)
  | null => simp [equalsInteger] at hm
  | text s => simp [equalsInteger] at hm
  | list items => simp [equalsInteger] at hm
  | object fields => simp [equalsInteger] at hm

end Value

namespace Hilbert

/-- The axiom schemas with their numbers. -/
def numbered : List (Int × Formula) :=
  [(1, first), (2, second), (3, third)]

theorem schema?_eq_some_iff {n : Value} {S : Formula} :
    schema? n = some S ↔ ∃ k, (k, S) ∈ numbered ∧ n.equalsInteger k = true := by
  constructor
  · intro h
    rw [schema?] at h
    split at h
    · next h₁ => exact ⟨1, by simp_all [numbered], h₁⟩
    · split at h
      · next h₂ => exact ⟨2, by simp_all [numbered], h₂⟩
      · split at h
        · next h₃ => exact ⟨3, by simp_all [numbered], h₃⟩
        · cases h
  · rintro ⟨k, hk, hn⟩
    -- the number has no other size, so the other tests fail
    have hne : ∀ m : Int, m ≠ k → n.equalsInteger m = false := by
      intro m hm
      rw [Bool.eq_false_iff]
      exact fun h => hm (Value.eq_of_equalsInteger h hn)
    simp only [numbered, List.mem_cons, Prod.mk.injEq, List.not_mem_nil, or_false] at hk
    rcases hk with ⟨rfl, rfl⟩ | ⟨rfl, rfl⟩ | ⟨rfl, rfl⟩
    · simp [schema?, hn]
    · simp [schema?, hn, hne 1]
    · simp [schema?, hn, hne 1, hne 2]

/-- The axiom schemas are true under all valuations. -/
theorem holds_of_mem_numbered {k : Int} {S : Formula} (h : (k, S) ∈ numbered) (w : String → Bool) :
    S.holds w = true := by
  simp only [numbered, List.mem_cons, Prod.mk.injEq, List.not_mem_nil, or_false] at h
  rcases h with ⟨-, rfl⟩ | ⟨-, rfl⟩ | ⟨-, rfl⟩
  · cases hα : w "α" <;> cases hβ : w "β" <;> simp [first, Formula.holds, Connective.apply, *]
  · cases hα : w "α" <;> cases hβ : w "β" <;> cases hγ : w "γ" <;>
      simp [second, Formula.holds, Connective.apply, *]
  · cases hα : w "α" <;> cases hβ : w "β" <;> simp [third, Formula.holds, Connective.apply, *]

/-- Instances of the axioms are true under all valuations. -/
theorem holds_of_instance {k : Int} {S F : Formula} {s : Substitution} (hk : (k, S) ∈ numbered)
    (hs : S.instantiate s = .ok F) (w : String → Bool) : F.holds w = true := by
  rw [Formula.holds_instantiate w hs, holds_of_mem_numbered hk]

end Hilbert

end Propositional
