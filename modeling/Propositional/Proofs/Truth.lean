import Propositional.Semantics.Valuation

/-!
# Truth under partial and total valuations

A valuation gives values to some names only, and a formula is evaluated no further than needed.
Whatever value this finds is the value that the formula has under every total valuation that
agrees with the partial one, and a value is always found where all variables have one. Questions
about evaluation thus become questions about truth under total valuations.

## Main definitions

* `Valuation.total`: a value for every name
* `Valuation.Covers`: every variable of a formula has a value
* `Valuation.restrict`: a total valuation, cut down to some names
* `Formula.IsConsequence`: truth wherever the premises are true

## Main results

* `Formula.holds_of_evaluate`: a value that is found is the value under every total extension
* `Formula.evaluate_eq_holds`: a value is found where all variables have one
* `Formula.isConsequence_iff_holds`: consequence is a matter of total valuations
-/

namespace Propositional

/-- What the left side decides is the value whatever the right side is. -/
theorem Connective.apply_of_decided? {op : Connective} {a b : Bool} (h : op.decided? a = some b)
    (c : Bool) : op.apply a c = b := by
  cases op <;> cases a <;> simp_all [decided?, apply]

namespace Valuation

/-- The value of every name; a name that has none counts as false. -/
def total (v : Valuation) (name : String) : Bool :=
  (v.get? name).getD false

/-- Every variable of a formula has a value. -/
def Covers (v : Valuation) (f : Formula) : Prop :=
  ∀ x ∈ f.leaves, v.has x = true

/-- A total valuation that agrees with a partial one wherever that gives a value. -/
def AgreesWith (v : Valuation) (w : String → Bool) : Prop :=
  ∀ x b, v.get? x = some b → w x = b

theorem agreesWith_total (v : Valuation) : v.AgreesWith v.total := by
  intro x b h
  rw [total, h]
  rfl

/-- The values that a total valuation gives to some names. -/
def restrict (w : String → Bool) (names : List String) : Valuation :=
  names.map fun x => (x, w x)

theorem get?_restrict (w : String → Bool) (names : List String) (x : String) :
    (restrict w names).get? x = if x ∈ names then some (w x) else none := by
  induction names with
  | nil => rfl
  | cons y names ih =>
    rw [restrict, List.map_cons, Table.get?_cons, ← restrict, ih]
    by_cases hx : x = y
    · simp [hx]
    · simp [hx]

theorem agreesWith_restrict (w : String → Bool) (names : List String) :
    (restrict w names).AgreesWith w := by
  intro x b h
  rw [get?_restrict] at h
  split at h
  · exact Option.some.inj h
  · cases h

theorem covers_restrict (w : String → Bool) {names : List String} {f : Formula}
    (h : ∀ x ∈ f.leaves, x ∈ names) : (restrict w names).Covers f := by
  intro x hx
  rw [Table.has, get?_restrict, if_pos (h x hx)]
  rfl

theorem Covers.left {v : Valuation} {op : Connective} {l r : Formula}
    (h : v.Covers (.bin op l r)) : v.Covers l :=
  fun x hx => h x (List.mem_append_left _ hx)

theorem Covers.right {v : Valuation} {op : Connective} {l r : Formula}
    (h : v.Covers (.bin op l r)) : v.Covers r :=
  fun x hx => h x (List.mem_append_right _ hx)

end Valuation

namespace Formula

/-! ## Truth of compound formulas -/

section Compound

variable {w : String → Bool} {f g : Formula}

theorem holds_neg : (neg f).holds w = true ↔ ¬ f.holds w = true := by
  simp [holds]

theorem holds_and : (f.and g).holds w = true ↔ f.holds w = true ∧ g.holds w = true := by
  simp [holds, Connective.apply]

theorem holds_or : (f.or g).holds w = true ↔ f.holds w = true ∨ g.holds w = true := by
  simp [holds, Connective.apply]

theorem holds_imp : (f.imp g).holds w = true ↔ (f.holds w = true → g.holds w = true) := by
  cases hf : f.holds w <;> simp [holds, Connective.apply, hf]

theorem holds_iff : (f.iff g).holds w = true ↔ (f.holds w = true ↔ g.holds w = true) := by
  cases hf : f.holds w <;> cases hg : g.holds w <;> simp [holds, Connective.apply, hf, hg]

end Compound

/-! ## Evaluation -/

/-- A value that evaluation finds is the value under every total valuation that agrees. -/
theorem holds_of_evaluate {v : Valuation} {w : String → Bool} (hw : v.AgreesWith w)
    {f : Formula} {b : Bool} (h : f.evaluate v = .ok b) : f.holds w = b := by
  induction f generalizing b with
  | var name =>
    rw [evaluate] at h
    cases hv : v.get? name with
    | none => simp [hv] at h
    | some a =>
      simp only [hv, Except.ok.injEq] at h
      rw [holds, hw name a hv, h]
  | neg f ih =>
    rw [evaluate] at h
    cases hf : f.evaluate v with
    | error u => simp [hf] at h
    | ok a =>
      simp only [hf, Except.ok.injEq] at h
      rw [holds, ih hf, h]
  | bin op l r ihl ihr =>
    rw [evaluate] at h
    cases hl : l.evaluate v with
    | error u => simp [hl] at h
    | ok a =>
      simp only [hl] at h
      rw [holds, ihl hl]
      cases hd : op.decided? a with
      | some c =>
        -- the right side was not looked at, and does not matter
        simp only [hd, Except.ok.injEq] at h
        rw [Connective.apply_of_decided? hd, h]
      | none =>
        cases hr : r.evaluate v with
        | error u => simp [hd, hr] at h
        | ok c =>
          simp only [hd, hr, Except.ok.injEq] at h
          rw [ihr hr, h]

/-- Evaluation finds a value where all variables have one. -/
theorem exists_evaluate_of_covers {v : Valuation} {f : Formula} (h : v.Covers f) :
    ∃ b, f.evaluate v = .ok b := by
  induction f with
  | var name =>
    obtain ⟨b, hb⟩ := Option.isSome_iff_exists.mp (h name (List.mem_singleton.mpr rfl))
    exact ⟨b, by rw [evaluate, hb]⟩
  | neg f ih =>
    obtain ⟨b, hb⟩ := ih h
    exact ⟨!b, by rw [evaluate, hb]⟩
  | bin op l r ihl ihr =>
    obtain ⟨a, ha⟩ := ihl h.left
    obtain ⟨b, hb⟩ := ihr h.right
    cases hd : op.decided? a with
    | some c => exact ⟨c, by simp only [evaluate, ha, hd]⟩
    | none => exact ⟨op.apply a b, by simp only [evaluate, ha, hd, hb]⟩

/-- Where all variables have a value, evaluation finds the truth value. -/
theorem evaluate_eq_holds {v : Valuation} {w : String → Bool} (hw : v.AgreesWith w) {f : Formula}
    (h : v.Covers f) : f.evaluate v = .ok (f.holds w) := by
  obtain ⟨b, hb⟩ := exists_evaluate_of_covers h
  rw [hb, holds_of_evaluate hw hb]

/-- A formula is true under every valuation that makes the premises true and gives a value to
each of its variables. -/
def IsConsequence (premises : List Formula) (f : Formula) : Prop :=
  ∀ v : Valuation, (∀ g ∈ premises, g.evaluate v = .ok true) → v.Covers f →
    f.evaluate v = .ok true

/-- Consequence may be shown for valuations that give a value to every name. -/
theorem isConsequence_of_holds {premises : List Formula} {f : Formula}
    (h : ∀ w : String → Bool, (∀ g ∈ premises, g.holds w = true) → f.holds w = true) :
    f.IsConsequence premises := by
  intro v hv hc
  have hf := h v.total fun g hg => holds_of_evaluate v.agreesWith_total (hv g hg)
  rw [evaluate_eq_holds v.agreesWith_total hc, hf]

/-- A formula is a consequence of premises exactly if it is true under every total valuation that
makes them true. -/
theorem isConsequence_iff_holds {premises : List Formula} {f : Formula} :
    f.IsConsequence premises ↔
      ∀ w : String → Bool, (∀ g ∈ premises, g.holds w = true) → f.holds w = true := by
  refine ⟨fun h w hw => ?_, isConsequence_of_holds⟩
  -- cut the valuation down to the names that occur, which evaluation asks for at most
  let v := Valuation.restrict w (f.leaves ++ premises.flatMap leaves)
  have hv : v.AgreesWith w := Valuation.agreesWith_restrict w _
  have hpremises : ∀ g ∈ premises, g.evaluate v = .ok true := by
    intro g hg
    rw [evaluate_eq_holds hv, hw g hg]
    refine Valuation.covers_restrict w fun x hx => List.mem_append_right _ ?_
    exact List.mem_flatMap.mpr ⟨g, hg, hx⟩
  have hf : v.Covers f := Valuation.covers_restrict w fun x hx => List.mem_append_left _ hx
  exact holds_of_evaluate hv (h v hpremises hf)

end Formula

end Propositional
