import Propositional.Formula.Basic
import Propositional.Table

/-!
# Names in order of first occurrence

The names of a formula are collected into a list that is threaded from left to right: a name is
added where it first occurs, unless it is in the list already. What a formula adds to a list is
thus what it adds to the empty one, less the names that the list has.

## Main definitions

* `Formula.ListsNames`: the names of formulas, each once

## Main results

* `Formula.collect_eq_append`: what a formula adds to a list of names
* `Formula.mem_collect`, `Formula.nodup_collect`: the names of a formula, each once
* `Formula.listsNames_varsOf`: the same of several formulas
-/

namespace Propositional

/-! ## Names of a table -/

namespace Table

variable {α : Type} {t : Table α} {x : String}

/-- A name has no value exactly if the table does not list it. -/
theorem get?_eq_none_iff : t.get? x = none ↔ x ∉ t.names := by
  induction t with
  | nil => simp [names]
  | cons p t ih =>
    obtain ⟨n, a⟩ := p
    rw [get?_cons]
    by_cases hx : x = n
    · simp [names, hx]
    · rw [if_neg hx, ih]
      simp [names, hx]

theorem has_iff_mem_names : t.has x = true ↔ x ∈ t.names := by
  rw [has, Option.isSome_iff_ne_none, Ne, get?_eq_none_iff, Decidable.not_not]

theorem names_append (s t : Table α) : Table.names (s ++ t) = s.names ++ t.names := by
  simp [names]

end Table

namespace Formula

variable {keep : String → Bool} {seen : List String} {f : Formula} {x : String}

/-! ## Names of one formula -/

/-- What a formula adds to a list of names is what it adds to the empty list, less the names that
the list has. -/
theorem collect_eq_append (keep : String → Bool) (seen : List String) (f : Formula) :
    f.collect keep seen = seen ++ (f.collect keep []).filter fun x => !seen.contains x := by
  induction f generalizing seen with
  | var name =>
    by_cases hkeep : keep name = true
    · by_cases hseen : name ∈ seen
      · simp [collect, hkeep, hseen]
      · simp [collect, hkeep, hseen]
    · simp [collect, hkeep]
  | neg f ih => exact ih seen
  | bin op l r ihl ihr =>
    -- the right side is collected behind the left one, whatever that began with
    have hboth : ∀ seen, (bin op l r).collect keep seen =
        seen ++ ((l.collect keep []).filter fun x => !seen.contains x) ++
          (r.collect keep []).filter fun x =>
            !seen.contains x && !(l.collect keep []).contains x := by
      intro seen
      rw [collect, ihr, ihl seen]
      congr 1
      refine List.filter_congr fun x _ => ?_
      by_cases hseen : x ∈ seen <;> simp [hseen]
    rw [hboth seen, hboth []]
    simp [List.filter_filter, List.append_assoc]

/-- The names in the list are those that it began with and those of the formula that are kept. -/
theorem mem_collect : x ∈ f.collect keep seen ↔ x ∈ seen ∨ x ∈ f.leaves ∧ keep x = true := by
  induction f generalizing seen with
  | var name =>
    rw [collect]
    by_cases hx : x = name
    · subst hx
      by_cases hkeep : keep x = true <;> by_cases hseen : x ∈ seen <;> simp [leaves, hkeep, hseen]
    · split <;> simp [leaves, hx]
  | neg f ih => exact ih
  | bin op l r ihl ihr =>
    rw [collect, ihr, ihl, leaves, List.mem_append]
    grind

/-- No name is listed twice. -/
theorem nodup_collect (h : seen.Nodup) : (f.collect keep seen).Nodup := by
  induction f generalizing seen with
  | var name =>
    rw [collect]
    split
    · next hnew =>
      have hname : name ∉ seen := by
        simp only [Bool.and_eq_true, Bool.not_eq_true', List.contains_eq_mem,
          decide_eq_false_iff_not] at hnew
        exact hnew.2
      have hne : ∀ y ∈ seen, y ≠ name := fun y hy => ne_of_mem_of_not_mem hy hname
      exact List.nodup_append.mpr ⟨h, by simp, by simpa using hne⟩
    · exact h
  | neg f ih => exact ih h
  | bin op l r ihl ihr => exact ihr (ihl h)

theorem mem_metavariables : x ∈ f.metavariables ↔ x ∈ f.leaves ∧ isMetavariable x = true := by
  simp [metavariables, mem_collect]

theorem nodup_metavariables (f : Formula) : f.metavariables.Nodup :=
  nodup_collect List.nodup_nil

/-! ## Names of several formulas -/

/-- A list of names is that of the variables of formulas, each once. -/
def ListsNames (names : List String) (fs : List Formula) : Prop :=
  names.Nodup ∧ ∀ x, x ∈ names ↔ ∃ f ∈ fs, x ∈ f.leaves

theorem mem_foldl_collect {fs : List Formula} :
    x ∈ fs.foldl (fun seen f => f.collect (fun _ => true) seen) seen ↔
      x ∈ seen ∨ ∃ f ∈ fs, x ∈ f.leaves := by
  induction fs generalizing seen with
  | nil => simp
  | cons f fs ih =>
    rw [List.foldl_cons, ih, mem_collect]
    simp [or_assoc]

theorem nodup_foldl_collect {fs : List Formula} (h : seen.Nodup) :
    (fs.foldl (fun seen f => f.collect (fun _ => true) seen) seen).Nodup := by
  induction fs generalizing seen with
  | nil => exact h
  | cons f fs ih => exact ih (nodup_collect h)

theorem listsNames_varsOf (fs : List Formula) : ListsNames (varsOf fs) fs :=
  ⟨nodup_foldl_collect List.nodup_nil, fun x => by simp [varsOf, mem_foldl_collect]⟩

theorem listsNames_vars (f : Formula) : ListsNames f.vars [f] :=
  listsNames_varsOf [f]

end Formula

end Propositional
