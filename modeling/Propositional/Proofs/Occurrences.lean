import Propositional.Proofs.Matching
import Propositional.Proofs.Names

/-!
# The order of first occurrence

Several passes go through the names of a formula: one collects all of them, one only the
metavariables, one the names of a row of formulas, and one puts formulas in and stops at the first
metavariable that stands for nothing. All of them follow the leaves from left to right, and whatever
they have met before, a name counts where it first occurs. So they agree on the order of the names,
and the name that is reported missing is the first one in the list of metavariables that is not
bound.

## Main results

* `Formula.collect_eraseDups`: what a formula adds to the first occurrences of names
* `Formula.filter_collect`: names may be kept while they are collected or afterwards
* `Formula.find?_collect`: the first name with a property is the first leaf with it
* `Formula.instantiate_eq_error_iff`: which metavariable is reported missing
* `Formula.exists_instantiate_iff`: there is an instance if all metavariables stand for something
* `Formula.names_by_first_occurrence`: all passes follow the order of first occurrence
-/

namespace Propositional.Formula

variable {keep : String → Bool} {S : Formula} {s : Substitution}

/-! ## First occurrences -/

/-- One more name counts only if it did not occur before. -/
theorem eraseDups_concat (xs : List String) (x : String) :
    (xs ++ [x]).eraseDups = if x ∈ xs then xs.eraseDups else xs.eraseDups ++ [x] := by
  rw [List.eraseDups_append, List.removeAll]
  split
  · next hx => simp [hx]
  · next hx => simp [hx, List.eraseDups_cons]

/-- A formula adds to the first occurrences in a list of names those in its leaves behind it. -/
theorem collect_eraseDups (keep : String → Bool) (xs : List String) (f : Formula) :
    f.collect keep xs.eraseDups = (xs ++ f.leaves.filter keep).eraseDups := by
  induction f generalizing xs with
  | var name =>
    by_cases hkeep : keep name = true
    · by_cases hxs : name ∈ xs <;> simp [collect, leaves, hkeep, hxs, eraseDups_concat]
    · simp [collect, leaves, hkeep]
  | neg f ih => exact ih xs
  | bin op l r ihl ihr =>
    -- the left side hands on first occurrences again, of a list with its leaves at the end
    rw [collect, ihl, ihr, leaves, List.filter_append, List.append_assoc]

theorem foldl_collect_eraseDups (xs : List String) (fs : List Formula) :
    fs.foldl (fun seen f => f.collect (fun _ => true) seen) xs.eraseDups =
      (xs ++ fs.flatMap leaves).eraseDups := by
  induction fs generalizing xs with
  | nil => simp
  | cons f fs ih =>
    have hall : f.leaves.filter (fun _ => true) = f.leaves := List.filter_eq_self.mpr fun _ _ => rfl
    rw [List.foldl_cons, collect_eraseDups, hall, ih, List.flatMap_cons, List.append_assoc]

theorem varsOf_eq_eraseDups (fs : List Formula) : varsOf fs = (fs.flatMap leaves).eraseDups :=
  foldl_collect_eraseDups [] fs

theorem vars_eq_eraseDups (f : Formula) : f.vars = f.leaves.eraseDups := by
  have h := varsOf_eq_eraseDups [f]
  rwa [List.flatMap_singleton] at h

/-- Names may be kept while they are collected or afterwards. -/
theorem filter_collect (keep : String → Bool) (seen : List String) (f : Formula) :
    (f.collect (fun _ => true) seen).filter keep = f.collect keep (seen.filter keep) := by
  induction f generalizing seen with
  | var name =>
    by_cases hkeep : keep name = true
    · by_cases hseen : name ∈ seen <;> simp [collect, hkeep, hseen]
    · by_cases hseen : name ∈ seen <;> simp [collect, hkeep, hseen]
  | neg f ih => exact ih seen
  | bin op l r ihl ihr => rw [collect, collect, ihr, ihl]

theorem metavariables_eq_filter_vars (f : Formula) :
    f.metavariables = f.vars.filter isMetavariable :=
  (filter_collect isMetavariable [] f).symm

/-! ## The first name that is missing -/

/-- The first collected name with a property is the first one with it among those that were there
and then among the leaves: a leaf that is left out occurred before. -/
theorem find?_collect (p : String → Bool) (seen : List String) (f : Formula) :
    (f.collect keep seen).find? p = (seen.find? p).or ((f.leaves.filter keep).find? p) := by
  induction f generalizing seen with
  | var name =>
    by_cases hkeep : keep name = true
    · by_cases hseen : name ∈ seen
      · -- if the name has the property, then one that was there has it
        have hfound : p name = true → (seen.find? p).isSome = true := fun hp =>
          List.find?_isSome.mpr ⟨name, hseen, hp⟩
        cases hfind : seen.find? p with
        | some x => simp [collect, leaves, hkeep, hseen, hfind]
        | none => simpa [collect, leaves, hkeep, hseen, hfind] using hfound
      · simp [collect, leaves, hkeep, hseen, List.find?_append]
    · simp [collect, leaves, hkeep]
  | neg f ih => exact ih seen
  | bin op l r ihl ihr =>
    rw [collect, ihr, ihl, leaves, List.filter_append, List.find?_append, Option.or_assoc]

/-- The metavariable that is reported missing is the first one among the leaves that stands for
nothing. -/
theorem instantiate_eq_error_iff_leaves {u : Unassigned} :
    S.instantiate s = .error u ↔
      (S.leaves.filter isMetavariable).find? (fun m => !s.has m) = some u.name := by
  induction S generalizing u with
  | var name =>
    obtain ⟨x⟩ := u
    by_cases hm : isMetavariable name = true
    · rw [instantiate, if_pos hm]
      cases hs : s.get? name <;> simp [leaves, hm, Table.has, hs]
    · simp [instantiate, leaves, hm]
  | neg f ih =>
    rw [leaves, ← ih, instantiate]
    cases f.instantiate s <;> simp
  | bin op l r ihl ihr =>
    rw [leaves, List.filter_append, List.find?_append, instantiate]
    cases hl : l.instantiate s with
    | error e =>
      obtain ⟨x⟩ := e
      obtain ⟨y⟩ := u
      simp [ihl.mp hl]
    | ok l' =>
      -- nothing is missing on the left, so the right side is looked at
      have hnone : (l.leaves.filter isMetavariable).find? (fun m => !s.has m) = none := by
        rw [Option.eq_none_iff_forall_ne_some]
        intro x hx
        rw [(ihl (u := ⟨x⟩)).mpr hx] at hl
        cases hl
      rw [hnone, Option.none_or, ← ihr]
      cases r.instantiate s <;> simp

theorem instantiate_eq_error_iff {u : Unassigned} :
    S.instantiate s = .error u ↔ S.metavariables.find? (fun m => !s.has m) = some u.name := by
  rw [instantiate_eq_error_iff_leaves, metavariables, find?_collect, List.find?_nil,
    Option.none_or]

/-- Putting formulas in fails exactly if some metavariable stands for nothing. -/
theorem exists_instantiate_eq_error_iff :
    (∃ u, S.instantiate s = .error u) ↔ ∃ m ∈ S.metavariables, s.has m = false := by
  simp only [instantiate_eq_error_iff]
  constructor
  · rintro ⟨u, hu⟩
    exact ⟨u.name, List.mem_of_find?_eq_some hu, by simpa using List.find?_some hu⟩
  · rintro ⟨m, hm, hmissing⟩
    have hsome : (S.metavariables.find? fun m => !s.has m).isSome = true :=
      List.find?_isSome.mpr ⟨m, hm, by simp [hmissing]⟩
    obtain ⟨x, hx⟩ := Option.isSome_iff_exists.mp hsome
    exact ⟨⟨x⟩, hx⟩

/-- There is an instance exactly if every metavariable of the schema stands for a formula. -/
theorem exists_instantiate_iff :
    (∃ F, S.instantiate s = .ok F) ↔ ∀ m ∈ S.metavariables, s.has m = true := by
  have hfails := exists_instantiate_eq_error_iff (S := S) (s := s)
  cases h : S.instantiate s with
  | error u =>
    obtain ⟨m, hm, hmissing⟩ := hfails.mp ⟨u, h⟩
    simp only [reduceCtorEq, exists_false, false_iff]
    intro hall
    rw [hall m hm] at hmissing
    cases hmissing
  | ok F =>
    simp only [h, reduceCtorEq, exists_false, false_iff] at hfails
    refine ⟨fun _ m hm => ?_, fun _ => ⟨F, rfl⟩⟩
    rw [← Bool.not_eq_false]
    exact fun hmissing => hfails ⟨m, hm, hmissing⟩

/-! ## All passes agree -/

/-- Names are listed by first occurrence. The variables of a formula are its leaves from left to
right, each where it first occurs and none twice, and the metavariables are those of them that are
metavariables. Putting formulas in fails exactly if one of the metavariables stands for nothing, and
the first such name in their list is reported. The variables of several formulas are their leaves
one formula after the other, each where it first occurs. -/
theorem names_by_first_occurrence (f : Formula) :
    (f.vars = f.leaves.eraseDups ∧ f.vars.Nodup) ∧
    f.metavariables = f.vars.filter isMetavariable ∧
    (∀ s : Substitution,
      ((∃ u, f.instantiate s = .error u) ↔ ∃ m ∈ f.metavariables, s.has m = false) ∧
      ∀ u, f.instantiate s = .error u ↔
        f.metavariables.find? (fun m => !s.has m) = some u.name) ∧
    ∀ fs : List Formula, varsOf fs = (fs.flatMap leaves).eraseDups := by
  refine ⟨⟨vars_eq_eraseDups f, nodup_collect List.nodup_nil⟩, metavariables_eq_filter_vars f,
    fun s => ⟨exists_instantiate_eq_error_iff, fun u => instantiate_eq_error_iff⟩,
    varsOf_eq_eraseDups⟩

end Propositional.Formula
