import Mathlib.Data.List.Basic
import Propositional.Proofs.Matching
import Propositional.Proofs.Names

/-!
# What a match binds

Matching threads a substitution through the schema from left to right and adds to it at its end
what it binds: one formula for each metavariable of the schema that was not bound before, in the
order of their first occurrence. Nothing else could have been bound, since every substitution
which makes the formula of the schema, and agrees with the one that the matching started from,
binds these metavariables to the same formulas. So the result of a match is the most general
substitution that makes the formula.

## Main definitions

* `Table.cut`: a table cut down to some names

## Main results

* `Table.get?_cut`, `Table.names_cut`: values and names of a table that was cut down
* `Formula.names_of_matchWith`, `Formula.exists_append_of_matchWith`: the names that are bound
* `Formula.matchWith_mostGeneral`: matching is sound, complete and most general
-/

namespace Propositional

/-! ## Tables cut down to some names -/

namespace Table

variable {α : Type} {s t : Table α}

/-- The values that a table gives to some names, in the order of these names. -/
def cut (t : Table α) (names : List String) : Table α :=
  names.filterMap fun x => (t.get? x).map fun a => (x, a)

theorem cut_cons_of_none {y : String} (hy : t.get? y = none) (names : List String) :
    t.cut (y :: names) = t.cut names := by
  rw [cut, List.filterMap_cons, hy]
  rfl

theorem cut_cons_of_some {y : String} {a : α} (hy : t.get? y = some a) (names : List String) :
    t.cut (y :: names) = (y, a) :: t.cut names := by
  rw [cut, List.filterMap_cons, hy]
  rfl

theorem get?_cut (t : Table α) (names : List String) (x : String) :
    (t.cut names).get? x = if x ∈ names then t.get? x else none := by
  induction names with
  | nil => rfl
  | cons y names ih =>
    cases hy : t.get? y with
    | none =>
      -- the name has no value, so it is left out
      rw [cut_cons_of_none hy, ih]
      by_cases hx : x = y
      · simp [hx, hy]
      · simp [hx]
    | some a =>
      rw [cut_cons_of_some hy, get?_cons, ih]
      by_cases hx : x = y
      · simp [hx, hy]
      · simp [hx]

/-- A table that gives values to all the names has, cut down to them, these names. -/
theorem names_cut {names : List String} (h : ∀ x ∈ names, t.has x = true) :
    (t.cut names).names = names := by
  induction names with
  | nil => rfl
  | cons y names ih =>
    obtain ⟨hy, hnames⟩ := List.forall_mem_cons.mp h
    obtain ⟨a, ha⟩ := Option.isSome_iff_exists.mp hy
    rw [cut_cons_of_some ha]
    exact congrArg (y :: ·) (ih hnames)

/-- A name that is listed once has the value that stands with it. -/
theorem get?_of_mem (hs : s.names.Nodup) {x : String} {a : α} (h : (x, a) ∈ s) :
    s.get? x = some a := by
  induction s with
  | nil => cases h
  | cons p s ih =>
    obtain ⟨n, b⟩ := p
    obtain ⟨hn, hs⟩ := List.nodup_cons.mp hs
    rw [get?_cons]
    rcases List.mem_cons.mp h with heq | hmem
    · cases heq
      exact if_pos rfl
    · -- the name stands further on, so it is not the first one
      have hne : x ≠ n := by
        rintro rfl
        exact hn (List.mem_map.mpr ⟨(x, a), hmem, rfl⟩)
      rw [if_neg hne]
      exact ih hs hmem

/-- Of names and values listed side by side, a name that is listed once has the value in its
place. -/
theorem get?_zip {names : List String} {values : List α} {i : Nat} {x : String} {a : α}
    (h : names.Nodup) (hlength : values.length = names.length) (hx : names[i]? = some x)
    (ha : values[i]? = some a) : Table.get? (names.zip values) x = some a := by
  apply get?_of_mem
  · rw [Table.names, List.map_fst_zip (Nat.le_of_eq hlength.symm)]
    exact h
  · apply List.mem_of_getElem? (i := i)
    rw [List.getElem?_zip_eq_some]
    exact ⟨hx, ha⟩

/-- A table that lists no name twice is what any of its extensions says about its names. -/
theorem Extends.cut_names (hts : t.Extends s) (hs : s.names.Nodup) : t.cut s.names = s := by
  have hvalues : ∀ p ∈ s, (t.get? p.1).map (fun a => (p.1, a)) = some p := by
    intro p hp
    rw [hts p.1 p.2 (get?_of_mem hs hp)]
    rfl
  rw [cut, names, List.filterMap_map]
  exact (List.filterMap_congr hvalues).trans List.filterMap_some

end Table

namespace Formula

variable {S T : Formula} {s r t : Substitution}

/-! ## The names that are bound -/

/-- Matching adds to the names of the substitution those of the metavariables of the schema. -/
theorem names_of_matchWith (h : S.matchWith T s = some r) :
    r.names = S.collect isMetavariable s.names := by
  induction S generalizing T s r with
  | var name =>
    by_cases hm : isMetavariable name = true
    · rcases (matchWith_metavariable hm).mp h with ⟨hs, rfl⟩ | ⟨hs, rfl⟩
      · have hnew : name ∉ s.names := Table.get?_eq_none_iff.mp hs
        rw [Table.names_set, if_neg hnew]
        simp [collect, hm, hnew]
      · -- the metavariable is bound already
        have hold : name ∈ r.names := by
          by_contra hnot
          rw [Table.get?_eq_none_iff.mpr hnot] at hs
          cases hs
        simp [collect, hold]
    · obtain ⟨-, rfl⟩ := (matchWith_var (by simpa using hm)).mp h
      simp [collect, hm]
  | neg f ih =>
    obtain ⟨g, -, hg⟩ := matchWith_neg.mp h
    exact ih hg
  | bin op f g ihf ihg =>
    obtain ⟨f', g', s', -, hf, hg⟩ := matchWith_bin.mp h
    rw [ihg hg, ihf hf]
    rfl

/-- Whatever is bound is added at the end. -/
theorem exists_append_of_matchWith (h : S.matchWith T s = some r) :
    ∃ added : Substitution, r = s ++ added := by
  induction S generalizing T s r with
  | var name =>
    by_cases hm : isMetavariable name = true
    · rcases (matchWith_metavariable hm).mp h with ⟨hs, rfl⟩ | ⟨-, rfl⟩
      · exact ⟨[(name, T)], Table.set_eq_append (Table.get?_eq_none_iff.mp hs) T⟩
      · exact ⟨[], (List.append_nil _).symm⟩
    · obtain ⟨-, rfl⟩ := (matchWith_var (by simpa using hm)).mp h
      exact ⟨[], (List.append_nil _).symm⟩
  | neg f ih =>
    obtain ⟨g, -, hg⟩ := matchWith_neg.mp h
    exact ih hg
  | bin op f g ihf ihg =>
    obtain ⟨f', g', s', -, hf, hg⟩ := matchWith_bin.mp h
    obtain ⟨added, rfl⟩ := ihf hf
    obtain ⟨more, rfl⟩ := ihg hg
    exact ⟨added ++ more, List.append_assoc _ _ _⟩

/-- Matching adds the metavariables of the schema that were not bound, in their order. -/
theorem exists_names_of_matchWith (h : S.matchWith T s = some r) :
    ∃ added : Substitution, r = s ++ added ∧
      added.names = S.metavariables.filter fun x => !s.has x := by
  obtain ⟨added, rfl⟩ := exists_append_of_matchWith h
  refine ⟨added, rfl, ?_⟩
  have hnames : s.names ++ added.names =
      s.names ++ S.metavariables.filter fun x => !s.names.contains x := by
    rw [← Table.names_append, names_of_matchWith h, collect_eq_append]
    rfl
  have hhas : ∀ x, s.has x = s.names.contains x := by
    intro x
    rw [Bool.eq_iff_iff, Table.has_iff_mem_names, List.contains_iff_mem]
  simp only [hhas]
  exact List.append_cancel_left hnames

/-- After a match all metavariables of the schema are bound. -/
theorem has_of_matchWith (h : S.matchWith T s = some r) {x : String} (hx : x ∈ S.metavariables) :
    r.has x = true := by
  rw [Table.has_iff_mem_names, names_of_matchWith h, mem_collect]
  exact .inr (mem_metavariables.mp hx)

/-! ## Most general matches -/

/-- Whatever makes the formula of the schema, and agrees with the substitution that the matching
started from, extends the one that it ends with. -/
theorem extends_of_instantiate (h : S.matchWith T s = some r) (hts : t.Extends s)
    (ht : S.instantiate t = .ok T) : t.Extends r := by
  obtain ⟨r', hr', htr'⟩ := exists_matchWith hts ht
  rw [h] at hr'
  cases hr'
  exact htr'

theorem get?_eq_of_instantiate (h : S.matchWith T s = some r) (hts : t.Extends s)
    (ht : S.instantiate t = .ok T) {x : String} (hx : x ∈ S.metavariables) :
    t.get? x = r.get? x := by
  obtain ⟨f, hf⟩ := Option.isSome_iff_exists.mp (has_of_matchWith h hx)
  rw [hf]
  exact extends_of_instantiate h hts ht x f hf

/-- A match that starts from nothing finds what makes the formula, cut down to the metavariables
of the schema. -/
theorem matchWith_nil_of_instantiate (ht : S.instantiate t = .ok T) :
    S.matchWith T [] = some (t.cut S.metavariables) := by
  obtain ⟨r, hr, htr⟩ := exists_matchWith (Table.extends_nil t) ht
  have hnames : r.names = S.metavariables := names_of_matchWith hr
  have hcut : t.cut r.names = r := by
    apply htr.cut_names
    rw [hnames]
    exact nodup_metavariables S
  rw [hr, ← hnames, hcut]

/-- Matching a schema against a formula succeeds exactly if some substitution that agrees with the
one to start from makes the formula of the schema. It then adds to that one, at its end, bindings of
the metavariables that were not bound, in the order of their first occurrence. What it returns makes
the formula, and binds the metavariables as every other such substitution does. In particular, what
makes an instance is found again, as far as the schema has metavariables for it. -/
theorem matchWith_mostGeneral (S T : Formula) (s : Substitution) :
    ((∃ r, S.matchWith T s = some r) ↔
      ∃ t : Substitution, t.Extends s ∧ S.instantiate t = .ok T) ∧
    (∀ r, S.matchWith T s = some r →
      (∃ added : Substitution, r = s ++ added ∧
        added.names = S.metavariables.filter fun x => !s.has x) ∧
      S.instantiate r = .ok T ∧
      ∀ t : Substitution, t.Extends s → S.instantiate t = .ok T →
        ∀ x ∈ S.metavariables, t.get? x = r.get? x) ∧
    ∀ t : Substitution, S.instantiate t = .ok T →
      S.matchWith T [] = some (t.cut S.metavariables) := by
  refine ⟨⟨?_, ?_⟩, ?_, ?_⟩
  · rintro ⟨r, hr⟩
    exact ⟨r, extends_of_matchWith hr, instantiate_of_matchWith hr⟩
  · rintro ⟨t, hts, ht⟩
    obtain ⟨r, hr, -⟩ := exists_matchWith hts ht
    exact ⟨r, hr⟩
  · intro r hr
    refine ⟨exists_names_of_matchWith hr, instantiate_of_matchWith hr, ?_⟩
    intro t hts ht x hx
    exact get?_eq_of_instantiate hr hts ht hx
  · intro t ht
    exact matchWith_nil_of_instantiate ht

/-- A metavariable that is bound before stays in its place, also if the schema never names it, and
one that occurs again must meet the same formula. -/
example :
    (imp (var "α") (imp (var "β") (var "α"))).matchWith
        (imp (var "α") (imp (neg (var "B")) (var "α"))) [("γ", var "C"), ("β", neg (var "B"))] =
      some [("γ", var "C"), ("β", neg (var "B")), ("α", var "α")] ∧
    (imp (var "α") (var "α")).matchWith (imp (var "A") (var "B")) [] = none := by
  decide

end Formula

end Propositional
