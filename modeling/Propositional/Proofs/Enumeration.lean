import Mathlib.Data.List.Nodup
import Propositional.Proofs.Matching
import Propositional.Proofs.Names

/-!
# Enumeration of valuations

The valuations of a list of names can be listed row by row, or name by name: each name doubles the
number of valuations, false before true. Both lists are the same, so a search that goes through the
names may be compared with one that goes through the rows. Every valuation of the names is listed,
and none twice.

Further values change no value that evaluation has found already. A search may therefore stop at
a valuation of some of the names if this decides the question.

## Main definitions

* `Valuation.completions`: the valuations that give values to further names

## Main results

* `Formula.evaluate_of_extends`: a value that is found stays the same
* `Valuation.exists_mem_completions`: every assignment is listed
* `Valuation.all_eq_completions`: both lists are the same
* `Valuation.mem_all_iff`, `Valuation.nodup_all`: every valuation of the names is listed once
* `Valuation.names_of_mem_sampled`: samples give values to all names
-/

namespace Propositional

/-! ## One step of evaluation -/

namespace Formula

variable {v w : Valuation} {b : Bool}

theorem evaluate_var {name : String} :
    (var name).evaluate v = .ok b ↔ v.get? name = some b := by
  rw [evaluate]
  cases v.get? name <;> simp

theorem evaluate_neg {f : Formula} : (neg f).evaluate v = .ok b ↔ f.evaluate v = .ok !b := by
  rw [evaluate]
  cases f.evaluate v with
  | error u => simp
  | ok a => cases a <;> cases b <;> simp

theorem evaluate_bin {op : Connective} {l r : Formula} :
    (bin op l r).evaluate v = .ok b ↔
      ∃ a, l.evaluate v = .ok a ∧
        (op.decided? a = some b ∨
          op.decided? a = none ∧ ∃ c, r.evaluate v = .ok c ∧ op.apply a c = b) := by
  rw [evaluate]
  cases l.evaluate v with
  | error u => simp
  | ok a =>
    cases hd : op.decided? a with
    | some c => simp [hd]
    | none => cases r.evaluate v <;> simp [hd]

/-- A value that evaluation finds is found under every valuation that extends the one it was found
under. -/
theorem evaluate_of_extends (hwv : w.Extends v) {f : Formula} (h : f.evaluate v = .ok b) :
    f.evaluate w = .ok b := by
  induction f generalizing b with
  | var name => exact evaluate_var.mpr (hwv name b (evaluate_var.mp h))
  | neg f ih => exact evaluate_neg.mpr (ih (evaluate_neg.mp h))
  | bin op l r ihl ihr =>
    obtain ⟨a, ha, hdecided | ⟨hopen, c, hc, hb⟩⟩ := evaluate_bin.mp h
    · exact evaluate_bin.mpr ⟨a, ihl ha, .inl hdecided⟩
    · exact evaluate_bin.mpr ⟨a, ihl ha, .inr ⟨hopen, c, ihr hc, hb⟩⟩

end Formula

namespace Valuation

variable {v w : Valuation} {names : List String} {x : String}

/-! ## Name by name -/

/-- All valuations that give values to further names beside `v`, counting up from all false. -/
def completions : List String → Valuation → List Valuation
  | [], v => [v]
  | x :: xs, v => completions xs (v.set x false) ++ completions xs (v.set x true)

/-- A valuation with a list of further names, none of which it has already. -/
theorem not_mem_of_nodup {xs : List String} (h : (v.names ++ x :: xs).Nodup) : x ∉ v.names :=
  fun hx => (List.nodup_append.mp h).2.2 x hx x List.mem_cons_self rfl

/-- The name in front of the further names becomes the last of those that have values. -/
theorem names_set_append (hx : x ∉ v.names) (b : Bool) (xs : List String) :
    (v.set x b).names ++ xs = v.names ++ x :: xs := by
  rw [Table.names_set, if_neg hx, List.append_assoc]
  rfl

theorem mem_completions_cons {xs : List String} :
    w ∈ completions (x :: xs) v ↔ ∃ b, w ∈ completions xs (v.set x b) := by
  rw [completions, List.mem_append]
  constructor
  · rintro (hw | hw)
    · exact ⟨false, hw⟩
    · exact ⟨true, hw⟩
  · rintro ⟨_ | _, hw⟩
    · exact .inl hw
    · exact .inr hw

theorem names_of_mem_completions (h : (v.names ++ names).Nodup) (hw : w ∈ completions names v) :
    w.names = v.names ++ names := by
  induction names generalizing v with
  | nil =>
    obtain rfl := List.mem_singleton.mp hw
    exact (List.append_nil _).symm
  | cons x xs ih =>
    obtain ⟨b, hw⟩ := mem_completions_cons.mp hw
    have hnames := names_set_append (not_mem_of_nodup h) b xs
    rw [← hnames] at h ⊢
    exact ih h hw

theorem extends_of_mem_completions (h : (v.names ++ names).Nodup) (hw : w ∈ completions names v) :
    w.Extends v := by
  induction names generalizing v with
  | nil =>
    obtain rfl := List.mem_singleton.mp hw
    exact Table.Extends.refl w
  | cons x xs ih =>
    obtain ⟨b, hw⟩ := mem_completions_cons.mp hw
    have hx := not_mem_of_nodup h
    rw [← names_set_append hx b xs] at h
    exact (ih h hw).trans (Table.extends_set (Table.get?_eq_none_iff.mpr hx) b)

/-- Every assignment of values to the names is listed. -/
theorem exists_mem_completions (u : String → Bool) (h : (v.names ++ names).Nodup) :
    ∃ w ∈ completions names v, ∀ x ∈ names, w.get? x = some (u x) := by
  induction names generalizing v with
  | nil => exact ⟨v, List.mem_singleton.mpr rfl, List.forall_mem_nil _⟩
  | cons x xs ih =>
    rw [← names_set_append (not_mem_of_nodup h) (u x) xs] at h
    obtain ⟨w, hw, hxs⟩ := ih h
    refine ⟨w, mem_completions_cons.mpr ⟨u x, hw⟩, List.forall_mem_cons.mpr ⟨?_, hxs⟩⟩
    -- the value of the first name was set before the others and is kept
    apply extends_of_mem_completions h hw
    rw [Table.get?_set, if_pos rfl]

/-! ## Row by row -/

/-- The rows are all rows of their length. -/
theorem mem_rows {n : Nat} {bits : List Bool} : bits ∈ rows n ↔ bits.length = n := by
  induction n generalizing bits with
  | zero => rw [rows, List.mem_singleton, List.length_eq_zero_iff]
  | succ n ih =>
    rw [rows, List.mem_append, List.mem_map, List.mem_map]
    cases bits with
    | nil => simp
    | cons b bits => cases b <;> simp [ih]

theorem nodup_rows (n : Nat) : (rows n).Nodup := by
  induction n with
  | zero => exact List.nodup_singleton []
  | succ n ih =>
    have hcons : ∀ b, ((rows n).map (b :: ·)).Nodup :=
      fun b => ih.map (List.cons_injective (a := b))
    refine (hcons false).append (hcons true) fun bits hfalse htrue => ?_
    -- the rows of the two halves differ in their first value
    obtain ⟨_, -, rfl⟩ := List.mem_map.mp hfalse
    obtain ⟨_, -, heq⟩ := List.mem_map.mp htrue
    cases heq

theorem completions_eq_map_rows (h : (v.names ++ names).Nodup) :
    completions names v = (rows names.length).map fun bits => v ++ names.zip bits := by
  induction names generalizing v with
  | nil => simp [completions, rows]
  | cons x xs ih =>
    have hx := not_mem_of_nodup h
    have hset : ∀ b, completions xs (v.set x b) =
        (rows xs.length).map fun bits => v ++ (x :: xs).zip (b :: bits) := by
      intro b
      rw [ih (by rwa [names_set_append hx]), Table.set_eq_append hx]
      simp
    rw [completions, hset, hset, List.length_cons, rows, List.map_append, List.map_map,
      List.map_map]
    rfl

/-- A row of values for different names is a table as it stands. -/
theorem ofPairs_zip {bits : List Bool} (h : names.Nodup) (hbits : bits.length = names.length) :
    Table.ofPairs (names.zip bits) = names.zip bits := by
  apply Table.ofPairs_eq_self
  rwa [List.map_fst_zip (Nat.le_of_eq hbits.symm)]

/-- Row by row and name by name the same valuations are listed. -/
theorem all_eq_completions (h : names.Nodup) : all names = completions names [] := by
  rw [completions_eq_map_rows (by simpa [Table.names] using h), all]
  refine List.map_congr_left fun bits hbits => ?_
  rw [ofPairs_zip h (mem_rows.mp hbits), List.nil_append]

theorem names_of_mem_all (h : names.Nodup) (hw : w ∈ all names) : w.names = names := by
  rw [all_eq_completions h] at hw
  exact names_of_mem_completions (by simpa [Table.names] using h) hw

/-- All valuations of the names are listed. -/
theorem mem_all_iff (h : names.Nodup) : w ∈ all names ↔ w.names = names := by
  refine ⟨names_of_mem_all h, ?_⟩
  rintro rfl
  have hlength : (w.map Prod.snd).length = w.names.length := by simp [Table.names]
  have hzip : w.names.zip (w.map Prod.snd) = w := (List.zip_of_prod rfl rfl).symm
  refine List.mem_map.mpr ⟨w.map Prod.snd, mem_rows.mpr hlength, ?_⟩
  rw [ofPairs_zip h hlength, hzip]

theorem nodup_all (h : names.Nodup) : (all names).Nodup := by
  refine (nodup_rows names.length).map_on fun bits hbits bits' hbits' heq => ?_
  have hlength := mem_rows.mp hbits
  have hlength' := mem_rows.mp hbits'
  rw [ofPairs_zip h hlength, ofPairs_zip h hlength'] at heq
  have hvalues := congrArg (List.map Prod.snd) heq
  rwa [List.map_snd_zip (Nat.le_of_eq hlength), List.map_snd_zip (Nat.le_of_eq hlength')]
    at hvalues

/-- Every assignment of values to all names is, as far as it goes, among the valuations of some
of them. -/
theorem exists_mem_all_agreesWith (u : String → Bool) (h : names.Nodup) :
    ∃ w ∈ all names, w.AgreesWith u := by
  have hnodup : (Table.names ([] : Valuation) ++ names).Nodup := by simpa [Table.names] using h
  obtain ⟨w, hw, hvalues⟩ := exists_mem_completions u hnodup
  rw [← all_eq_completions h] at hw
  refine ⟨w, hw, fun x b hb => ?_⟩
  have hx : x ∈ names := by
    rw [← names_of_mem_all h hw, ← Table.has_iff_mem_names, Table.has, hb]
    rfl
  rw [hvalues x hx] at hb
  exact Option.some.inj hb

/-! ## Samples -/

/-- A counter that has a bit has one for every name: that of the name's number modulo the width. -/
theorem bitOf_eq_ok {width : Int} (hwidth : 1 ≤ width) (i : Nat) :
    bitOf width i = .ok (i % width.toNat) := by
  have hmod : Int.fmod i width = (i % width.toNat : Nat) := by
    rw [Int.fmod_eq_emod_of_nonneg _ (by omega), Int.natCast_emod, Int.toNat_of_nonneg (by omega)]
  rw [bitOf, hmod, if_neg (by omega), if_neg (by omega), Int.toNat_natCast]

theorem bitsFrom_eq_ok {width : Int} (hwidth : 1 ≤ width) (i : Nat) (names : List String) :
    bitsFrom width i names = .ok ((List.range' i names.length).map (· % width.toNat)) := by
  induction names generalizing i with
  | nil => rfl
  | cons x names ih => rw [bitsFrom, bitOf_eq_ok hwidth, ih, List.length_cons, List.range'_succ,
      List.map_cons]

theorem exists_bitsFrom {width : Int} (hwidth : 1 ≤ width) (i : Nat)
    (names : List String) : ∃ bits, bitsFrom width i names = .ok bits :=
  ⟨_, bitsFrom_eq_ok hwidth i names⟩

theorem length_of_bitsFrom {width : Int} {i : Nat} {bits : List Nat}
    (h : bitsFrom width i names = .ok bits) : bits.length = names.length := by
  induction names generalizing i bits with
  | nil =>
    cases h
    rfl
  | cons x names ih =>
    unfold bitsFrom at h
    split at h
    · cases h
    split at h
    · cases h
    next bs hbs =>
    cases h
    rw [List.length_cons, List.length_cons, ih hbs]

theorem names_ofCounter (h : names.Nodup) {bits : List Nat} (hbits : bits.length = names.length)
    (counter : Nat) : (ofCounter names bits counter).names = names := by
  have hlength : (bits.map counter.testBit).length = names.length := by
    rw [List.length_map, hbits]
  rw [ofCounter, ofPairs_zip h hlength]
  exact List.map_fst_zip (Nat.le_of_eq hlength.symm)

/-- Samples give values to all names. -/
theorem names_of_mem_sampled {samples width : Int} {vs : List Valuation} (h : names.Nodup)
    (hvs : sampled names samples width = .ok vs) (hw : w ∈ vs) : w.names = names := by
  unfold sampled at hvs
  split at hvs
  · cases hvs
    cases hw
  · split at hvs
    · cases hvs
    · next bits hbits =>
      cases hvs
      obtain ⟨counter, -, rfl⟩ := List.mem_map.mp hw
      exact names_ofCounter h (length_of_bitsFrom hbits) counter

/-! ## Values for all variables -/

theorem covers_of_subset {f : Formula} (h : ∀ x ∈ f.leaves, x ∈ w.names) : w.Covers f :=
  fun x hx => Table.has_iff_mem_names.mpr (h x hx)

/-- A valuation of the variables of formulas gives a value to every variable of each of them. -/
theorem covers_of_listsNames {fs : List Formula} (h : Formula.ListsNames names fs)
    (hw : w.names = names) : ∀ f ∈ fs, w.Covers f := by
  intro f hf
  apply covers_of_subset
  intro x hx
  rw [hw]
  exact (h.2 x).mpr ⟨f, hf, hx⟩

end Valuation

end Propositional
