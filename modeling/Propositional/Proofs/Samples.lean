import Mathlib.Algebra.Group.Nat.Defs
import Mathlib.Data.List.Perm.Subperm
import Propositional.Proofs.Bindings
import Propositional.Proofs.Search

/-!
# Samples without repetition

A sample reads the values of the names off the bits of a counter. The counter has a width, and the
bits are given out in turn: names whose numbers agree modulo the width share a bit. The first names,
as many as the width, have a bit each. As long as the counter stays below two to the width it is
known by these bits, so that no two samples are the same; and when it has gone through all of its
values, every assignment of the first names has occurred, since there are no more of them.

## Main definitions

* `Valuation.sample`: the valuation that a value of the counter gives
* `Valuation.Differs`: two valuations that give different values to a name

## Main results

* `Valuation.get?_sample`: the value of a name in a sample
* `Valuation.exists_get?_sample_ne`: different values of the counter give different samples
* `Valuation.perm_all_of_samples`: all values of the counter give all assignments of the first names
* `Entailment.pairwise_countermodels`: no countermodel is reported twice
* `Valuation.sampled_spreads`: samples spread over the valuations without repetition
-/

namespace Propositional

namespace Valuation

variable {names : List String} {v v' : Valuation} {i width counter counter' : Nat} {x : String}

/-! ## The value of a name in a sample -/

/-- The valuation that a value of a counter gives, each name reading the bit of its number modulo
the width of the counter. -/
def sample (names : List String) (width counter : Nat) : Valuation :=
  ofCounter names ((List.range names.length).map (· % width)) counter

/-- The valuations that the first values of a counter give. -/
def samples (names : List String) (width count : Nat) : List Valuation :=
  (List.range count).map (sample names width)

theorem sampled_eq_ok {count width : Int} (hwidth : 1 ≤ width) :
    sampled names count width = .ok (samples names width.toNat count.toNat) := by
  rw [sampled]
  split
  · next hnone =>
    rw [Int.toNat_of_nonpos hnone]
    rfl
  · rw [bitsFrom_eq_ok hwidth, ← List.range_eq_range']
    rfl

theorem names_sample (h : names.Nodup) (width counter : Nat) :
    (sample names width counter).names = names :=
  names_ofCounter h (by simp) counter

theorem get?_sample (h : names.Nodup) (hi : names[i]? = some x) :
    (sample names width counter).get? x = some (counter.testBit (i % width)) := by
  have hbits : (((List.range names.length).map (· % width)).map counter.testBit).length =
      names.length := by simp
  have hlt := (List.getElem?_eq_some_iff.mp hi).1
  rw [sample, ofCounter, ofPairs_zip h hbits]
  exact Table.get?_zip h hbits hi (by simp [hlt])

/-! ## Different samples -/

/-- Two valuations give different values to a name, or a value is given by one of them only. -/
def Differs (v v' : Valuation) : Prop :=
  ∃ x, v.get? x ≠ v'.get? x

/-- Different values of the counter below two to the width differ in a bit that one of the first
names reads. -/
theorem exists_get?_sample_ne (h : names.Nodup) (hwidth : width ≤ names.length)
    (hlt : counter < 2 ^ width) (hlt' : counter' < 2 ^ width) (hne : counter ≠ counter') :
    ∃ x ∈ names.take width,
      (sample names width counter).get? x ≠ (sample names width counter').get? x := by
  obtain ⟨i, hi⟩ := Nat.exists_testBit_ne_of_ne hne
  have hiw : i < width := by
    -- from the width on all bits are zero
    by_contra hle
    have hpow : 2 ^ width ≤ 2 ^ i := Nat.pow_le_pow_right (by decide) (by omega)
    rw [Nat.testBit_lt_two_pow (Nat.lt_of_lt_of_le hlt hpow),
      Nat.testBit_lt_two_pow (Nat.lt_of_lt_of_le hlt' hpow)] at hi
    exact hi rfl
  have hget : names[i]? = some names[i] := List.getElem?_eq_getElem (by omega)
  refine ⟨names[i], List.mem_take_iff_getElem.mpr ⟨i, by omega, rfl⟩, ?_⟩
  rw [get?_sample h hget, get?_sample h hget, Nat.mod_eq_of_lt hiw]
  exact fun heq => hi (Option.some.inj heq)

/-- As long as the counter stays below two to the width, the samples differ in the first names. -/
theorem pairwise_samples (h : names.Nodup) (hwidth : width ≤ names.length) {count : Nat}
    (hcount : count ≤ 2 ^ width) :
    (samples names width count).Pairwise
      fun v v' => ∃ x ∈ names.take width, v.get? x ≠ v'.get? x := by
  refine List.pairwise_map.mpr (List.nodup_range.imp_of_mem fun hc hc' hne => ?_)
  have hlt := List.mem_range.mp hc
  have hlt' := List.mem_range.mp hc'
  exact exists_get?_sample_ne h hwidth (by omega) (by omega) hne

/-! ## All samples -/

theorem length_rows (n : Nat) : (rows n).length = 2 ^ n := by
  induction n with
  | zero => rfl
  | succ n ih =>
    rw [rows, List.length_append, List.length_map, List.length_map, ih, Nat.pow_succ]
    omega

theorem length_all (names : List String) : (all names).length = 2 ^ names.length := by
  rw [all, List.length_map, length_rows]

/-- A sample gives an assignment of the first names. -/
theorem cut_sample_mem_all (h : names.Nodup) (width counter : Nat) :
    Table.cut (sample names width counter) (names.take width) ∈ all (names.take width) := by
  refine (mem_all_iff (h.sublist (List.take_sublist width names))).mpr ?_
  apply Table.names_cut
  intro x hx
  rw [Table.has_iff_mem_names, names_sample h]
  exact List.mem_of_mem_take hx

/-- The samples give different assignments of the first names. -/
theorem nodup_map_cut_samples (h : names.Nodup) (hwidth : width ≤ names.length) :
    ((samples names width (2 ^ width)).map fun v => Table.cut v (names.take width)).Nodup := by
  refine List.pairwise_map.mpr ((pairwise_samples h hwidth (Nat.le_refl _)).imp ?_)
  rintro v v' ⟨x, hx, hne⟩ heq
  apply hne
  calc v.get? x
    _ = (Table.cut v (names.take width)).get? x := by rw [Table.get?_cut, if_pos hx]
    _ = (Table.cut v' (names.take width)).get? x := by rw [heq]
    _ = v'.get? x := by rw [Table.get?_cut, if_pos hx]

/-- When the counter has gone through all of its values, every assignment of the first names has
occurred: the assignments that occur are all different, and as many as there are. -/
theorem perm_all_of_samples (h : names.Nodup) (hwidth : width ≤ names.length) :
    ((samples names width (2 ^ width)).map fun v => Table.cut v (names.take width)).Perm
      (all (names.take width)) := by
  have hsubset : ((samples names width (2 ^ width)).map
      fun v => Table.cut v (names.take width)) ⊆ all (names.take width) := by
    intro u hu
    obtain ⟨v, hv, rfl⟩ := List.mem_map.mp hu
    obtain ⟨counter, -, rfl⟩ := List.mem_map.mp hv
    exact cut_sample_mem_all h width counter
  have hsubperm := List.subperm_of_subset (nodup_map_cut_samples h hwidth) hsubset
  refine hsubperm.perm_of_length_le (Nat.le_of_eq ?_)
  rw [length_all, List.length_take, Nat.min_eq_left hwidth, List.length_map, samples,
    List.length_map, List.length_range]

/-- Every assignment of the first names occurs exactly once. -/
theorem count_samples (h : names.Nodup) (hwidth : width ≤ names.length) {u : Valuation}
    (hu : u.names = names.take width) :
    ((samples names width (2 ^ width)).map fun v => Table.cut v (names.take width)).count u =
      1 := by
  have hfirst : (names.take width).Nodup := h.sublist (List.take_sublist width names)
  rw [(perm_all_of_samples h hwidth).count_eq u]
  exact List.count_eq_one_of_mem (nodup_all hfirst) ((mem_all_iff hfirst).mpr hu)

/-- If every name has a bit of its own, the samples are all valuations. -/
theorem perm_all_of_length_eq (h : names.Nodup) (hwidth : names.length = width) :
    (samples names width (2 ^ width)).Perm (all names) := by
  have hperm := perm_all_of_samples h (Nat.le_of_eq hwidth.symm)
  rw [List.take_of_length_le (Nat.le_of_eq hwidth), samples, List.map_map] at hperm
  -- a sample has no other names, so it is cut down to itself
  have hcut : (fun v => Table.cut v names) ∘ sample names width = sample names width := by
    funext counter
    have hnames := names_sample h width counter
    have hself := (Table.Extends.refl (sample names width counter)).cut_names (hnames.symm ▸ h)
    rwa [hnames] at hself
  rwa [hcut] at hperm

end Valuation

/-! ## Countermodels among samples -/

namespace Entailment

variable {s : Settings} {premises : List Formula} {conclusion : Formula}

/-- If there are no more samples than values of the counter, no countermodel among them is reported
twice. -/
theorem pairwise_countermodels (hlimit : 1 ≤ s.entailmentLimit)
    (hsamples : s.entailmentSamples ≤ (2 ^ s.entailmentLimit.toNat : Nat)) :
    ∃ e, entails s premises conclusion = .ok e ∧
      (e.exhaustive = false → e.countermodels.Pairwise Valuation.Differs) := by
  obtain ⟨vs, hvs⟩ := exists_space hlimit premises conclusion
  refine ⟨_, entails_eq_ok hlimit hvs, fun hsampled => ?_⟩
  have hmore : ¬ ((vars premises conclusion).length : Int) ≤ s.entailmentLimit :=
    of_decide_eq_false hsampled
  have hspace : vs = Valuation.samples (vars premises conclusion) s.entailmentLimit.toNat
      s.entailmentSamples.toNat := by
    rw [space, if_neg hmore, Valuation.sampled_eq_ok hlimit] at hvs
    exact (Except.ok.inj hvs).symm
  have hdiffer : vs.Pairwise Valuation.Differs := by
    rw [hspace]
    refine (Valuation.pairwise_samples (listsNames_vars premises conclusion).1 (by omega)
      (Int.toNat_le.mpr hsamples)).imp ?_
    rintro v v' ⟨x, -, hne⟩
    exact ⟨x, hne⟩
  exact hdiffer.sublist ((List.take_sublist _ _).trans List.filter_sublist)

end Entailment

/-- Let the counter have a bit, but no more bits than there are names, and let there be no more
samples than the counter has values. Then there are samples, and they differ from each other. Each
gives a value to every name, and the same value to names whose numbers agree modulo the width. If
the counter goes through all of its values, every assignment of the first names occurs exactly once,
so that the samples are all valuations in some order if there are no other names. Hence no
countermodel is reported twice where entailment looks at samples, unless there are more of them than
the counter has values. -/
theorem Valuation.sampled_spreads :
    (∀ (names : List String) (width count : Nat), names.Nodup → 1 ≤ width →
      width ≤ names.length → count ≤ 2 ^ width →
      ∃ vs, sampled names count width = .ok vs ∧ vs.length = count ∧ vs.Pairwise Differs ∧
        (∀ v ∈ vs, v.names = names ∧
          ∀ i j x y, names[i]? = some x → names[j]? = some y → i % width = j % width →
            v.get? x = v.get? y) ∧
        (count = 2 ^ width →
          (∀ u : Valuation, u.names = names.take width →
            (vs.map fun v => Table.cut v (names.take width)).count u = 1) ∧
          (names.length = width → vs.Perm (all names)))) ∧
    ∀ (s : Settings) (premises : List Formula) (conclusion : Formula), 1 ≤ s.entailmentLimit →
      s.entailmentSamples ≤ (2 ^ s.entailmentLimit.toNat : Nat) →
      ∃ e, entails s premises conclusion = .ok e ∧
        (e.exhaustive = false → e.countermodels.Pairwise Differs) := by
  refine ⟨fun names width count h hpos hwidth hcount => ?_, fun s premises conclusion hlimit
    hsamples => Entailment.pairwise_countermodels hlimit hsamples⟩
  refine ⟨samples names width count, sampled_eq_ok (by omega), by simp [samples], ?_, ?_, ?_⟩
  · refine (pairwise_samples h hwidth hcount).imp ?_
    rintro v v' ⟨x, -, hne⟩
    exact ⟨x, hne⟩
  · intro v hv
    obtain ⟨counter, -, rfl⟩ := List.mem_map.mp hv
    refine ⟨names_sample h width counter, fun i j x y hi hj hmod => ?_⟩
    rw [get?_sample h hi, get?_sample h hj, hmod]
  · rintro rfl
    exact ⟨fun u hu => count_samples h hwidth hu, perm_all_of_length_eq h⟩

/-- Of three names the first and the last share a bit of two, of two names each has its own. Both
samples of two names that share the only bit are countermodels, and they differ. -/
theorem Valuation.sampled_spreads_samples :
    (∃ vs, sampled ["A", "B", "C"] 4 2 = .ok vs ∧ vs.length = 4 ∧ vs.Pairwise Differs ∧
      (∀ v ∈ vs, v.get? "A" = v.get? "C") ∧
      ∀ u : Valuation, u.names = ["A", "B"] →
        (vs.map fun v => Table.cut v ["A", "B"]).count u = 1) ∧
    (∃ vs, sampled ["A", "B"] 4 2 = .ok vs ∧ vs.Perm (all ["A", "B"])) ∧
    ∃ e, entails { entailmentLimit := 1, entailmentSamples := 2 } []
        (.and (.var "A") (.neg (.var "B"))) = .ok e ∧
      e.countermodels = [[("A", false), ("B", false)], [("A", true), ("B", true)]] ∧
      e.countermodels.Pairwise Differs := by
  refine ⟨?_, ?_, ?_⟩
  · obtain ⟨vs, hvs, hlength, hdiffer, hshared, hall⟩ :=
      sampled_spreads.1 ["A", "B", "C"] 2 4 (by decide) (by decide) (by decide) (by decide)
    refine ⟨vs, hvs, hlength, hdiffer, fun v hv => ?_, (hall rfl).1⟩
    exact (hshared v hv).2 0 2 "A" "C" rfl rfl rfl
  · obtain ⟨vs, hvs, -, -, -, hall⟩ :=
      sampled_spreads.1 ["A", "B"] 2 4 (by decide) (by decide) (by decide) (by decide)
    exact ⟨vs, hvs, (hall rfl).2 rfl⟩
  · obtain ⟨e, he, hdiffer⟩ := sampled_spreads.2 { entailmentLimit := 1, entailmentSamples := 2 } []
      (.and (.var "A") (.neg (.var "B"))) (by decide) (by decide)
    refine ⟨e, he, ?_, ?_⟩
    · cases he
      rfl
    · apply hdiffer
      cases he
      rfl

end Propositional
