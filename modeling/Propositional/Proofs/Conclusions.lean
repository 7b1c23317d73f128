import Propositional.Proofs.Inference
import Propositional.Proofs.Parsing

/-!
# Names and heights of conclusions

A rule takes its lines apart and puts some of the parts together again. So the names in a conclusion
are names in the lines it cites, and it is no higher than the highest of these, except that
adjunction puts one more connective on top. An instance of an axiom has the names of its parts and
is higher than they are by no more than the schema. Formulas that were read have well-formed names
and keep to the limit on heights, so conclusions from them have well-formed names too and exceed the
limit by little.

## Main definitions

* `Formula.IsNamed`: all names in a formula are well formed

## Main results

* `Formula.isNamed_of_parse`: what is read has well-formed names
* `Follows.exists_mem_leaves`: the names of a conclusion
* `Follows.exists_height_le`, `Follows.height_le_succ`: the height of a conclusion
* `Hilbert.isNamed_of_build`, `Hilbert.height_le_of_build`: the same of instances of axioms
-/

namespace Propositional

/-- All names in a formula are well formed. -/
def Formula.IsNamed (f : Formula) : Prop :=
  ∀ x ∈ f.leaves, Token.isName x = true

instance (f : Formula) : Decidable f.IsNamed :=
  inferInstanceAs (Decidable (∀ x ∈ f.leaves, Token.isName x = true))

/-! ## Formulas that were read -/

/-- A name in a scanned row of tokens is well formed. -/
theorem Token.Spells.isName_of_mem {o : Nat} {cs : List Char} {ts : List Token}
    (h : Spells o cs ts) : ∀ t ∈ ts, t.kind = .var → isName t.text = true := by
  induction h with
  | stop => simp
  | blank _ _ ih => exact ih
  | name hname _ _ ih =>
    intro t ht hvar
    rcases List.mem_cons.mp ht with rfl | ht
    · exact hname
    · exact ih t ht hvar
  | @sign o s kind _ _ hs _ ih =>
    intro t ht hvar
    rcases List.mem_cons.mp ht with rfl | ht
    · exact absurd hvar (kind_of_mem_spellings hs).1
    · exact ih t ht hvar

/-- The leaves of a tree that the grammar derives are the names among its tokens, in order. -/
theorem Takes.leaves_eq {l n : Nat} {ts : List Token} {f : Formula} (h : Takes l ts f n) :
    f.leaves = (ts.filter fun t => t.kind = .var).map Token.text := by
  induction h with
  | var ht => simp [Formula.leaves, ht]
  | paren ho _ hc ih => simp [ho, hc, ih]
  | atom _ ih | operand _ ih => exact ih
  | neg ht _ ih => simp [Formula.leaves, ht, ih]
  | bin _ ht _ ih ih' => simp [Formula.leaves, ht, ih, ih']

namespace Formula

variable {maxDepth : Int} {text : String} {f : Formula}

/-- What is read has well-formed names. -/
theorem isNamed_of_parse (h : parse maxDepth text = .ok f) : f.IsNamed := by
  intro x hx
  obtain ⟨ts, hscan, hf, -⟩ := derives_of_parse h
  obtain ⟨n, hn⟩ := hf.exists_takes
  rw [hn.leaves_eq, List.mem_map] at hx
  obtain ⟨t, ht, rfl⟩ := hx
  obtain ⟨ht, hvar⟩ := List.mem_filter.mp ht
  exact (Token.spells_of_scanFrom hscan).isName_of_mem t (List.mem_append_left _ ht)
    (of_decide_eq_true hvar)

/-- What is read is no higher than the limit. -/
theorem height_le_of_parse (h : parse maxDepth text = .ok f) : (f.height : Int) ≤ maxDepth := by
  obtain ⟨ts, -, -, hheight⟩ := parse_eq_ok_iff.mp h
  exact hheight

end Formula

/-! ## Rules -/

namespace Lines.CitesBoth

variable {lines : Lines} {a b : Value} {f g : Formula}

theorem exists_left (h : lines.CitesBoth a b f g) : ∃ n ∈ [a, b], lines.Cites n f := by
  rcases h with ⟨ha, -⟩ | ⟨hb, -⟩
  · exact ⟨a, by simp, ha⟩
  · exact ⟨b, by simp, hb⟩

theorem exists_right (h : lines.CitesBoth a b f g) : ∃ n ∈ [a, b], lines.Cites n g := by
  rcases h with ⟨-, hb⟩ | ⟨-, ha⟩
  · exact ⟨b, by simp, hb⟩
  · exact ⟨a, by simp, ha⟩

end Lines.CitesBoth

namespace Follows

variable {lines : Lines} {j : Justification} {F : Formula}

/-- Every name in a conclusion is a name in a cited line. -/
theorem exists_mem_leaves (h : Follows lines j F) (hj : ∀ n, j ≠ .ax n) :
    ∀ x ∈ F.leaves, ∃ n ∈ j.references, ∃ g, lines.Cites n g ∧ x ∈ g.leaves := by
  intro x hx
  cases h with
  | ax => exact absurd rfl (hj _)
  | mp _ hb => exact ⟨_, by simp [Justification.references], _, hb, List.mem_append_right _ hx⟩
  | mt ha _ => exact ⟨_, by simp [Justification.references], _, ha, List.mem_append_left _ hx⟩
  | hs h =>
    rcases List.mem_append.mp hx with hx | hx
    · obtain ⟨n, hn, hXY⟩ := h.exists_left
      exact ⟨n, hn, _, hXY, List.mem_append_left _ hx⟩
    · obtain ⟨n, hn, hYZ⟩ := h.exists_right
      exact ⟨n, hn, _, hYZ, List.mem_append_right _ hx⟩
  | adj h =>
    rcases List.mem_append.mp hx with hx | hx
    · obtain ⟨n, hn, hX⟩ := h.exists_left
      exact ⟨n, hn, _, hX, hx⟩
    · obtain ⟨n, hn, hY⟩ := h.exists_right
      exact ⟨n, hn, _, hY, hx⟩
  | dsRight h =>
    obtain ⟨n, hn, hXY⟩ := h.exists_left
    exact ⟨n, hn, _, hXY, List.mem_append_right _ hx⟩
  | dsLeft h =>
    obtain ⟨n, hn, hXY⟩ := h.exists_left
    exact ⟨n, hn, _, hXY, List.mem_append_left _ hx⟩
  | simpLeft h => exact ⟨_, List.mem_singleton.mpr rfl, _, h, List.mem_append_left _ hx⟩
  | simpRight h => exact ⟨_, List.mem_singleton.mpr rfl, _, h, List.mem_append_right _ hx⟩
  | iffForth h => exact ⟨_, List.mem_singleton.mpr rfl, _, h, hx⟩
  | iffBack h =>
    exact ⟨_, List.mem_singleton.mpr rfl, _, h, List.mem_append.mpr (List.mem_append.mp hx).symm⟩

/-- A conclusion is no higher than one of the cited lines, unless it adjoins them. -/
theorem exists_height_le (h : Follows lines j F) (hax : ∀ n, j ≠ .ax n)
    (hadj : ∀ a b, j ≠ .adj a b) :
    ∃ n ∈ j.references, ∃ g, lines.Cites n g ∧ F.height ≤ g.height := by
  cases h with
  | ax => exact absurd rfl (hax _)
  | adj => exact absurd rfl (hadj _ _)
  | mp _ hb =>
    refine ⟨_, by simp [Justification.references], _, hb, ?_⟩
    rw [Formula.height]
    omega
  | mt ha _ =>
    refine ⟨_, by simp [Justification.references], _, ha, ?_⟩
    rw [Formula.height, Formula.height]
    omega
  | @hs _ _ X Y Z h =>
    -- the higher of its two sides is a side of a cited implication
    rcases Nat.le_total Z.height X.height with hle | hle
    · obtain ⟨n, hn, hXY⟩ := h.exists_left
      refine ⟨n, hn, _, hXY, ?_⟩
      rw [Formula.height, Formula.height]
      omega
    · obtain ⟨n, hn, hYZ⟩ := h.exists_right
      refine ⟨n, hn, _, hYZ, ?_⟩
      rw [Formula.height, Formula.height]
      omega
  | dsRight h | dsLeft h =>
    obtain ⟨n, hn, hXY⟩ := h.exists_left
    refine ⟨n, hn, _, hXY, ?_⟩
    rw [Formula.height]
    omega
  | simpLeft h | simpRight h =>
    refine ⟨_, List.mem_singleton.mpr rfl, _, h, ?_⟩
    rw [Formula.height]
    omega
  | iffForth h => exact ⟨_, List.mem_singleton.mpr rfl, _, h, Nat.le_refl _⟩
  | iffBack h =>
    refine ⟨_, List.mem_singleton.mpr rfl, _, h, ?_⟩
    rw [Formula.height, Formula.height]
    omega

/-- A conclusion is at most one level higher than the cited lines. -/
theorem height_le_succ (h : Follows lines j F) (hax : ∀ n, j ≠ .ax n) {d : Nat}
    (hd : ∀ n ∈ j.references, ∀ g, lines.Cites n g → g.height ≤ d) : F.height ≤ d + 1 := by
  by_cases hadj : ∃ a b, j = .adj a b
  · obtain ⟨a, b, rfl⟩ := hadj
    cases h with
    | adj h =>
      obtain ⟨m, hm, hX⟩ := h.exists_left
      obtain ⟨n, hn, hY⟩ := h.exists_right
      have hX := hd m hm _ hX
      have hY := hd n hn _ hY
      rw [Formula.height]
      omega
  · obtain ⟨n, hn, g, hg, hle⟩ := h.exists_height_le hax fun a b hj => hadj ⟨a, b, hj⟩
    exact Nat.le_succ_of_le (Nat.le_trans hle (hd n hn g hg))

end Follows

/-! ## Instances of axioms -/

namespace Formula

variable {S F : Formula} {s : Substitution}

theorem isNamed_of_instantiate (hS : S.IsNamed) (hs : ∀ x f, s.get? x = some f → f.IsNamed)
    (h : S.instantiate s = .ok F) : F.IsNamed := by
  induction S generalizing F with
  | var name =>
    by_cases hm : isMetavariable name = true
    · exact hs name F ((instantiate_metavariable hm).mp h)
    · rw [(instantiate_var (by simpa using hm)).mp h]
      exact hS
  | neg f ih =>
    obtain ⟨g, rfl, hg⟩ := instantiate_neg.mp h
    intro x hx
    exact ih hS hg x hx
  | bin op f g ihf ihg =>
    obtain ⟨f', g', rfl, hf, hg⟩ := instantiate_bin.mp h
    intro x hx
    rcases List.mem_append.mp hx with hx | hx
    · exact ihf (fun y hy => hS y (List.mem_append_left _ hy)) hf x hx
    · exact ihg (fun y hy => hS y (List.mem_append_right _ hy)) hg x hx

/-- An instance is higher than what the metavariables stand for by less than the schema, since they
are its leaves. -/
theorem height_lt_of_instantiate {d : Nat} (hd : 1 ≤ d)
    (hs : ∀ x f, s.get? x = some f → f.height ≤ d) (h : S.instantiate s = .ok F) :
    F.height < S.height + d := by
  induction S generalizing F with
  | var name =>
    by_cases hm : isMetavariable name = true
    · have hF := hs name F ((instantiate_metavariable hm).mp h)
      rw [height]
      omega
    · rw [(instantiate_var (by simpa using hm)).mp h]
      omega
  | neg f ih =>
    obtain ⟨g, rfl, hg⟩ := instantiate_neg.mp h
    have hlt := ih hg
    rw [height, height]
    omega
  | bin op f g ihf ihg =>
    obtain ⟨f', g', rfl, hf, hg⟩ := instantiate_bin.mp h
    have hltf := ihf hf
    have hltg := ihg hg
    rw [height, height]
    omega

end Formula

namespace Hilbert

variable {maxDepth : Int} {n : Value} {parts : Table (Option String)} {F : Formula}
  {s r : Substitution}

/-- The parts of an instance are formulas that were read. -/
theorem exists_parse_of_readParts (hs : ∀ x f, s.get? x = some f →
      ∃ text, Formula.parse maxDepth text = .ok f)
    (h : readParts maxDepth parts s = .ok r) :
    ∀ x f, r.get? x = some f → ∃ text, Formula.parse maxDepth text = .ok f := by
  fun_induction readParts maxDepth parts s with
  | case1 s =>
    cases h
    exact hs
  | case2 name parts s ih => exact ih hs h
  | case3 => cases h
  | case4 name text parts s f hf ih =>
    refine ih (fun x g hg => ?_) h
    rw [Table.get?_set] at hg
    split at hg
    · cases hg
      exact ⟨text, hf⟩
    · exact hs x g hg

/-- What is built is an instance of the axiom of the number, by formulas that were read. -/
theorem exists_instantiate_of_build (h : build maxDepth n parts = .ok F) :
    ∃ k S s, (k, S) ∈ numbered ∧ n.equalsInteger k = true ∧ S.instantiate s = .ok F ∧
      ∀ x f, s.get? x = some f → ∃ text, Formula.parse maxDepth text = .ok f := by
  unfold build at h
  split at h
  · cases h
  split at h
  · cases h
  next S hS =>
  split at h
  · cases h
  next s hs =>
  split at h
  · cases h
  next f hf =>
  cases h
  obtain ⟨k, hk, hn⟩ := schema?_eq_some_iff.mp hS
  exact ⟨k, S, s, hk, hn, hf, exists_parse_of_readParts (by simp) hs⟩

/-- What is built follows by the axiom of the number, whatever the lines are. -/
theorem follows_of_build (lines : Lines) (h : build maxDepth n parts = .ok F) :
    Follows lines (.ax n) F := by
  obtain ⟨k, S, s, hk, hn, hF, -⟩ := exists_instantiate_of_build h
  exact .ax hn hk hF

/-- What is built has well-formed names. -/
theorem isNamed_of_build (h : build maxDepth n parts = .ok F) : F.IsNamed := by
  obtain ⟨k, S, s, hk, -, hF, hs⟩ := exists_instantiate_of_build h
  have hS : ∀ p ∈ numbered, ∀ x ∈ p.2.leaves, Token.isName x = true := by decide
  refine Formula.isNamed_of_instantiate (hS _ hk) (fun x f hf => ?_) hF
  obtain ⟨text, htext⟩ := hs x f hf
  exact Formula.isNamed_of_parse htext

/-- What is built exceeds the limit on heights by less than the height of the axioms. -/
theorem height_le_of_build (h : build maxDepth n parts = .ok F) :
    F.height ≤ 4 + max 1 maxDepth.toNat := by
  obtain ⟨k, S, s, hk, -, hF, hs⟩ := exists_instantiate_of_build h
  have hnumbered : ∀ p ∈ numbered, p.2.height ≤ 5 := by decide
  have hparts : ∀ x f, s.get? x = some f → f.height ≤ max 1 maxDepth.toNat := by
    intro x f hf
    obtain ⟨text, htext⟩ := hs x f hf
    have hle := Formula.height_le_of_parse htext
    omega
  have hS : S.height ≤ 5 := hnumbered _ hk
  have hlt := Formula.height_lt_of_instantiate (Nat.le_max_left 1 _) hparts hF
  omega

end Hilbert

end Propositional
