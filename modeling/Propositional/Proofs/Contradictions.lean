import Propositional.Proof.Contradiction

/-!
# The first contradiction

The search for a contradiction goes through the lines twice. The first pass looks for a line that
is a contradiction by itself; only if there is none the second looks, line by line, for a later
line that clashes. So a single line is found before any pair, the first of the single lines before
the others, and of the pairs the one whose first line is earliest and, among these, whose second
line is. A line that did not parse holds no formula and is passed over by both.

The passes count lines upwards from a number that grows with every line. The statements below are
therefore about lines that are counted from any number, and the search itself counts from one.

## Main definitions

* `Lines.HoldsFrom`: what a line holds, the lines being counted from a number
* `Lines.AbsurdAt`, `Lines.ClashAt`: the two kinds of contradiction
* `Lines.first?`: the first line with a property, of which both inner scans are instances

## Main results

* `Lines.first?_eq_none_iff`, `Lines.first?_eq_some_iff`: what a scan finds
* `Lines.clashing?_cases`: the second pass finds the least pair that clashes
* `Lines.contradiction?_cases`: how the search ends
* `Lines.contradiction?_least`: the search is exact and finds the first contradiction
-/

namespace Propositional

/-! ## Shapes of contradictions -/

namespace Formula

variable {f g : Formula}

theorem isNegationOf_iff : f.isNegationOf g = true ↔ f = .neg g := by
  cases f <;> simp [isNegationOf]

theorem clashes_iff : f.clashes g = true ↔ f = .neg g ∨ g = .neg f := by
  rw [clashes, Bool.or_eq_true, isNegationOf_iff, isNegationOf_iff]

theorem isAbsurd_iff :
    f.isAbsurd = true ↔ ∃ X, f = .and X (.neg X) ∨ f = .and (.neg X) X := by
  constructor
  · intro h
    unfold isAbsurd at h
    split at h
    · next l r =>
      rcases clashes_iff.mp h with rfl | rfl
      · exact ⟨r, .inr rfl⟩
      · exact ⟨l, .inl rfl⟩
    · cases h
  · rintro ⟨X, rfl | rfl⟩
    · exact clashes_iff.mpr (.inr rfl)
    · exact clashes_iff.mpr (.inl rfl)

end Formula

namespace Lines

variable {lines rest : Lines} {l : Option Formula} {f g : Formula} {n i j : Nat}

/-! ## Lines counted from a number -/

/-- The line of number `i` holds a formula, the first line having number `n`. -/
def HoldsFrom (n : Nat) (lines : Lines) (i : Nat) (f : Formula) : Prop :=
  ∃ k, i = n + k ∧ lines[k]? = some (some f)

theorem not_holdsFrom_nil : ¬ HoldsFrom n [] i f := by
  rintro ⟨k, -, hk⟩
  cases hk

/-- A line is the first one, or it is one of the others, which are counted from the next number. -/
theorem holdsFrom_cons :
    HoldsFrom n (l :: rest) i f ↔ i = n ∧ l = some f ∨ HoldsFrom (n + 1) rest i f := by
  constructor
  · rintro ⟨k, rfl, hk⟩
    cases k with
    | zero => exact .inl ⟨rfl, Option.some.inj hk⟩
    | succ k => exact .inr ⟨k, by omega, hk⟩
  · rintro (⟨rfl, rfl⟩ | ⟨k, rfl, hk⟩)
    · exact ⟨0, rfl, rfl⟩
    · exact ⟨k + 1, by omega, hk⟩

theorem HoldsFrom.le (h : HoldsFrom n lines i f) : n ≤ i := by
  obtain ⟨k, rfl, -⟩ := h
  exact Nat.le_add_right n k

theorem HoldsFrom.mem (h : HoldsFrom n lines i f) : some f ∈ lines := by
  obtain ⟨k, -, hk⟩ := h
  exact List.mem_of_getElem? hk

/-! ## Scans -/

/-- The first line, counted from `n`, that holds a formula with a property. -/
def first? (p : Formula → Bool) (n : Nat) (lines : Lines) : Option Nat :=
  (lines.findIdx? (Option.any p)).map (n + ·)

/-- One step of a scan: the first line is taken or passed over. -/
theorem first?_cons (p : Formula → Bool) (n : Nat) (l : Option Formula) (rest : Lines) :
    first? p n (l :: rest) = if l.any p then some n else first? p (n + 1) rest := by
  rw [first?, first?, List.findIdx?_cons]
  split
  · rfl
  · rw [Option.map_map]
    congr 1
    funext k
    show n + (k + 1) = n + 1 + k
    omega

theorem absurd?_eq_first? (n : Nat) (lines : Lines) :
    absurd? n lines = first? Formula.isAbsurd n lines := by
  induction lines generalizing n with
  | nil => rfl
  | cons l rest ih =>
    rw [first?_cons, ← ih]
    cases l <;> rfl

theorem clash?_eq_first? (f : Formula) (n : Nat) (lines : Lines) :
    clash? f n lines = first? f.clashes n lines := by
  induction lines generalizing n with
  | nil => rfl
  | cons l rest ih =>
    rw [first?_cons, ← ih]
    cases l <;> rfl

section Scan

variable {p : Formula → Bool}

/-- A scan finds nothing exactly if no line has the property. -/
theorem first?_eq_none_iff :
    first? p n lines = none ↔ ∀ i f, HoldsFrom n lines i f → ¬ p f = true := by
  rw [first?, Option.map_eq_none_iff, List.findIdx?_eq_none_iff]
  constructor
  · rintro h i f hf
    have hpf : (some f).any p = false := h _ hf.mem
    simpa using hpf
  · intro h l hl
    cases l with
    | none => rfl
    | some f =>
      obtain ⟨k, hk⟩ := List.mem_iff_getElem?.mp hl
      simpa using h (n + k) f ⟨k, rfl, hk⟩

/-- A scan finds the first line that has the property. -/
theorem first?_eq_some_iff :
    first? p n lines = some i ↔
      (∃ f, HoldsFrom n lines i f ∧ p f = true) ∧
        ∀ k < i, ∀ g, HoldsFrom n lines k g → ¬ p g = true := by
  rw [first?, Option.map_eq_some_iff]
  constructor
  · rintro ⟨k, hk, rfl⟩
    obtain ⟨hlt, hp, hfirst⟩ := List.findIdx?_eq_some_iff_getElem.mp hk
    obtain ⟨f, hf, hpf⟩ := (Option.any_eq_true p _).mp hp
    refine ⟨⟨f, ⟨k, rfl, by rw [List.getElem?_eq_getElem hlt, hf]⟩, hpf⟩, ?_⟩
    rintro _ hm g ⟨m, rfl, hg⟩ hpg
    obtain ⟨_, hget⟩ := List.getElem?_eq_some_iff.mp hg
    exact hfirst m (by omega) (by rw [hget]; exact hpg)
  · rintro ⟨⟨f, ⟨k, rfl, hk⟩, hpf⟩, hfirst⟩
    obtain ⟨hlt, hget⟩ := List.getElem?_eq_some_iff.mp hk
    refine ⟨k, List.findIdx?_eq_some_iff_getElem.mpr ⟨hlt, by rw [hget]; exact hpf, ?_⟩, rfl⟩
    intro m hm hpm
    obtain ⟨g, hg, hpg⟩ := (Option.any_eq_true p _).mp hpm
    have hlt' : m < lines.length := Nat.lt_trans hm hlt
    exact hfirst (n + m) (by omega) g ⟨m, rfl, by rw [List.getElem?_eq_getElem hlt', hg]⟩ hpg

end Scan

/-! ## Pairs -/

/-- Of two lines, counted from `n`, one is the negation of the other, and `i` is the earlier. -/
def ClashFrom (n : Nat) (lines : Lines) (i j : Nat) : Prop :=
  i < j ∧ ∃ f g, HoldsFrom n lines i f ∧ HoldsFrom n lines j g ∧ f.clashes g = true

/-- A pair that clashes has the first line for its earlier one, or it is a pair of the others. -/
theorem clashFrom_cons :
    ClashFrom n (l :: rest) i j ↔
      (i = n ∧ ∃ f, l = some f ∧ ∃ g, HoldsFrom (n + 1) rest j g ∧ f.clashes g = true) ∨
        ClashFrom (n + 1) rest i j := by
  constructor
  · rintro ⟨hij, f, g, hf, hg, hclash⟩
    have hni := hf.le
    -- the later line is never the first one
    have hlater : HoldsFrom (n + 1) rest j g := by
      rcases holdsFrom_cons.mp hg with ⟨rfl, -⟩ | hlater
      · omega
      · exact hlater
    rcases holdsFrom_cons.mp hf with ⟨rfl, rfl⟩ | hf
    · exact .inl ⟨rfl, f, rfl, g, hlater, hclash⟩
    · exact .inr ⟨hij, f, g, hf, hlater, hclash⟩
  · rintro (⟨rfl, f, rfl, g, hg, hclash⟩ | ⟨hij, f, g, hf, hg, hclash⟩)
    · have hij := hg.le
      exact ⟨by omega, f, g, holdsFrom_cons.mpr (.inl ⟨rfl, rfl⟩), holdsFrom_cons.mpr (.inr hg),
        hclash⟩
    · exact ⟨hij, f, g, holdsFrom_cons.mpr (.inr hf), holdsFrom_cons.mpr (.inr hg), hclash⟩

/-- The second pass returns no pair, and none clashes, or it returns the least pair that does:
no earlier line clashes with a later one, and its own partner is the first. -/
theorem clashing?_cases (n : Nat) (lines : Lines) :
    (clashing? n lines = none ∧ ∀ i j, ¬ ClashFrom n lines i j) ∨
      ∃ i j, clashing? n lines = some (i, j) ∧ ClashFrom n lines i j ∧
        ∀ i' j', ClashFrom n lines i' j' → i < i' ∨ i = i' ∧ j ≤ j' := by
  induction lines generalizing n with
  | nil => exact .inl ⟨rfl, fun i j ⟨_, f, g, hf, _⟩ => not_holdsFrom_nil hf⟩
  | cons l rest ih =>
    cases l with
    | none =>
      -- a line that holds no formula clashes with none
      have hrest : ∀ i j, ClashFrom n (none :: rest) i j ↔ ClashFrom (n + 1) rest i j := by
        simp [clashFrom_cons]
      simp only [clashing?, hrest]
      exact ih (n + 1)
    | some f =>
      cases hscan : clash? f (n + 1) rest with
      | none =>
        -- the first line has no partner, so the pairs that clash are those of the others
        have hnone := first?_eq_none_iff.mp ((clash?_eq_first? f (n + 1) rest).symm.trans hscan)
        have hrest : ∀ i j, ClashFrom n (some f :: rest) i j ↔ ClashFrom (n + 1) rest i j := by
          intro i j
          rw [clashFrom_cons, or_iff_right]
          rintro ⟨-, f', hf', g, hg, hclash⟩
          cases hf'
          exact hnone j g hg hclash
        simp only [clashing?, hscan, hrest]
        exact ih (n + 1)
      | some j =>
        obtain ⟨⟨g, hg, hclash⟩, hfirst⟩ :=
          first?_eq_some_iff.mp ((clash?_eq_first? f (n + 1) rest).symm.trans hscan)
        refine .inr ⟨n, j, by simp only [clashing?, hscan],
          clashFrom_cons.mpr (.inl ⟨rfl, f, rfl, g, hg, hclash⟩), fun i' j' h => ?_⟩
        rcases clashFrom_cons.mp h with ⟨rfl, f', hf', g', hg', hclash'⟩ | ⟨-, f', g', hf', -⟩
        · -- another pair with the first line: the scan would have stopped at an earlier partner
          cases hf'
          refine .inr ⟨rfl, Nat.le_of_not_lt fun hlt => ?_⟩
          exact hfirst j' hlt g' hg' hclash'
        · -- a pair of the others begins later
          exact .inl hf'.le

/-! ## The search -/

/-- The line of number `i`, counted from one, joins a formula with its negation. -/
def AbsurdAt (lines : Lines) (i : Nat) : Prop :=
  ∃ X, HoldsFrom 1 lines i (.and X (.neg X)) ∨ HoldsFrom 1 lines i (.and (.neg X) X)

/-- Of the lines of numbers `i` and `j`, counted from one, one is the negation of the other. -/
def ClashAt (lines : Lines) (i j : Nat) : Prop :=
  ∃ X, HoldsFrom 1 lines i X ∧ HoldsFrom 1 lines j (.neg X) ∨
    HoldsFrom 1 lines i (.neg X) ∧ HoldsFrom 1 lines j X

theorem absurdAt_iff :
    lines.AbsurdAt i ↔ ∃ f, HoldsFrom 1 lines i f ∧ f.isAbsurd = true := by
  constructor
  · rintro ⟨X, h | h⟩
    · exact ⟨_, h, Formula.isAbsurd_iff.mpr ⟨X, .inl rfl⟩⟩
    · exact ⟨_, h, Formula.isAbsurd_iff.mpr ⟨X, .inr rfl⟩⟩
  · rintro ⟨f, hf, habsurd⟩
    obtain ⟨X, rfl | rfl⟩ := Formula.isAbsurd_iff.mp habsurd
    · exact ⟨X, .inl hf⟩
    · exact ⟨X, .inr hf⟩

theorem clashAt_iff :
    lines.ClashAt i j ↔
      ∃ f g, HoldsFrom 1 lines i f ∧ HoldsFrom 1 lines j g ∧ f.clashes g = true := by
  constructor
  · rintro ⟨X, ⟨hi, hj⟩ | ⟨hi, hj⟩⟩
    · exact ⟨_, _, hi, hj, Formula.clashes_iff.mpr (.inr rfl)⟩
    · exact ⟨_, _, hi, hj, Formula.clashes_iff.mpr (.inl rfl)⟩
  · rintro ⟨f, g, hf, hg, hclash⟩
    rcases Formula.clashes_iff.mp hclash with rfl | rfl
    · exact ⟨g, .inr ⟨hf, hg⟩⟩
    · exact ⟨f, .inl ⟨hf, hg⟩⟩

theorem ClashAt.symm (h : lines.ClashAt i j) : lines.ClashAt j i := by
  obtain ⟨X, ⟨hi, hj⟩ | ⟨hi, hj⟩⟩ := h
  · exact ⟨X, .inr ⟨hj, hi⟩⟩
  · exact ⟨X, .inl ⟨hj, hi⟩⟩

/-- The line of number `i` is the first that is a contradiction by itself. -/
def IsFirstAbsurd (lines : Lines) (i : Nat) : Prop :=
  lines.AbsurdAt i ∧ ∀ k < i, ¬ lines.AbsurdAt k

/-- The lines of numbers `i` and `j` clash, the earlier being named first, and of all such pairs
they are the least: any other has a greater first number, or the same and a greater second. -/
def IsLeastClash (lines : Lines) (i j : Nat) : Prop :=
  (i < j ∧ lines.ClashAt i j) ∧
    ∀ i' j', i' < j' → lines.ClashAt i' j' → i < i' ∨ i = i' ∧ j ≤ j'

theorem IsFirstAbsurd.unique (hi : lines.IsFirstAbsurd i) (hj : lines.IsFirstAbsurd j) : i = j := by
  rcases Nat.lt_trichotomy i j with hlt | heq | hlt
  · exact absurd hi.1 (hj.2 i hlt)
  · exact heq
  · exact absurd hj.1 (hi.2 j hlt)

theorem IsLeastClash.unique {i' j' : Nat} (h : lines.IsLeastClash i j)
    (h' : lines.IsLeastClash i' j') : i = i' ∧ j = j' := by
  obtain ⟨⟨hij, hclash⟩, hleast⟩ := h
  obtain ⟨⟨hij', hclash'⟩, hleast'⟩ := h'
  have hle := hleast i' j' hij' hclash'
  have hge := hleast' i j hij hclash
  omega

/-- The search returns the first line that is a contradiction by itself; if there is none, the
least pair of lines that clash; if there is none either, nothing. -/
theorem contradiction?_cases (lines : Lines) :
    (∃ i, lines.contradiction? = some (i, i) ∧ lines.IsFirstAbsurd i) ∨
      (∀ i, ¬ lines.AbsurdAt i) ∧
        ((∃ i j, lines.contradiction? = some (i, j) ∧ lines.IsLeastClash i j) ∨
          lines.contradiction? = none ∧ ∀ i j, i < j → ¬ lines.ClashAt i j) := by
  cases hscan : absurd? 1 lines with
  | some i =>
    obtain ⟨hfound, hfirst⟩ := first?_eq_some_iff.mp ((absurd?_eq_first? 1 lines).symm.trans hscan)
    refine .inl ⟨i, by simp only [contradiction?, hscan], absurdAt_iff.mpr hfound, ?_⟩
    intro k hk habsurd
    obtain ⟨f, hf, hfa⟩ := absurdAt_iff.mp habsurd
    exact hfirst k hk f hf hfa
  | none =>
    -- only now the second pass begins
    have hnone := first?_eq_none_iff.mp ((absurd?_eq_first? 1 lines).symm.trans hscan)
    refine .inr ⟨fun i habsurd => ?_, ?_⟩
    · obtain ⟨f, hf, hfa⟩ := absurdAt_iff.mp habsurd
      exact hnone i f hf hfa
    · have hpair : ∀ i j, ClashFrom 1 lines i j ↔ i < j ∧ lines.ClashAt i j :=
        fun i j => and_congr_right fun _ => clashAt_iff.symm
      simp only [contradiction?, hscan]
      rcases clashing?_cases 1 lines with ⟨hresult, hno⟩ | ⟨i, j, hresult, hclash, hleast⟩
      · exact .inr ⟨hresult, fun i j hij hclash => hno i j ((hpair i j).mpr ⟨hij, hclash⟩)⟩
      · refine .inl ⟨i, j, hresult, (hpair i j).mp hclash, fun i' j' hij hclash' => ?_⟩
        exact hleast i' j' ((hpair i' j').mpr ⟨hij, hclash'⟩)

theorem contradiction?_eq_none_iff :
    lines.contradiction? = none ↔
      (∀ i, ¬ lines.AbsurdAt i) ∧ ∀ i j, i ≠ j → ¬ lines.ClashAt i j := by
  constructor
  · intro h
    rcases contradiction?_cases lines with
      ⟨i, hi, -⟩ | ⟨habsurd, ⟨i, j, hij, -⟩ | ⟨-, hclash⟩⟩
    · cases h.symm.trans hi
    · cases h.symm.trans hij
    · refine ⟨habsurd, fun i j hne hij => ?_⟩
      -- the two lines may be named in either order
      rcases Nat.lt_or_gt_of_ne hne with hlt | hlt
      · exact hclash i j hlt hij
      · exact hclash j i hlt hij.symm
  · rintro ⟨habsurd, hclash⟩
    rcases contradiction?_cases lines with
      ⟨i, -, hi⟩ | ⟨-, ⟨i, j, -, ⟨hij, hleast⟩, -⟩ | ⟨hnone, -⟩⟩
    · exact absurd hi.1 (habsurd i)
    · exact absurd hleast (hclash i j (Nat.ne_of_lt hij))
    · exact hnone

theorem contradiction?_eq_self_iff :
    lines.contradiction? = some (i, i) ↔ lines.IsFirstAbsurd i := by
  constructor
  · intro h
    rcases contradiction?_cases lines with
      ⟨k, hk, hfirst⟩ | ⟨-, ⟨k, l, hkl, ⟨hlt, -⟩, -⟩ | ⟨hnone, -⟩⟩
    · cases h.symm.trans hk
      exact hfirst
    · -- a pair has two different lines
      cases h.symm.trans hkl
      exact absurd hlt (Nat.lt_irrefl i)
    · cases h.symm.trans hnone
  · intro h
    rcases contradiction?_cases lines with ⟨k, hk, hfirst⟩ | ⟨habsurd, -⟩
    · rw [hk, h.unique hfirst]
    · exact absurd h.1 (habsurd i)

theorem contradiction?_eq_pair_iff (habsurd : ∀ i, ¬ lines.AbsurdAt i) :
    lines.contradiction? = some (i, j) ↔ lines.IsLeastClash i j := by
  rcases contradiction?_cases lines with
    ⟨k, -, hk⟩ | ⟨-, ⟨k, l, hkl, hleast⟩ | ⟨hnone, hclash⟩⟩
  · exact absurd hk.1 (habsurd k)
  · rw [hkl, Option.some.injEq, Prod.mk.injEq]
    constructor
    · rintro ⟨rfl, rfl⟩
      exact hleast
    · exact hleast.unique
  · rw [hnone]
    constructor
    · intro h
      cases h
    · rintro ⟨⟨hij, h⟩, -⟩
      exact absurd h (hclash i j hij)

/-- Nothing is found exactly if no line joins a formula with its negation and no two different lines
are a formula and its negation. A line is found exactly if it is the first that joins a formula with
its negation, whatever pairs there are. If there is no such line, two lines are found exactly if
they are the least pair of which one is the negation of the other. -/
theorem contradiction?_least (lines : Lines) :
    (lines.contradiction? = none ↔
      (∀ i, ¬ lines.AbsurdAt i) ∧ ∀ i j, i ≠ j → ¬ lines.ClashAt i j) ∧
    (∀ i, lines.contradiction? = some (i, i) ↔ lines.IsFirstAbsurd i) ∧
    ((∀ i, ¬ lines.AbsurdAt i) →
      ∀ i j, lines.contradiction? = some (i, j) ↔ lines.IsLeastClash i j) :=
  ⟨contradiction?_eq_none_iff, fun _ => contradiction?_eq_self_iff,
    fun habsurd _ _ => contradiction?_eq_pair_iff habsurd⟩

/-- Two pairs that clash, behind a line that did not parse. -/
def crossed : Lines :=
  [none, some (.neg (.var "A")), some (.var "B"), some (.var "A"), some (.neg (.var "B"))]

/-- The pairs of `crossed`, and behind them a line that is a contradiction by itself. -/
def crossedAbsurd : Lines :=
  crossed ++ [some (.and (.neg (.var "C")) (.var "C"))]

/-- The first pair is found, unless a line is a contradiction by itself. -/
theorem contradiction?_least_crossed :
    (∀ i, ¬ crossed.AbsurdAt i) ∧ crossed.contradiction? = some (2, 4) ∧
      crossed.IsLeastClash 2 4 ∧ crossedAbsurd.IsFirstAbsurd 6 := by
  have habsurd : ∀ i, ¬ crossed.AbsurdAt i := by
    have hnone : first? Formula.isAbsurd 1 crossed = none := by decide
    intro i h
    obtain ⟨f, hf, hfa⟩ := absurdAt_iff.mp h
    exact first?_eq_none_iff.mp hnone i f hf hfa
  have hfound : crossed.contradiction? = some (2, 4) := by decide
  exact ⟨habsurd, hfound, ((contradiction?_least crossed).2.2 habsurd 2 4).mp hfound,
    ((contradiction?_least crossedAbsurd).2.1 6).mp (by decide)⟩

end Lines

end Propositional
