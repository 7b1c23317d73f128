import Propositional.Proof.Rule
import Propositional.Proofs.Matching

/-!
# What follows by a justification

The rules are stated once more without citations that fail, orders that are tried one after the
other, and objections: as the shapes that the cited lines and the formula must have. Validation
accepts a formula exactly if it follows in this sense. Since every rule keeps truth, a formula that
follows from true lines is true.

## Main definitions

* `Lines.Cites`, `Lines.CitesBoth`: the lines that citations name, two of them in either order
* `Follows`: the rules, by the shapes of the lines
* `Rule.Faults`: a property of whatever a rule objects

## Main results

* `Justification.validate_eq_ok_iff`: validation accepts exactly what follows
* `Follows.holds`: what follows from true lines is true
-/

namespace Propositional

/-- A citation names a line, counted from one, that holds a formula. -/
def Lines.Cites (lines : Lines) (n : Value) (f : Formula) : Prop :=
  ∃ k : Nat, n.wholeNumber? = some (k + 1 : Int) ∧ lines[k]? = some (some f)

/-- Two citations name lines that hold two formulas, in one order or the other. -/
def Lines.CitesBoth (lines : Lines) (a b : Value) (f g : Formula) : Prop :=
  lines.Cites a f ∧ lines.Cites b g ∨ lines.Cites b f ∧ lines.Cites a g

/-- A formula follows from lines by a justification. -/
inductive Follows (lines : Lines) : Justification → Formula → Prop
  /-- An instance of the axiom of the number. -/
  | ax {n : Value} {k : Int} {S F : Formula} {s : Substitution} (hn : n.equalsInteger k = true)
      (hk : (k, S) ∈ Hilbert.numbered) (hs : S.instantiate s = .ok F) : Follows lines (.ax n) F
  | mp {a b : Value} {X Y : Formula} (ha : lines.Cites a X) (hb : lines.Cites b (.imp X Y)) :
      Follows lines (.mp a b) Y
  | mt {a b : Value} {X Y : Formula} (ha : lines.Cites a (.imp X Y))
      (hb : lines.Cites b (.neg Y)) : Follows lines (.mt a b) (.neg X)
  | hs {a b : Value} {X Y Z : Formula} (h : lines.CitesBoth a b (.imp X Y) (.imp Y Z)) :
      Follows lines (.hs a b) (.imp X Z)
  | adj {a b : Value} {X Y : Formula} (h : lines.CitesBoth a b X Y) :
      Follows lines (.adj a b) (.and X Y)
  /-- The left disjunct is negated, the right one follows. -/
  | dsRight {a b : Value} {X Y : Formula} (h : lines.CitesBoth a b (.or X Y) (.neg X)) :
      Follows lines (.ds a b) Y
  /-- The right disjunct is negated, the left one follows. -/
  | dsLeft {a b : Value} {X Y : Formula} (h : lines.CitesBoth a b (.or X Y) (.neg Y)) :
      Follows lines (.ds a b) X
  | simpLeft {n : Value} {X Y : Formula} (h : lines.Cites n (.and X Y)) :
      Follows lines (.simp n .left) X
  | simpRight {n : Value} {X Y : Formula} (h : lines.Cites n (.and X Y)) :
      Follows lines (.simp n .right) Y
  | iffForth {n : Value} {X Y : Formula} (h : lines.Cites n (.iff X Y)) :
      Follows lines (.iff n .leftToRight) (.imp X Y)
  | iffBack {n : Value} {X Y : Formula} (h : lines.Cites n (.iff X Y)) :
      Follows lines (.iff n .rightToLeft) (.imp Y X)

/-! ## Citations -/

namespace Lines

variable {lines : Lines} {n : Value} {f : Formula}

theorem cite_eq_ok_iff : lines.cite n = .ok f ↔ lines.Cites n f := by
  unfold cite Cites
  cases hn : n.wholeNumber? with
  | none => simp
  | some m =>
    simp only [Option.some.injEq]
    split
    · next hm =>
      -- the number names no line
      simp only [reduceCtorEq, false_iff, not_exists, not_and]
      rintro k rfl hk
      have hlt := (List.getElem?_eq_some_iff.mp hk).1
      omega
    · next hm =>
      have hk : ((m.toNat - 1 : Nat) : Int) + 1 = m := by omega
      constructor
      · intro h
        split at h
        · next g hg => exact ⟨m.toNat - 1, hk.symm, by simpa using hg.trans (by simpa using h)⟩
        · cases h
        · cases h
      · rintro ⟨k, rfl, hf⟩
        simp [hf]

/-- A citation that fails is what is objected to. -/
theorem cite_eq_error_cases {o : Objection} (h : lines.cite n = .error o) :
    o = .noLine n ∨ o = .illFormed n := by
  unfold cite at h
  split at h
  · exact .inl (Except.error.inj h).symm
  · split at h
    · exact .inl (Except.error.inj h).symm
    · split at h
      · cases h
      · exact .inr (Except.error.inj h).symm
      · exact .inl (Except.error.inj h).symm

/-- It is a bad reference, unless the number is too long to be named. -/
theorem kind_of_cite {o : Objection} (h : lines.cite n = .error o) :
    o.kind = if n.isShort then .reference else .oversized := by
  rcases cite_eq_error_cases h with rfl | rfl <;> rfl

end Lines

/-! ## Rules -/

namespace Rule

variable {lines : Lines} {a b n : Value} {f g F : Formula} {o : Objection}

theorem bind_eq_ok_iff {ε α β : Type} {x : Except ε α} {k : α → Except ε β} {r : β} :
    x >>= k = .ok r ↔ ∃ y, x = .ok y ∧ k y = .ok r := by
  cases x <;> simp [bind, Except.bind]

@[simp] theorem expectImplication_eq_ok_iff {p : Formula × Formula} :
    expectImplication n f = .ok p ↔ f = .imp p.1 p.2 := by
  unfold expectImplication
  split <;> simp_all [Prod.ext_iff, eq_comm]

@[simp] theorem expectNegation_eq_ok_iff : expectNegation n f = .ok g ↔ f = .neg g := by
  unfold expectNegation
  split <;> simp_all [eq_comm]

@[simp] theorem expectDisjunction_eq_ok_iff {p : Formula × Formula} :
    expectDisjunction n f = .ok p ↔ f = .or p.1 p.2 := by
  unfold expectDisjunction
  split <;> simp_all [Prod.ext_iff, eq_comm]

@[simp] theorem expectConjunction_eq_ok_iff {p : Formula × Formula} :
    expectConjunction n f = .ok p ↔ f = .and p.1 p.2 := by
  unfold expectConjunction
  split <;> simp_all [Prod.ext_iff, eq_comm]

@[simp] theorem expectBiconditional_eq_ok_iff {p : Formula × Formula} :
    expectBiconditional n f = .ok p ↔ f = .iff p.1 p.2 := by
  unfold expectBiconditional
  split <;> simp_all [Prod.ext_iff, eq_comm]

theorem modusPonens_eq_ok_iff :
    modusPonens lines a b = .ok F ↔ ∃ X, lines.Cites a X ∧ lines.Cites b (.imp X F) := by
  unfold modusPonens
  simp only [bind_eq_ok_iff, Lines.cite_eq_ok_iff, expectImplication_eq_ok_iff, Prod.exists]
  constructor
  · rintro ⟨X, ha, -, hb, X', Y, rfl, h⟩
    split at h
    · next hX => cases h; subst hX; exact ⟨X', ha, hb⟩
    · cases h
  · rintro ⟨X, ha, hb⟩
    exact ⟨X, ha, _, hb, X, F, rfl, if_pos rfl⟩

theorem modusTollens_eq_ok_iff :
    modusTollens lines a b = .ok F ↔
      ∃ X Y, lines.Cites a (.imp X Y) ∧ lines.Cites b (.neg Y) ∧ F = .neg X := by
  unfold modusTollens
  simp only [bind_eq_ok_iff, Lines.cite_eq_ok_iff, expectImplication_eq_ok_iff,
    expectNegation_eq_ok_iff, Prod.exists]
  constructor
  · rintro ⟨-, ha, X, Y, rfl, -, hb, Z, rfl, h⟩
    split at h
    · next hY => cases h; subst hY; exact ⟨X, Y, ha, hb, rfl⟩
    · cases h
  · rintro ⟨X, Y, ha, hb, rfl⟩
    exact ⟨_, ha, X, Y, rfl, _, hb, Y, rfl, if_pos rfl⟩

theorem chain_eq_ok_iff :
    chain lines a b = .ok F ↔
      ∃ X Y Z, lines.Cites a (.imp X Y) ∧ lines.Cites b (.imp Y Z) ∧ F = .imp X Z := by
  unfold chain
  simp only [bind_eq_ok_iff, Lines.cite_eq_ok_iff, expectImplication_eq_ok_iff, Prod.exists]
  constructor
  · rintro ⟨-, ha, X, Y, rfl, -, hb, Y', Z, rfl, h⟩
    split at h
    · next hY => cases h; subst hY; exact ⟨X, Y, Z, ha, hb, rfl⟩
    · cases h
  · rintro ⟨X, Y, Z, ha, hb, rfl⟩
    exact ⟨_, ha, X, Y, rfl, _, hb, Y, Z, rfl, if_pos rfl⟩

theorem adjoin_eq_ok_iff :
    adjoin lines a b = .ok F ↔ ∃ X Y, lines.Cites a X ∧ lines.Cites b Y ∧ F = .and X Y := by
  unfold adjoin
  simp only [bind_eq_ok_iff, Lines.cite_eq_ok_iff, Except.ok.injEq]
  constructor
  · rintro ⟨X, ha, Y, hb, rfl⟩
    exact ⟨X, Y, ha, hb, rfl⟩
  · rintro ⟨X, Y, ha, hb, rfl⟩
    exact ⟨X, ha, Y, hb, rfl⟩

theorem disjoin_eq_ok_iff :
    disjoin lines a b = .ok F ↔
      ∃ X Y, lines.Cites a (.or X Y) ∧
        (lines.Cites b (.neg X) ∧ F = Y ∨ lines.Cites b (.neg Y) ∧ F = X) := by
  unfold disjoin
  simp only [bind_eq_ok_iff, Lines.cite_eq_ok_iff, expectDisjunction_eq_ok_iff,
    expectNegation_eq_ok_iff, Prod.exists]
  constructor
  · rintro ⟨-, ha, X, Y, rfl, -, hb, Z, rfl, h⟩
    refine ⟨X, Y, ha, ?_⟩
    split at h
    · next hZ => cases h; subst hZ; exact .inl ⟨hb, rfl⟩
    · split at h
      · next hZ => cases h; subst hZ; exact .inr ⟨hb, rfl⟩
      · cases h
  · rintro ⟨X, Y, ha, ⟨hb, rfl⟩ | ⟨hb, rfl⟩⟩
    · exact ⟨_, ha, X, F, rfl, _, hb, X, rfl, if_pos rfl⟩
    · refine ⟨_, ha, F, Y, rfl, _, hb, Y, rfl, ?_⟩
      -- if both disjuncts are negated they are equal, so the first test does no harm
      by_cases hY : Y = F
      · rw [if_pos hY, hY]
      · rw [if_neg hY, if_pos rfl]

theorem simplify_eq_ok_iff {side : Side} :
    simplify lines n side = .ok F ↔
      ∃ X Y, lines.Cites n (.and X Y) ∧ F = match side with | .left => X | .right => Y := by
  unfold simplify
  simp only [bind_eq_ok_iff, Lines.cite_eq_ok_iff, expectConjunction_eq_ok_iff, Prod.exists]
  constructor
  · rintro ⟨-, hn, X, Y, rfl, h⟩
    refine ⟨X, Y, hn, ?_⟩
    cases side <;> cases h <;> rfl
  · rintro ⟨X, Y, hn, rfl⟩
    refine ⟨_, hn, X, Y, rfl, ?_⟩
    cases side <;> rfl

theorem eliminate_eq_ok_iff {direction : Direction} :
    eliminate lines n direction = .ok F ↔
      ∃ X Y, lines.Cites n (.iff X Y) ∧
        F = match direction with | .leftToRight => .imp X Y | .rightToLeft => .imp Y X := by
  unfold eliminate
  simp only [bind_eq_ok_iff, Lines.cite_eq_ok_iff, expectBiconditional_eq_ok_iff, Prod.exists]
  constructor
  · rintro ⟨-, hn, X, Y, rfl, h⟩
    refine ⟨X, Y, hn, ?_⟩
    cases direction <;> cases h <;> rfl
  · rintro ⟨X, Y, hn, rfl⟩
    refine ⟨_, hn, X, Y, rfl, ?_⟩
    cases direction <;> rfl

/-! ## Objections

A rule objects to a citation or, by an objection of its own, to what the cited lines hold. So what
is true of the objections to its citations and of all objections of rules is true of whatever it
objects. -/

/-- Whatever objection there is has a property. -/
def Faults {α : Type} (P : Objection → Prop) (x : Except Objection α) : Prop :=
  ∀ o, x = .error o → P o

section Faults

variable {P : Objection → Prop}

theorem faults_ok {α : Type} (y : α) : Faults P (.ok y) := fun _ h => by cases h

theorem faults_error {α : Type} (ho : P o) : Faults P (.error o : Except Objection α) := by
  intro o' h
  cases h
  exact ho

theorem Faults.bind {α β : Type} {x : Except Objection α} {k : α → Except Objection β}
    (hx : Faults P x) (hk : ∀ y, x = .ok y → Faults P (k y)) : Faults P (x >>= k) := by
  intro o h
  cases x with
  | error o' => cases h; exact hx o rfl
  | ok y => exact hk y rfl o h

theorem Faults.single {r : Except Objection Formula} (hr : Faults P r) : Faults P (single r) := by
  intro o h
  cases r with
  | error o' => cases h; exact hr o rfl
  | ok f => cases h

theorem faults_ite {c : Prop} [Decidable c] (ho : P o) (F : Formula) :
    Faults P (if c then .ok F else .error o) := by
  split
  · exact faults_ok F
  · exact faults_error ho

variable (hrule : ∀ o, o.isRule = true → P o)

include hrule

theorem faults_expectImplication (n : Value) (f : Formula) :
    Faults P (expectImplication n f) := by
  unfold expectImplication
  split
  · exact faults_ok _
  · exact faults_error (hrule _ rfl)

theorem faults_expectNegation (n : Value) (f : Formula) : Faults P (expectNegation n f) := by
  unfold expectNegation
  split
  · exact faults_ok _
  · exact faults_error (hrule _ rfl)

theorem faults_expectDisjunction (n : Value) (f : Formula) :
    Faults P (expectDisjunction n f) := by
  unfold expectDisjunction
  split
  · exact faults_ok _
  · exact faults_error (hrule _ rfl)

theorem faults_expectConjunction (n : Value) (f : Formula) :
    Faults P (expectConjunction n f) := by
  unfold expectConjunction
  split
  · exact faults_ok _
  · exact faults_error (hrule _ rfl)

theorem faults_expectBiconditional (n : Value) (f : Formula) :
    Faults P (expectBiconditional n f) := by
  unfold expectBiconditional
  split
  · exact faults_ok _
  · exact faults_error (hrule _ rfl)

theorem faults_modusPonens (ha : Faults P (lines.cite a)) (hb : Faults P (lines.cite b)) :
    Faults P (modusPonens lines a b) := by
  refine ha.bind fun x _ => hb.bind fun f _ => ?_
  refine (faults_expectImplication hrule b f).bind fun p _ => ?_
  exact faults_ite (hrule _ rfl) p.2

theorem faults_modusTollens (ha : Faults P (lines.cite a)) (hb : Faults P (lines.cite b)) :
    Faults P (modusTollens lines a b) := by
  refine ha.bind fun f _ => (faults_expectImplication hrule a f).bind fun p _ => ?_
  refine hb.bind fun g _ => (faults_expectNegation hrule b g).bind fun z _ => ?_
  exact faults_ite (hrule _ rfl) (.neg p.1)

theorem faults_chain (ha : Faults P (lines.cite a)) (hb : Faults P (lines.cite b)) :
    Faults P (chain lines a b) := by
  refine ha.bind fun f _ => (faults_expectImplication hrule a f).bind fun p _ => ?_
  refine hb.bind fun g _ => (faults_expectImplication hrule b g).bind fun q _ => ?_
  exact faults_ite (hrule _ rfl) (.imp p.1 q.2)

theorem faults_disjoin (ha : Faults P (lines.cite a)) (hb : Faults P (lines.cite b)) :
    Faults P (disjoin lines a b) := by
  refine ha.bind fun f _ => (faults_expectDisjunction hrule a f).bind fun p _ => ?_
  refine hb.bind fun g _ => (faults_expectNegation hrule b g).bind fun z _ => ?_
  show Faults P (if z = p.1 then .ok p.2 else if z = p.2 then .ok p.1 else _)
  split
  · exact faults_ok p.2
  · exact faults_ite (hrule _ rfl) p.1

theorem faults_simplify (side : Side) (hn : Faults P (lines.cite n)) :
    Faults P (simplify lines n side) := by
  refine hn.bind fun f _ => (faults_expectConjunction hrule n f).bind fun p _ => ?_
  cases side <;> exact faults_ok _

theorem faults_eliminate (direction : Direction) (hn : Faults P (lines.cite n)) :
    Faults P (eliminate lines n direction) := by
  refine hn.bind fun f _ => (faults_expectBiconditional hrule n f).bind fun p _ => ?_
  cases direction <;> exact faults_ok _

omit hrule

theorem faults_adjoin (ha : Faults P (lines.cite a)) (hb : Faults P (lines.cite b)) :
    Faults P (adjoin lines a b) :=
  ha.bind fun f _ => hb.bind fun g _ => faults_ok (Formula.and f g)

end Faults

/-! ## Either order

A rule that takes its lines in either order passes over an order that only the rule objects to. No
conclusion is lost by this: where one order yields a formula both lines can be cited, so in the
other order nothing but the rule can object. -/

/-- Whatever objection there is, it is the rule's. -/
def RuleOnly {α : Type} (x : Except Objection α) : Prop :=
  ∀ o, x = .error o → o.isRule = true

theorem ruleOnly_cite (h : lines.Cites n f) : RuleOnly (lines.cite n) := by
  rw [Lines.cite_eq_ok_iff.mpr h]
  exact faults_ok f

theorem ruleOnly_chain (ha : lines.Cites a f) (hb : lines.Cites b g) :
    RuleOnly (chain lines a b) :=
  faults_chain (fun _ h => h) (ruleOnly_cite ha) (ruleOnly_cite hb)

theorem ruleOnly_adjoin (ha : lines.Cites a f) (hb : lines.Cites b g) :
    RuleOnly (adjoin lines a b) :=
  faults_adjoin (ruleOnly_cite ha) (ruleOnly_cite hb)

theorem ruleOnly_disjoin (ha : lines.Cites a f) (hb : lines.Cites b g) :
    RuleOnly (disjoin lines a b) :=
  faults_disjoin (fun _ h => h) (ruleOnly_cite ha) (ruleOnly_cite hb)

/-- What a rule yields in either order is what it yields in one order or in the other. -/
theorem mem_eitherOrder_iff {pair : Value → Value → Except Objection Formula}
    (hpair : ∀ x y f, pair x y = .ok f → RuleOnly (pair y x)) :
    (∃ c, eitherOrder pair a b = .ok c ∧ F ∈ c.toList) ↔ pair a b = .ok F ∨ pair b a = .ok F := by
  unfold eitherOrder
  cases hab : pair a b with
  | ok f =>
    cases hba : pair b a with
    | ok g => simp [Conclusions.toList, eq_comm]
    | error o => simp [hpair a b f hab o hba, Conclusions.toList, eq_comm]
  | error o =>
    cases hba : pair b a with
    | ok g => simp [hpair b a g hba o hab, Conclusions.toList, eq_comm]
    | error o' =>
      by_cases ho : o.isRule = true <;> by_cases ho' : o'.isRule = true <;> simp [ho, ho']

/-- An objection to both orders is an objection to one of them. -/
theorem Faults.eitherOrder {P : Objection → Prop} {pair : Value → Value → Except Objection Formula}
    (hab : Faults P (pair a b)) (hba : Faults P (pair b a)) : Faults P (eitherOrder pair a b) := by
  intro o h
  -- whichever of the two is reported, it was raised in one of the orders
  have hor : pair a b = .error o ∨ pair b a = .error o := by
    unfold Rule.eitherOrder at h
    split at h
    · split at h
      · cases h
      · next hba =>
        split at h <;> cases h
        exact .inr hba
    · next hab =>
      split at h
      · split at h
        · cases h
        · next hba =>
          split at h <;> cases h
          · exact .inl hab
          · exact .inr hba
      · cases h
        exact .inl hab
  rcases hor with h | h
  · exact hab o h
  · exact hba o h

theorem mem_single_iff {r : Except Objection Formula} :
    (∃ c, single r = .ok c ∧ F ∈ c.toList) ↔ r = .ok F := by
  cases r <;> simp [single, Conclusions.toList, eq_comm]

/-! ## Rules and what follows by them -/

theorem follows_mp_iff : Follows lines (.mp a b) F ↔ modusPonens lines a b = .ok F := by
  rw [modusPonens_eq_ok_iff]
  constructor
  · intro h
    cases h with
    | mp ha hb => exact ⟨_, ha, hb⟩
  · rintro ⟨X, ha, hb⟩
    exact .mp ha hb

theorem follows_mt_iff : Follows lines (.mt a b) F ↔ modusTollens lines a b = .ok F := by
  rw [modusTollens_eq_ok_iff]
  constructor
  · intro h
    cases h with
    | mt ha hb => exact ⟨_, _, ha, hb, rfl⟩
  · rintro ⟨X, Y, ha, hb, rfl⟩
    exact .mt ha hb

theorem follows_hs_iff :
    Follows lines (.hs a b) F ↔ chain lines a b = .ok F ∨ chain lines b a = .ok F := by
  rw [chain_eq_ok_iff, chain_eq_ok_iff]
  constructor
  · intro h
    cases h with
    | hs h =>
      rcases h with ⟨ha, hb⟩ | ⟨hb, ha⟩
      · exact .inl ⟨_, _, _, ha, hb, rfl⟩
      · exact .inr ⟨_, _, _, hb, ha, rfl⟩
  · rintro (⟨X, Y, Z, ha, hb, rfl⟩ | ⟨X, Y, Z, hb, ha, rfl⟩)
    · exact .hs (.inl ⟨ha, hb⟩)
    · exact .hs (.inr ⟨hb, ha⟩)

theorem follows_adj_iff :
    Follows lines (.adj a b) F ↔ adjoin lines a b = .ok F ∨ adjoin lines b a = .ok F := by
  rw [adjoin_eq_ok_iff, adjoin_eq_ok_iff]
  constructor
  · intro h
    cases h with
    | adj h =>
      rcases h with ⟨ha, hb⟩ | ⟨hb, ha⟩
      · exact .inl ⟨_, _, ha, hb, rfl⟩
      · exact .inr ⟨_, _, hb, ha, rfl⟩
  · rintro (⟨X, Y, ha, hb, rfl⟩ | ⟨X, Y, hb, ha, rfl⟩)
    · exact .adj (.inl ⟨ha, hb⟩)
    · exact .adj (.inr ⟨hb, ha⟩)

theorem follows_ds_iff :
    Follows lines (.ds a b) F ↔ disjoin lines a b = .ok F ∨ disjoin lines b a = .ok F := by
  rw [disjoin_eq_ok_iff, disjoin_eq_ok_iff]
  constructor
  · intro h
    cases h with
    | dsRight h =>
      rcases h with ⟨ha, hb⟩ | ⟨hb, ha⟩
      · exact .inl ⟨_, _, ha, .inl ⟨hb, rfl⟩⟩
      · exact .inr ⟨_, _, hb, .inl ⟨ha, rfl⟩⟩
    | dsLeft h =>
      rcases h with ⟨ha, hb⟩ | ⟨hb, ha⟩
      · exact .inl ⟨_, _, ha, .inr ⟨hb, rfl⟩⟩
      · exact .inr ⟨_, _, hb, .inr ⟨ha, rfl⟩⟩
  · rintro (⟨X, Y, ha, ⟨hb, rfl⟩ | ⟨hb, rfl⟩⟩ | ⟨X, Y, hb, ⟨ha, rfl⟩ | ⟨ha, rfl⟩⟩)
    · exact .dsRight (.inl ⟨ha, hb⟩)
    · exact .dsLeft (.inl ⟨ha, hb⟩)
    · exact .dsRight (.inr ⟨hb, ha⟩)
    · exact .dsLeft (.inr ⟨hb, ha⟩)

theorem follows_simp_iff {side : Side} :
    Follows lines (.simp n side) F ↔ simplify lines n side = .ok F := by
  rw [simplify_eq_ok_iff]
  constructor
  · intro h
    cases h with
    | simpLeft hn => exact ⟨_, _, hn, rfl⟩
    | simpRight hn => exact ⟨_, _, hn, rfl⟩
  · rintro ⟨X, Y, hn, rfl⟩
    cases side with
    | left => exact .simpLeft hn
    | right => exact .simpRight hn

theorem follows_iff_iff {direction : Direction} :
    Follows lines (.iff n direction) F ↔ eliminate lines n direction = .ok F := by
  rw [eliminate_eq_ok_iff]
  constructor
  · intro h
    cases h with
    | iffForth hn => exact ⟨_, _, hn, rfl⟩
    | iffBack hn => exact ⟨_, _, hn, rfl⟩
  · rintro ⟨X, Y, hn, rfl⟩
    cases direction with
    | leftToRight => exact .iffForth hn
    | rightToLeft => exact .iffBack hn

end Rule

/-! ## Validation -/

namespace Justification

variable {lines : Lines} {j : Justification} {F : Formula}

/-- What a justification yields is what follows by it. Axioms are chosen and yield nothing. -/
theorem mem_conclusions_iff (hj : ∀ n, j ≠ .ax n) :
    (∃ c, j.conclusions lines = .ok c ∧ F ∈ c.toList) ↔ Follows lines j F := by
  cases j with
  | bare =>
    simp only [conclusions, reduceCtorEq, false_and, exists_false, false_iff]
    intro h
    cases h
  | ax n => exact absurd rfl (hj n)
  | mp a b => rw [conclusions, Rule.mem_single_iff, Rule.follows_mp_iff]
  | mt a b => rw [conclusions, Rule.mem_single_iff, Rule.follows_mt_iff]
  | simp n side => rw [conclusions, Rule.mem_single_iff, Rule.follows_simp_iff]
  | iff n direction => rw [conclusions, Rule.mem_single_iff, Rule.follows_iff_iff]
  | hs a b =>
    rw [conclusions, Rule.mem_eitherOrder_iff, Rule.follows_hs_iff]
    intro x y f h
    obtain ⟨X, Y, Z, hx, hy, -⟩ := Rule.chain_eq_ok_iff.mp h
    exact Rule.ruleOnly_chain hy hx
  | adj a b =>
    rw [conclusions, Rule.mem_eitherOrder_iff, Rule.follows_adj_iff]
    intro x y f h
    obtain ⟨X, Y, hx, hy, -⟩ := Rule.adjoin_eq_ok_iff.mp h
    exact Rule.ruleOnly_adjoin hy hx
  | ds a b =>
    rw [conclusions, Rule.mem_eitherOrder_iff, Rule.follows_ds_iff]
    intro x y f h
    obtain ⟨X, Y, hx, ⟨hy, -⟩ | ⟨hy, -⟩⟩ := Rule.disjoin_eq_ok_iff.mp h
    · exact Rule.ruleOnly_disjoin hy hx
    · exact Rule.ruleOnly_disjoin hy hx

theorem isScalar_of_equalsInteger {n : Value} {k : Int} (h : n.equalsInteger k = true) :
    n.isScalar = true := by
  cases n with
  | null | bool | int | real | text => rfl
  | list | object => cases h

/-- A formula is accepted as an instance of an axiom exactly if it is one. -/
theorem validateInstance_eq_ok_iff {n : Value} :
    validateInstance n F = .ok () ↔ Follows lines (.ax n) F := by
  constructor
  · intro h
    unfold validateInstance at h
    split at h
    · cases h
    · split at h
      · cases h
      · next S hS =>
        obtain ⟨k, hk, hn⟩ := Hilbert.schema?_eq_some_iff.mp hS
        split at h
        · cases h
        · next r hr => exact .ax hn hk (Formula.instantiate_of_matchWith hr)
  · intro h
    cases h with
    | ax hn hk hs =>
      obtain ⟨r, hr⟩ := Formula.exists_matchWith_nil_iff.mpr ⟨_, hs⟩
      simp [validateInstance, isScalar_of_equalsInteger hn,
        Hilbert.schema?_eq_some_iff.mpr ⟨_, hk, hn⟩, hr]

/-- Validation accepts exactly what follows. -/
theorem validate_eq_ok_iff : j.validate lines F = .ok () ↔ Follows lines j F := by
  by_cases hj : ∃ n, j = .ax n
  · obtain ⟨n, rfl⟩ := hj
    exact validateInstance_eq_ok_iff
  · have hj : ∀ n, j ≠ .ax n := fun n h => hj ⟨n, h⟩
    rw [← mem_conclusions_iff hj]
    unfold validate
    split
    · exact absurd rfl (hj _)
    · cases hc : j.conclusions lines with
      | error o => simp
      | ok c => by_cases hF : F ∈ c.toList <;> simp [hF]

end Justification

/-! ## Cited lines -/

theorem Lines.CitesBoth.exists_cites {lines : Lines} {a b n : Value} {f g : Formula}
    (h : lines.CitesBoth a b f g) (hn : n ∈ [a, b]) : ∃ f, lines.Cites n f := by
  simp only [List.mem_cons, List.not_mem_nil, or_false] at hn
  rcases hn with rfl | rfl <;> rcases h with ⟨ha, hb⟩ | ⟨hb, ha⟩
  · exact ⟨f, ha⟩
  · exact ⟨g, ha⟩
  · exact ⟨g, hb⟩
  · exact ⟨f, hb⟩

/-- Every citation of a formula that follows names a line that holds a formula. -/
theorem Follows.exists_cites {lines : Lines} {j : Justification} {F : Formula}
    (h : Follows lines j F) {n : Value} (hn : n ∈ j.references) : ∃ f, lines.Cites n f := by
  cases h with
  | ax => cases hn
  | mp ha hb => exact Lines.CitesBoth.exists_cites (.inl ⟨ha, hb⟩) hn
  | mt ha hb => exact Lines.CitesBoth.exists_cites (.inl ⟨ha, hb⟩) hn
  | hs h => exact h.exists_cites hn
  | adj h => exact h.exists_cites hn
  | dsRight h => exact h.exists_cites hn
  | dsLeft h => exact h.exists_cites hn
  | simpLeft h => exact ⟨_, List.mem_singleton.mp hn ▸ h⟩
  | simpRight h => exact ⟨_, List.mem_singleton.mp hn ▸ h⟩
  | iffForth h => exact ⟨_, List.mem_singleton.mp hn ▸ h⟩
  | iffBack h => exact ⟨_, List.mem_singleton.mp hn ▸ h⟩

/-! ## Truth -/

theorem Lines.CitesBoth.holds {lines : Lines} {a b : Value} {f g : Formula} {w : String → Bool}
    (h : lines.CitesBoth a b f g)
    (hw : ∀ n ∈ [a, b], ∀ f, lines.Cites n f → f.holds w = true) :
    f.holds w = true ∧ g.holds w = true := by
  rcases h with ⟨ha, hb⟩ | ⟨hb, ha⟩
  · exact ⟨hw a (by simp) f ha, hw b (by simp) g hb⟩
  · exact ⟨hw b (by simp) f hb, hw a (by simp) g ha⟩

/-- What follows from lines of which the cited ones are true is true. -/
theorem Follows.holds {lines : Lines} {j : Justification} {F : Formula} (h : Follows lines j F)
    {w : String → Bool} (hw : ∀ n ∈ j.references, ∀ f, lines.Cites n f → f.holds w = true) :
    F.holds w = true := by
  cases h with
  | ax hn hk hs => exact Hilbert.holds_of_instance hk hs w
  | mp ha hb =>
    have hX := hw _ (by simp [Justification.references]) _ ha
    have hXY := hw _ (by simp [Justification.references]) _ hb
    exact Formula.holds_imp.mp hXY hX
  | mt ha hb =>
    have hXY := hw _ (by simp [Justification.references]) _ ha
    have hY := hw _ (by simp [Justification.references]) _ hb
    rw [Formula.holds_neg] at hY ⊢
    exact fun hX => hY (Formula.holds_imp.mp hXY hX)
  | hs h =>
    obtain ⟨hXY, hYZ⟩ := h.holds hw
    rw [Formula.holds_imp] at hXY hYZ ⊢
    exact fun hX => hYZ (hXY hX)
  | adj h => exact Formula.holds_and.mpr (h.holds hw)
  | dsRight h =>
    obtain ⟨hXY, hX⟩ := h.holds hw
    exact (Formula.holds_or.mp hXY).resolve_left (Formula.holds_neg.mp hX)
  | dsLeft h =>
    obtain ⟨hXY, hY⟩ := h.holds hw
    exact (Formula.holds_or.mp hXY).resolve_right (Formula.holds_neg.mp hY)
  | simpLeft h => exact (Formula.holds_and.mp (hw _ (by simp [Justification.references]) _ h)).1
  | simpRight h => exact (Formula.holds_and.mp (hw _ (by simp [Justification.references]) _ h)).2
  | iffForth h =>
    have hXY := Formula.holds_iff.mp (hw _ (by simp [Justification.references]) _ h)
    exact Formula.holds_imp.mpr hXY.mp
  | iffBack h =>
    have hXY := Formula.holds_iff.mp (hw _ (by simp [Justification.references]) _ h)
    exact Formula.holds_imp.mpr hXY.mpr

end Propositional
