import Propositional.Proofs.Enumeration
import Propositional.Semantics.Entailment

/-!
# Exact answers

A formula is called a tautology only if it is true under all valuations, and within the limit it is
called one whenever it is. Premises are said to entail a conclusion if no countermodel is found
among the valuations that are looked at, which are all of them within the limit. The search goes
through the names and leaves out what a valuation of some of them decides; yet it finds, in the same
order, the first countermodels in the list of all valuations.

A countermodel is a valuation under which the question fails, so a negative answer is right in
either case, and a positive one is right if all valuations were looked at.

## Main definitions

* `Entailment.Refutes`: a valuation under which the premises are true and the conclusion is false
* `Entailment.space`: the valuations that are looked at

## Main results

* `Formula.trueThroughout_cases`: what the check of a formula finds
* `Formula.isTautology_exact`: answers on tautologies are right
* `Entailment.search_eq_ok`, `Entailment.searchSamples_eq_ok`: what the search for countermodels
  finds
* `Entailment.entails_exact`: answers on entailment are right
-/

namespace Propositional

/-! ## Tautologies -/

namespace Formula

variable {f : Formula} {names : List String} {v : Valuation}

/-- The check of a formula returns that it is true under all valuations of the further names, or
that it is false under one of them, and it is so. -/
theorem trueThroughout_cases (hnames : (v.names ++ names).Nodup)
    (hcovers : ∀ x ∈ f.leaves, x ∈ v.names ++ names) :
    (f.trueThroughout names v = .ok true ∧
        ∀ w ∈ Valuation.completions names v, f.evaluate w = .ok true) ∨
      f.trueThroughout names v = .ok false ∧
        ∃ w ∈ Valuation.completions names v, f.evaluate w = .ok false := by
  induction names generalizing v with
  | nil =>
    rw [List.append_nil] at hcovers
    obtain ⟨b, hb⟩ := exists_evaluate_of_covers (Valuation.covers_of_subset hcovers)
    rw [trueThroughout, hb]
    cases b with
    | true => exact .inl ⟨rfl, List.forall_mem_singleton.mpr hb⟩
    | false => exact .inr ⟨rfl, v, List.mem_singleton.mpr rfl, hb⟩
  | cons x xs ih =>
    rw [trueThroughout]
    cases hv : f.evaluate v with
    | ok b =>
      -- the values so far decide the formula, whatever the others are
      have hsame : ∀ w ∈ Valuation.completions (x :: xs) v, f.evaluate w = .ok b := by
        intro w hw
        exact evaluate_of_extends (Valuation.extends_of_mem_completions hnames hw) hv
      obtain ⟨w, hw, -⟩ := Valuation.exists_mem_completions (fun _ => false) hnames
      cases b with
      | true => exact .inl ⟨rfl, hsame⟩
      | false => exact .inr ⟨rfl, w, hw, hsame w hw⟩
    | error u =>
      -- a value is missing, so both values of the next name are looked at
      have hset := Valuation.names_set_append (Valuation.not_mem_of_nodup hnames)
      have hbranch := fun b => ih (v := v.set x b) (by rwa [hset]) (by rwa [hset])
      rcases hbranch false with ⟨hfalse, hall⟩ | ⟨hfalse, w, hw, hwf⟩
      · rcases hbranch true with ⟨htrue, hall'⟩ | ⟨htrue, w, hw, hwf⟩
        · refine .inl ⟨by simp only [hfalse, htrue], fun w hw => ?_⟩
          rcases List.mem_append.mp hw with hw | hw
          · exact hall w hw
          · exact hall' w hw
        · exact .inr ⟨by simp only [hfalse, htrue], w, List.mem_append_right _ hw, hwf⟩
      · exact .inr ⟨by simp only [hfalse], w, List.mem_append_left _ hw, hwf⟩

/-- A formula that is true under all valuations of its variables is true under every valuation that
gives them values. -/
theorem evaluate_of_forall_mem_all (hf : ListsNames names [f])
    (h : ∀ w ∈ Valuation.all names, f.evaluate w = .ok true) (hv : v.Covers f) :
    f.evaluate v = .ok true := by
  obtain ⟨w, hw, hagrees⟩ := Valuation.exists_mem_all_agreesWith v.total hf.1
  rw [evaluate_eq_holds v.agreesWith_total hv, holds_of_evaluate hagrees (h w hw)]

/-- Whether a formula is a tautology is always answered. If the answer is yes, the formula is true
under every valuation that gives values to its variables, and perhaps to other names. If it has no
more different variables than the limit allows and the answer is no, it is false under a valuation
of its variables. -/
theorem isTautology_exact (s : Settings) (f : Formula) :
    ListsNames f.vars [f] ∧
    ∃ b, f.isTautology s = .ok b ∧
      (b = true → ∀ v : Valuation, v.Covers f → f.evaluate v = .ok true) ∧
      ((f.vars.length : Int) ≤ s.tautologyLimit → b = false →
        ∃ v : Valuation, v.names = f.vars ∧ f.evaluate v = .ok false) := by
  have hlists := listsNames_vars f
  refine ⟨hlists, ?_⟩
  by_cases hlimit : f.exceedsTautologyLimit s = true
  · -- nothing was looked at
    refine ⟨false, by rw [isTautology, if_pos hlimit], Bool.false_ne_true.elim, fun hle => ?_⟩
    rw [exceedsTautologyLimit, decide_eq_true_eq] at hlimit
    omega
  · rw [isTautology, if_neg hlimit]
    have hnames : (Table.names ([] : Valuation) ++ f.vars).Nodup := hlists.1
    have hcovers : ∀ x ∈ f.leaves, x ∈ Table.names ([] : Valuation) ++ f.vars :=
      fun x hx => (hlists.2 x).mpr ⟨f, List.mem_singleton.mpr rfl, hx⟩
    have hcases := trueThroughout_cases hnames hcovers
    rw [← Valuation.all_eq_completions hlists.1] at hcases
    rcases hcases with ⟨htrue, hall⟩ | ⟨hfalse, w, hw, hwf⟩
    · refine ⟨true, htrue, fun _ v hv => evaluate_of_forall_mem_all hlists hall hv, fun _ h => ?_⟩
      cases h
    · refine ⟨false, hfalse, fun h => ?_, fun _ _ => ⟨w, ?_, hwf⟩⟩
      · cases h
      · exact Valuation.names_of_mem_all hlists.1 hw

/-- The limit decides whether the answer is looked for. -/
example :
    ((imp (var "A") (imp (var "B") (var "A"))).isTautology {}).toOption = some true ∧
    ((imp (var "A") (imp (var "B") (var "A"))).isTautology { tautologyLimit := 1 }).toOption =
      some false := by
  decide

end Formula

/-! ## Countermodels -/

namespace Valuation

variable {v : Valuation} {fs : List Formula}

theorem satisfies_eq_ok_true_iff :
    v.satisfies fs = .ok true ↔ ∀ f ∈ fs, f.evaluate v = .ok true := by
  induction fs with
  | nil => simp [satisfies]
  | cons f fs ih =>
    rw [satisfies, List.forall_mem_cons, ← ih]
    cases f.evaluate v with
    | error u => simp
    | ok b => cases b <;> simp

theorem exists_of_satisfies_eq_ok_false (h : v.satisfies fs = .ok false) :
    ∃ f ∈ fs, f.evaluate v = .ok false := by
  induction fs with
  | nil => cases h
  | cons f fs ih =>
    rw [satisfies] at h
    cases hf : f.evaluate v with
    | error u => simp [hf] at h
    | ok b =>
      cases b with
      | false => exact ⟨f, List.mem_cons_self, hf⟩
      | true =>
        simp only [hf] at h
        obtain ⟨g, hg, hgv⟩ := ih h
        exact ⟨g, List.mem_cons_of_mem f hg, hgv⟩

theorem exists_satisfies_of_covers (h : ∀ f ∈ fs, v.Covers f) : ∃ b, v.satisfies fs = .ok b := by
  induction fs with
  | nil => exact ⟨true, rfl⟩
  | cons f fs ih =>
    obtain ⟨hf, hfs⟩ := List.forall_mem_cons.mp h
    obtain ⟨a, ha⟩ := Formula.exists_evaluate_of_covers hf
    cases a with
    | false => exact ⟨false, by rw [satisfies, ha]⟩
    | true =>
      obtain ⟨b, hb⟩ := ih hfs
      exact ⟨b, by rw [satisfies, ha, ← hb]⟩

end Valuation

namespace Entailment

variable {premises : List Formula} {conclusion : Formula} {v w : Valuation}

/-- A valuation makes all premises true and the conclusion false. -/
def Refutes (premises : List Formula) (conclusion : Formula) (v : Valuation) : Prop :=
  (∀ p ∈ premises, p.evaluate v = .ok true) ∧ conclusion.evaluate v = .ok false

theorem isCountermodel_eq_ok_true_iff :
    isCountermodel premises conclusion v = .ok true ↔ Refutes premises conclusion v := by
  rw [Refutes, ← Valuation.satisfies_eq_ok_true_iff, isCountermodel]
  cases v.satisfies premises with
  | error u => simp
  | ok b =>
    cases b with
    | false => simp
    | true => cases conclusion.evaluate v <;> simp

instance (premises : List Formula) (conclusion : Formula) (v : Valuation) :
    Decidable (Refutes premises conclusion v) :=
  match h : isCountermodel premises conclusion v with
  | .ok true => isTrue (isCountermodel_eq_ok_true_iff.mp h)
  | .ok false => isFalse fun hr => by
    rw [isCountermodel_eq_ok_true_iff.mpr hr] at h
    cases h
  | .error _ => isFalse fun hr => by
    rw [isCountermodel_eq_ok_true_iff.mpr hr] at h
    cases h

/-- If some values decide that there is no countermodel, no further values make one. -/
theorem not_refutes_of_extends (h : isCountermodel premises conclusion v = .ok false)
    (hwv : w.Extends v) : ¬ Refutes premises conclusion w := by
  rintro ⟨hpremises, hconclusion⟩
  rw [isCountermodel] at h
  cases hv : v.satisfies premises with
  | error u => simp [hv] at h
  | ok b =>
    cases b with
    | false =>
      -- a premise is false and stays so
      obtain ⟨p, hp, hpv⟩ := Valuation.exists_of_satisfies_eq_ok_false hv
      have hpw := Formula.evaluate_of_extends hwv hpv
      rw [hpremises p hp] at hpw
      cases hpw
    | true =>
      -- the conclusion is true and stays so
      simp only [hv] at h
      cases hc : conclusion.evaluate v with
      | error u => simp [hc] at h
      | ok c =>
        have hcw := Formula.evaluate_of_extends hwv hc
        rw [hconclusion] at hcw
        cases hcw
        simp [hc] at h

/-- Where all variables have a value, it is known whether there is a countermodel. -/
theorem isCountermodel_of_covers (h : ∀ f ∈ premises ++ [conclusion], v.Covers f) :
    isCountermodel premises conclusion v = .ok (decide (Refutes premises conclusion v)) := by
  have hknown : ∃ b, isCountermodel premises conclusion v = .ok b := by
    obtain ⟨b, hb⟩ := Valuation.exists_satisfies_of_covers
      fun p hp => h p (List.mem_append_left _ hp)
    obtain ⟨c, hc⟩ := Formula.exists_evaluate_of_covers
      (h conclusion (List.mem_append_right _ (List.mem_singleton.mpr rfl)))
    rw [isCountermodel, hb]
    cases b with
    | false => exact ⟨false, rfl⟩
    | true => exact ⟨!c, by rw [hc]⟩
  obtain ⟨b, hb⟩ := hknown
  rw [hb]
  cases b with
  | true => rw [decide_eq_true (isCountermodel_eq_ok_true_iff.mp hb)]
  | false => rw [decide_eq_false (not_refutes_of_extends hb (Table.Extends.refl v))]

/-! ## The search -/

/-- The countermodels that a search up to a limit finds: as many as the limit says, but one even if
it says none. -/
def room (limit : Int) : Nat :=
  (max 1 limit).toNat

/-- What is found in two lists, one after the other, up to a limit. -/
theorem take_append_of_room (limit : Int) (found more : List Valuation) :
    (found ++ more).take (room limit) =
      if isFull limit (found.take (room limit)) then found.take (room limit)
      else found.take (room limit)
        ++ more.take (room (limit - (found.take (room limit)).length)) := by
  cases found with
  | nil => simp [isFull]
  | cons v found =>
    have hpositive : 1 ≤ room limit := by
      rw [room]
      omega
    rw [List.take_append]
    split
    · next hfull =>
      -- nothing of the second list is left
      have hnone : room limit - (v :: found).length = 0 := by
        simp only [isFull, Bool.and_eq_true, decide_eq_true_eq, List.length_take] at hfull
        simp only [room, List.length_cons] at hfull ⊢
        omega
      rw [hnone, List.take_zero, List.append_nil]
    · next hfull =>
      have hnonempty : ((v :: found).take (room limit)).isEmpty = false := by
        rw [List.isEmpty_eq_false_iff, ne_eq, List.take_eq_nil_iff]
        simp only [reduceCtorEq, or_false]
        omega
      simp only [isFull, hnonempty, Bool.not_false, Bool.true_and, decide_eq_true_eq,
        List.length_take] at hfull
      have hleft : room (limit - ((v :: found).take (room limit)).length) =
          room limit - (v :: found).length := by
        rw [List.length_take]
        simp only [room] at hfull ⊢
        omega
      rw [hleft]

/-- The search through the names finds the first countermodels in the list of all valuations. -/
theorem search_eq_ok {names : List String} (hnames : (v.names ++ names).Nodup)
    (hcovers : ∀ f ∈ premises ++ [conclusion], ∀ x ∈ f.leaves, x ∈ v.names ++ names)
    (limit : Int) :
    search premises conclusion names v limit =
      .ok (((Valuation.completions names v).filter (Refutes premises conclusion ·)).take
        (room limit)) := by
  induction names generalizing v limit with
  | nil =>
    have hv : ∀ f ∈ premises ++ [conclusion], v.Covers f := by
      intro f hf
      have hf := hcovers f hf
      rw [List.append_nil] at hf
      exact Valuation.covers_of_subset hf
    have hpositive : room limit ≠ 0 := by
      rw [room]
      omega
    rw [search, isCountermodel_of_covers hv, Valuation.completions]
    by_cases hrefutes : Refutes premises conclusion v
    · simp [hrefutes, List.take_cons (Nat.pos_of_ne_zero hpositive)]
    · simp [hrefutes]
  | cons x xs ih =>
    by_cases hdecided : isCountermodel premises conclusion v = .ok false
    · -- there is no countermodel, whatever the other values are
      have hnone : (Valuation.completions (x :: xs) v).filter (Refutes premises conclusion ·) =
          [] := by
        rw [List.filter_eq_nil_iff]
        intro w hw
        rw [decide_eq_true_eq]
        exact not_refutes_of_extends hdecided (Valuation.extends_of_mem_completions hnames hw)
      rw [search, hdecided, hnone, List.take_nil]
    · -- what the first branch leaves of the limit is the limit of the second
      have hset := Valuation.names_set_append (Valuation.not_mem_of_nodup hnames)
      have hbranch := fun b => ih (v := v.set x b) (by rwa [hset]) (by rwa [hset])
      rw [search]
      split
      · next hfalse => exact absurd hfalse hdecided
      · simp only [hbranch]
        rw [Valuation.completions, List.filter_append, take_append_of_room]
        split <;> rfl

/-- The search through samples finds the first countermodels among them. -/
theorem searchSamples_eq_ok {names : List String} {bits : List Nat}
    (hnames : Formula.ListsNames names (premises ++ [conclusion]))
    (hbits : bits.length = names.length) (count counter : Nat) (limit : Int) :
    searchSamples premises conclusion names bits count counter limit =
      .ok ((((List.range' counter count).map (Valuation.ofCounter names bits)).filter
        (Refutes premises conclusion ·)).take (room limit)) := by
  induction count generalizing counter limit with
  | zero => simp [searchSamples]
  | succ count ih =>
    have hknown := isCountermodel_of_covers (Valuation.covers_of_listsNames hnames
      (Valuation.names_ofCounter hnames.1 hbits counter))
    rw [searchSamples, hknown, List.range'_succ, List.map_cons]
    by_cases hrefutes : Refutes premises conclusion (Valuation.ofCounter names bits counter)
    · rw [decide_eq_true hrefutes, List.filter_cons_of_pos (by simpa using hrefutes)]
      have hfirst := take_append_of_room limit [Valuation.ofCounter names bits counter]
      have hone : [Valuation.ofCounter names bits counter].take (room limit) =
          [Valuation.ofCounter names bits counter] := by
        rw [room, List.take_of_length_le]
        simp only [List.length_singleton]
        omega
      simp only [hone, List.singleton_append, List.length_singleton] at hfirst
      rw [hfirst]
      simp only [ih]
      split <;> rfl
    · rw [decide_eq_false hrefutes, List.filter_cons_of_neg (by simpa using hrefutes)]
      simp only [ih]

/-! ## Answers -/

/-- The valuations that are looked at: all of them within the limit, samples above it. -/
def space (s : Settings) (premises : List Formula) (conclusion : Formula) :
    Except Valuation.SampleError (List Valuation) :=
  let names := vars premises conclusion
  if names.length ≤ s.entailmentLimit then .ok (Valuation.all names)
  else Valuation.sampled names s.entailmentSamples s.entailmentLimit

theorem listsNames_vars (premises : List Formula) (conclusion : Formula) :
    Formula.ListsNames (vars premises conclusion) (premises ++ [conclusion]) :=
  Formula.listsNames_varsOf _

section Space

variable {s : Settings} (hlimit : 1 ≤ s.entailmentLimit)

include hlimit

/-- A counter that has a bit can be read for every question. -/
theorem exists_space (premises : List Formula) (conclusion : Formula) :
    ∃ vs, space s premises conclusion = .ok vs := by
  unfold space
  dsimp only
  split
  · exact ⟨_, rfl⟩
  · obtain ⟨bits, hbits⟩ := Valuation.exists_bitsFrom hlimit 0 (vars premises conclusion)
    unfold Valuation.sampled
    split
    · exact ⟨[], rfl⟩
    · exact ⟨_, by rw [hbits]⟩

omit hlimit in
theorem covers_of_mem_space {vs : List Valuation} (hvs : space s premises conclusion = .ok vs)
    (hw : w ∈ vs) : ∀ f ∈ premises ++ [conclusion], w.Covers f := by
  have hlists := listsNames_vars premises conclusion
  apply Valuation.covers_of_listsNames hlists
  unfold space at hvs
  dsimp only at hvs
  split at hvs
  · cases hvs
    exact Valuation.names_of_mem_all hlists.1 hw
  · exact Valuation.names_of_mem_sampled hlists.1 hvs hw

omit hlimit in
theorem ofAll_eq_ok (s : Settings) (premises : List Formula) (conclusion : Formula) :
    ofAll s premises conclusion =
      .ok (((Valuation.all (vars premises conclusion)).filter
        (Refutes premises conclusion ·)).take (room s.maxCountermodels)) := by
  have hlists := listsNames_vars premises conclusion
  have hnames : (Table.names ([] : Valuation) ++ vars premises conclusion).Nodup := hlists.1
  have hcovers : ∀ f ∈ premises ++ [conclusion], ∀ x ∈ f.leaves,
      x ∈ Table.names ([] : Valuation) ++ vars premises conclusion :=
    fun f hf x hx => (hlists.2 x).mpr ⟨f, hf, hx⟩
  rw [ofAll, search_eq_ok hnames hcovers, Valuation.all_eq_completions hlists.1]
  rfl

theorem ofSample_eq_ok {vs : List Valuation}
    (hvs : Valuation.sampled (vars premises conclusion) s.entailmentSamples s.entailmentLimit =
      .ok vs) :
    ofSample s premises conclusion =
      .ok ((vs.filter (Refutes premises conclusion ·)).take (room s.maxCountermodels)) := by
  obtain ⟨bits, hbits⟩ := Valuation.exists_bitsFrom hlimit 0 (vars premises conclusion)
  rw [Valuation.sampled] at hvs
  rw [ofSample]
  split at hvs
  · next hnone =>
    cases hvs
    rw [if_pos hnone, List.filter_nil, List.take_nil]
  · next hsome =>
    rw [hbits] at hvs
    cases hvs
    simp only [if_neg hsome, hbits]
    rw [searchSamples_eq_ok (listsNames_vars premises conclusion)
      (Valuation.length_of_bitsFrom hbits), List.range_eq_range']
    rfl

/-- The countermodels that are reported are the first ones among the valuations that are looked
at. -/
theorem entails_eq_ok {vs : List Valuation} (hvs : space s premises conclusion = .ok vs) :
    entails s premises conclusion =
      .ok {
        valid :=
          ((vs.filter (Refutes premises conclusion ·)).take (room s.maxCountermodels)).isEmpty,
        countermodels :=
          (vs.filter (Refutes premises conclusion ·)).take (room s.maxCountermodels),
        exhaustive := isExhaustive s premises conclusion } := by
  unfold space at hvs
  dsimp only at hvs
  unfold entails
  dsimp only
  by_cases hall : ((vars premises conclusion).length : Int) ≤ s.entailmentLimit
  · have hexhaustive : isExhaustive s premises conclusion = true := decide_eq_true hall
    rw [if_pos hall] at hvs
    cases hvs
    rw [if_pos hexhaustive, ofAll_eq_ok]
  · have hexhaustive : ¬ isExhaustive s premises conclusion = true := by
      rw [isExhaustive, decide_eq_true_eq]
      exact hall
    rw [if_neg hall] at hvs
    rw [if_neg hexhaustive, ofSample_eq_ok hlimit hvs]

end Space

/-- At least one countermodel is reported if there is one. -/
theorem take_room_eq_nil_iff {α : Type} (s : Settings) (found : List α) :
    found.take (room s.maxCountermodels) = [] ↔ found = [] := by
  have hroom : room s.maxCountermodels ≠ 0 := by
    rw [room]
    omega
  simp [List.take_eq_nil_iff, hroom]

/-- A countermodel shows that the conclusion does not follow. -/
theorem not_isConsequence_of_refutes (h : Refutes premises conclusion w)
    (hw : w.Covers conclusion) : ¬ conclusion.IsConsequence premises := by
  intro hconsequence
  have htrue := hconsequence w h.1 hw
  rw [h.2] at htrue
  cases htrue

/-- If no valuation of the variables is a countermodel, the conclusion follows. -/
theorem isConsequence_of_forall_mem_all
    (h : ∀ w ∈ Valuation.all (vars premises conclusion), ¬ Refutes premises conclusion w) :
    conclusion.IsConsequence premises := by
  have hlists := listsNames_vars premises conclusion
  apply Formula.isConsequence_of_holds
  intro u hu
  obtain ⟨w, hw, hagrees⟩ := Valuation.exists_mem_all_agreesWith u hlists.1
  have hcovers := Valuation.covers_of_listsNames hlists (Valuation.names_of_mem_all hlists.1 hw)
  have hvalue : ∀ f ∈ premises ++ [conclusion], f.evaluate w = .ok (f.holds u) :=
    fun f hf => Formula.evaluate_eq_holds hagrees (hcovers f hf)
  cases hconclusion : conclusion.holds u with
  | true => rfl
  | false =>
    -- the assignment would be a countermodel
    refine absurd ⟨fun p hp => ?_, ?_⟩ (h w hw)
    · rw [hvalue p (List.mem_append_left _ hp), hu p hp]
    · rw [hvalue conclusion (List.mem_append_right _ (List.mem_singleton.mpr rfl)), hconclusion]

/-- If the counter of samples has a bit, every question of entailment is answered. The answer says
whether the variables, of which each is counted once, are within the limit. If they are, every
valuation of them is looked at, and none twice; otherwise samples are. The countermodels that are
reported are the first ones among these, as many as are asked for but at least one, and the answer
is yes exactly if there is none. So if all valuations were looked at, the answer is yes exactly if
the conclusion is true wherever the premises are, and in any case it is no only if it is not. -/
theorem entails_exact (s : Settings) (hlimit : 1 ≤ s.entailmentLimit) (premises : List Formula)
    (conclusion : Formula) :
    Formula.ListsNames (vars premises conclusion) (premises ++ [conclusion]) ∧
    ∃ vs e, space s premises conclusion = .ok vs ∧ entails s premises conclusion = .ok e ∧
      (e.exhaustive = true ↔ ((vars premises conclusion).length : Int) ≤ s.entailmentLimit) ∧
      (e.exhaustive = true →
        vs.Nodup ∧ ∀ v : Valuation, v ∈ vs ↔ v.names = vars premises conclusion) ∧
      e.countermodels = (vs.filter (Refutes premises conclusion ·)).take
        (max 1 s.maxCountermodels).toNat ∧
      (e.valid = true ↔ ∀ v ∈ vs, ¬ Refutes premises conclusion v) ∧
      (e.exhaustive = true → (e.valid = true ↔ conclusion.IsConsequence premises)) ∧
      (e.valid = false → ¬ conclusion.IsConsequence premises) := by
  have hlists := listsNames_vars premises conclusion
  refine ⟨hlists, ?_⟩
  obtain ⟨vs, hvs⟩ := exists_space hlimit premises conclusion
  have hvalid :
      ((vs.filter (Refutes premises conclusion ·)).take (room s.maxCountermodels)).isEmpty = true ↔
        ∀ v ∈ vs, ¬ Refutes premises conclusion v := by
    rw [List.isEmpty_iff, take_room_eq_nil_iff, List.filter_eq_nil_iff]
    simp
  have hfound : ∀ v ∈ vs, Refutes premises conclusion v → ¬ conclusion.IsConsequence premises := by
    intro v hv hrefutes
    have hcovers := covers_of_mem_space hvs hv
    exact not_isConsequence_of_refutes hrefutes
      (hcovers conclusion (List.mem_append_right _ (List.mem_singleton.mpr rfl)))
  have hexhaustive : isExhaustive s premises conclusion = true ↔
      ((vars premises conclusion).length : Int) ≤ s.entailmentLimit := decide_eq_true_iff
  have hspace : isExhaustive s premises conclusion = true →
      vs = Valuation.all (vars premises conclusion) := by
    intro hall
    rw [space, if_pos (hexhaustive.mp hall)] at hvs
    exact (Except.ok.inj hvs).symm
  refine ⟨vs, _, hvs, entails_eq_ok hlimit hvs, hexhaustive, fun hall => ?_, rfl, hvalid,
    fun hall => ?_, fun hinvalid hconsequence => ?_⟩
  · rw [hspace hall]
    exact ⟨Valuation.nodup_all hlists.1, fun _ => Valuation.mem_all_iff hlists.1⟩
  · dsimp only
    rw [hvalid]
    refine ⟨fun hnone => ?_, fun hconsequence v hv hrefutes => ?_⟩
    · rw [hspace hall] at hnone
      exact isConsequence_of_forall_mem_all hnone
    · exact hfound v hv hrefutes hconsequence
  · rw [hvalid.mpr fun v hv hrefutes => hfound v hv hrefutes hconsequence] at hinvalid
    cases hinvalid

/-- Of two countermodels only the first is reported where a negative number of them is asked for.
Two samples of two variables that share the only bit of the counter miss the one countermodel. -/
theorem entails_exact_samples :
    (∃ e, entails { maxCountermodels := -1 } [.or (.var "A") (.var "B")]
        (.and (.var "A") (.var "B")) = .ok e ∧ e.exhaustive = true ∧ e.valid = false ∧
      e.countermodels = [[("A", false), ("B", true)]] ∧
      ¬ (Formula.and (.var "A") (.var "B")).IsConsequence [.or (.var "A") (.var "B")]) ∧
    ∃ e, entails { entailmentLimit := 1, entailmentSamples := 2 } [.var "A"] (.var "B") = .ok e ∧
      e.exhaustive = false ∧ e.valid = true ∧ e.countermodels = [] := by
  constructor
  · obtain ⟨-, vs, e, hvs, he, hexhaustive, -, hcountermodels, hvalid, -, hinvalid⟩ :=
      entails_exact { maxCountermodels := -1 } (by decide) [.or (.var "A") (.var "B")]
        (.and (.var "A") (.var "B"))
    obtain rfl : _ = vs := Except.ok.inj hvs
    have hno : e.valid = false := by
      rw [← Bool.not_eq_true, hvalid]
      decide
    exact ⟨e, he, hexhaustive.mpr (by decide), hno, hcountermodels.trans (by decide), hinvalid hno⟩
  · obtain ⟨-, vs, e, hvs, he, hexhaustive, -, hcountermodels, hvalid, -, -⟩ :=
      entails_exact { entailmentLimit := 1, entailmentSamples := 2 } (by decide) [.var "A"]
        (.var "B")
    obtain rfl : _ = vs := Except.ok.inj hvs
    have hsampled : e.exhaustive = false := by
      rw [← Bool.not_eq_true, hexhaustive]
      decide
    exact ⟨e, he, hsampled, hvalid.mpr (by decide), hcountermodels.trans (by decide)⟩

end Entailment

end Propositional
