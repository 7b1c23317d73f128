import Mathlib.Logic.Basic
import Propositional.Proofs.Grammar

/-!
# Reading follows the grammar

The machine that reads formulas keeps pending parts on a stack. Each of them awaits a phrase of one
level of the grammar: an open parenthesis one of the loosest level, a negation another negation or
atom, a connective its right operand. A phrase of a level may be followed by a connective only if
the phrase could be the left operand of it, which is also the condition on which a pending
connective takes its right operand. From this agreement come both directions: what the grammar
derives is read, in exactly the room it takes, and what is read was derived.

## Main definitions

* `Reader.expected`: the level of the phrase awaited next
* `Reader.MayPrecede`: a phrase of a level may stand before what follows
* `Reader.Pending`: the tokens that pending parts were read from

## Main results

* `Reader.run_takes`, `Reader.lacksRoom_run`: what the grammar derives is read if and only if there
  is room for it
* `Reader.InHand.settle`: handing a phrase to pending parts keeps to the grammar
* `Reader.derives_of_run`: what is read is derived from the grammar
* `Reader.lt_of_run_tooNested`: only tokens that would take more room are refused for lack of it
* `Derives.unique`: a row of tokens has no two trees
-/

namespace Propositional

namespace Reader

variable {room level l : Nat} {st : List Frame} {f g : Formula} {t : Token} {ts us vs : List Token}

/-! ## Levels of pending parts -/

/-- The level of the phrase that a pending part awaits. -/
def Frame.awaits : Frame → Nat
  | .paren => 1
  | .neg => 5
  | .left op _ => op.rightLevel

/-- The level of the phrase awaited next while a phrase of `level` is read. -/
def expected (level : Nat) : List Frame → Nat
  | [] => level
  | fr :: _ => fr.awaits

/-- The connective that a token writes. -/
def connective? (t : Token) : Option Connective :=
  match t.kind with
  | .op c => some c
  | _ => none

/-- A phrase of a level may stand before what follows: a connective has to accept it as its left
operand. -/
def MayPrecede (l : Nat) (next : Option Connective) : Prop :=
  ∀ c, next = some c → c.leftLevel ≤ l

theorem mayPrecede_none : MayPrecede l none := by
  intro c hc
  cases hc

theorem mayPrecede_some {c : Connective} : MayPrecede l (some c) ↔ c.leftLevel ≤ l := by
  simp [MayPrecede]

theorem MayPrecede.mono {k : Nat} {next : Option Connective} (h : MayPrecede k next) (hkl : k ≤ l) :
    MayPrecede l next := by
  intro c hc
  exact Nat.le_trans (h c hc) hkl

/-- Negations and atoms may stand before every connective. -/
theorem mayPrecede_of_five_le {next : Option Connective} (hl : 5 ≤ l) : MayPrecede l next := by
  intro c _
  exact Nat.le_trans c.leftLevel_le_five hl

theorem Frame.awaits_le_five (fr : Frame) : fr.awaits ≤ 5 := by
  cases fr with
  | paren | neg => decide
  | left op => exact op.rightLevel_le_five

theorem expected_le_six (h : level ≤ 6) : expected level st ≤ 6 := by
  cases st with
  | nil => exact h
  | cons fr st => exact Nat.le_succ_of_le fr.awaits_le_five

/-- A pending connective takes its right operand exactly if the whole may stand before what
follows. -/
theorem takesBefore_iff {op : Connective} {next : Option Connective} :
    takesBefore op next = true ↔ MayPrecede op.rank next := by
  cases next with
  | none => simp [takesBefore, mayPrecede_none]
  | some c =>
    rw [mayPrecede_some]
    cases op <;> cases c <;> decide

/-- A connective that a pending one does not give way to can be part of its right operand. -/
theorem rightLevel_le_rank {op c : Connective} (h : takesBefore op (some c) = false) :
    op.rightLevel ≤ c.rank := by
  revert h
  cases op <;> cases c <;> decide

/-- Nothing pending is completed before a connective that can be part of the awaited phrase. -/
theorem settle_of_expected_le {c : Connective} (h : expected level st ≤ c.rank) :
    settle (some c) st f = (st, f) := by
  cases st with
  | nil => rfl
  | cons fr st =>
    cases fr with
    | paren => rfl
    | neg =>
      -- no connective binds as tightly as a negation
      have h₄ := c.rank_le_four
      simp only [expected, Frame.awaits] at h
      omega
    | left op g =>
      have hop : takesBefore op (some c) = false := by
        simp only [expected, Frame.awaits] at h
        revert h
        cases op <;> cases c <;> decide
      simp [settle, hop]

/-! ## What is derived is read -/

theorem run_var (ht : t.kind = .var) :
    run room level st none (t :: ts) = run room level st (some (.var t.text)) ts := by
  simp [run, ht]

theorem run_lparen (ht : t.kind = .lparen) :
    run room level st none (t :: ts) =
      if room < weight (.paren :: st) then .error (lack room (.paren :: st) ts)
      else run room level (.paren :: st) none ts := by
  simp [run, ht, overfull]

/-- A negation is read where one is awaited. -/
theorem run_not (ht : t.kind = .not) (hl : expected level st ≤ 5) :
    run room level st none (t :: ts) =
      if room < weight (.neg :: st) then .error (lack room (.neg :: st) ts)
      else run room level (.neg :: st) none ts := by
  have h : (st.isEmpty && level == 6) = false := by
    cases st with
    | nil => simpa [expected] using Nat.ne_of_lt (Nat.lt_succ_of_le hl)
    | cons => rfl
  simp [run, ht, h, overfull]

/-- A connective is read where a phrase is awaited that it can be part of. -/
theorem run_op {c : Connective} (ht : t.kind = .op c) (hl : expected level st ≤ c.rank) :
    run room level st (some f) (t :: ts) =
      if room < weight (.left c f :: st) then .error (lack room (.left c f :: st) ts)
      else run room level (.left c f :: st) none ts := by
  have h : (st.isEmpty && decide (c.rank < level)) = false := by
    cases st with
    | nil => simpa [expected] using hl
    | cons => rfl
  simp [run, ht, settle_of_expected_le hl, h, overfull]

theorem run_rparen (ht : t.kind = .rparen) :
    run room level (.paren :: st) (some f) (t :: ts) = run room level st (some f) ts := by
  simp [run, ht, settle]

/-- What is in hand and what is pending count only through how they settle before the next
token. -/
theorem run_congr {st' : List Frame} {f' : Formula}
    (h : settle (connective? t) st f = settle (connective? t) st' f') :
    run room level st (some f) (t :: ts) = run room level st' (some f') (t :: ts) := by
  unfold connective? at h
  cases ht : t.kind with
  | op c =>
    simp only [ht] at h
    simp [run, ht, h]
  | var | not | lparen | rparen | stop =>
    simp only [ht] at h
    simp [run, ht, h]

/-- What the grammar derives at the awaited level or a tighter one is read, if there is room for
it: the machine goes on with the tree in hand. -/
theorem run_takes {n : Nat} {rest : List Token} (h : Takes l ts f n)
    (hl : expected level st ≤ l) (ht : MayPrecede l (connective? t))
    (hroom : weight st + n ≤ room) :
    run room level st none (ts ++ t :: rest) = run room level st (some f) (t :: rest) := by
  -- by induction on the derivation, for every stack: operands are read with more pending than the
  -- whole, and what ends them differs from what ends the whole
  induction h generalizing st t rest with
  | var hv => rw [List.singleton_append, run_var hv]
  | @paren o c ts f n ho _ hc ih =>
    have hw : weight (.paren :: st) = Frame.paren.weight + weight st := rfl
    -- the phrase inside is ended by `c`, before which every phrase may stand
    have hc' : MayPrecede 1 (connective? c) := by
      simp [connective?, hc, mayPrecede_none]
    have hin : expected level (.paren :: st) ≤ 1 := Nat.le_refl 1
    rw [List.cons_append, run_lparen ho, if_neg (by omega), List.append_assoc,
      List.singleton_append, ih hin hc' (by omega), run_rparen hc]
  | atom _ ih => exact ih (by omega) (ht.mono (by omega)) hroom
  | @neg t' ts f n ht' _ ih =>
    have hw : weight (.neg :: st) = Frame.neg.weight + weight st := rfl
    have hin : expected level (.neg :: st) ≤ 5 := Nat.le_refl 5
    rw [List.cons_append, run_not ht' hl, if_neg (by omega), ih hin ht (by omega)]
    exact run_congr rfl
  | operand _ ih => exact ih (by omega) (ht.mono (by omega)) hroom
  | @bin op t' ts us f g m n _ ht' _ ih ih' =>
    have hw : weight (.left op f :: st) = (Frame.left op f).weight + weight st := rfl
    have hleft : MayPrecede op.leftLevel (connective? t') := by
      simp [connective?, ht', mayPrecede_some]
    -- the right operand ends where the whole does, so the connective takes it
    have hsettle : settle (connective? t) (.left op f :: st) g =
        settle (connective? t) st (.bin op f g) := by
      simp [settle, takesBefore_iff.mpr ht]
    have hin : expected level (.left op f :: st) ≤ op.rightLevel := Nat.le_refl _
    rw [List.append_assoc, List.cons_append,
      ih (Nat.le_trans hl op.rank_le_leftLevel) hleft (by omega), run_op ht' hl,
      if_neg (by omega), ih' hin (ht.mono op.rank_le_rightLevel) (by omega)]
    exact run_congr hsettle

/-- Tokens are refused for lack of room. -/
def LacksRoom {α : Type} (r : Except SyntaxError α) : Prop :=
  ∃ o, r = .error (.tooNested o)

/-- What the grammar derives is refused for lack of room if it takes more than there is. -/
theorem lacksRoom_run {n : Nat} {rest : List Token} (h : Takes l ts f n)
    (hl : expected level st ≤ l) (ht : MayPrecede l (connective? t)) (hst : weight st ≤ room)
    (hroom : room < weight st + n) :
    LacksRoom (run room level st none (ts ++ t :: rest)) := by
  induction h generalizing st t rest with
  | var => omega
  | @paren o c ts f n ho _ hc ih =>
    have hw : weight (.paren :: st) = Frame.paren.weight + weight st := rfl
    rw [List.cons_append, run_lparen ho, List.append_assoc, List.singleton_append]
    split
    · exact ⟨_, rfl⟩
    · have hc' : MayPrecede 1 (connective? c) := by
        simp [connective?, hc, mayPrecede_none]
      exact ih (Nat.le_refl 1) hc' (by omega) (by omega)
  | atom _ ih => exact ih (by omega) (ht.mono (by omega)) hst hroom
  | @neg t' ts f n ht' _ ih =>
    have hw : weight (.neg :: st) = Frame.neg.weight + weight st := rfl
    rw [List.cons_append, run_not ht' hl]
    split
    · exact ⟨_, rfl⟩
    · exact ih (Nat.le_refl 5) ht (by omega) (by omega)
  | operand _ ih => exact ih (by omega) (ht.mono (by omega)) hst hroom
  | @bin op t' ts us f g m n hf ht' _ ih ih' =>
    have hw : weight (.left op f :: st) = (Frame.left op f).weight + weight st := rfl
    have hleft : MayPrecede op.leftLevel (connective? t') := by
      simp [connective?, ht', mayPrecede_some]
    have hin : expected level st ≤ op.leftLevel := Nat.le_trans hl op.rank_le_leftLevel
    rw [List.append_assoc, List.cons_append]
    by_cases hm : weight st + m ≤ room
    · -- the left operand is read, so it is the right one that takes too much
      rw [run_takes hf hin hleft hm, run_op ht' hl]
      split
      · exact ⟨_, rfl⟩
      · exact ih' (Nat.le_refl _) (ht.mono op.rank_le_rightLevel) (by omega) (by omega)
    · exact ih hin hleft hst (by omega)

/-! ## What is read is derived -/

/-- The tokens that pending parts were read from, while a phrase of `level` is read. -/
inductive Pending (level : Nat) : List Frame → List Token → Prop
  | nil : Pending level [] []
  | paren {st : List Frame} {us : List Token} {o : Token} (h : Pending level st us)
      (ho : o.kind = .lparen) : Pending level (.paren :: st) (us ++ [o])
  | neg {st : List Frame} {us : List Token} {t : Token} (h : Pending level st us)
      (hl : expected level st ≤ 5) (ht : t.kind = .not) : Pending level (.neg :: st) (us ++ [t])
  | left {st : List Frame} {us vs : List Token} {op : Connective} {f : Formula} {t : Token}
      (h : Pending level st us) (hl : expected level st ≤ op.rank)
      (hf : Derives op.leftLevel vs f) (ht : t.kind = .op op) :
      Pending level (.left op f :: st) (us ++ (vs ++ [t]))

/-- A phrase of the awaited level is in hand behind pending parts, and may stand before what
follows. -/
inductive InHand (level : Nat) (next : Option Connective) :
    List Frame → Formula → List Token → Prop
  | intro {st : List Frame} {f : Formula} {us vs : List Token} {l : Nat} (hst : Pending level st us)
      (hf : Derives l vs f) (hl : expected level st ≤ l) (hnext : MayPrecede l next) :
      InHand level next st f (us ++ vs)

/-- Handing a phrase to the pending parts that it completes keeps to the grammar. -/
theorem InHand.settle {next : Option Connective} {st' : List Frame} {f' : Formula}
    (h : InHand level next st f us) (hs : settle next st f = (st', f')) :
    InHand level next st' f' us := by
  fun_induction Reader.settle next st f generalizing us with
  | case1 st f ih =>
    obtain ⟨hst, hf, hl, -⟩ := h
    cases hst with
    | @neg _ us t hst hst' ht =>
      -- a negation makes a phrase of its own level, before which no connective is out of place
      have hneg := Derives.neg ht (hf.mono (by decide) hl)
      have hnext : MayPrecede 5 next := mayPrecede_of_five_le (Nat.le_refl 5)
      have hin := InHand.intro hst hneg hst' hnext
      rw [List.append_assoc, List.singleton_append]
      exact ih hin hs
  | case2 op g st f htakes ih =>
    obtain ⟨hst, hf, hl, -⟩ := h
    cases hst with
    | @left _ us vs _ _ t hst hst' hg ht =>
      -- the connective takes its operand only where the whole may stand
      have hright := hf.mono (Nat.le_trans op.one_le_rank op.rank_le_rightLevel) hl
      have hin := InHand.intro hst (hg.bin ht hright) hst' (takesBefore_iff.mp htakes)
      rw [List.append_assoc, List.append_assoc, List.singleton_append]
      exact ih hin hs
  | case3 =>
    cases hs
    exact h
  | case4 =>
    cases hs
    exact h

/-- What is still pending before a connective awaits a phrase that the connective can be part of,
unless nothing is pending. -/
theorem expected_settle_le {c : Connective}
    (h : (settle (some c) st f).1 = [] → level ≤ c.rank) :
    expected level (settle (some c) st f).1 ≤ c.rank := by
  fun_induction settle (some c) st f with
  | case1 st f ih => exact ih h
  | case2 op g st f htakes ih => exact ih h
  | case3 op g st f htakes => exact rightLevel_le_rank (Bool.eq_false_iff.mpr htakes)
  | case4 st f hneg hleft =>
    cases st with
    | nil => exact h rfl
    | cons fr st =>
      cases fr with
      | paren => exact c.one_le_rank
      | neg => exact absurd rfl (hneg st)
      | left op g => exact absurd rfl (hleft op g st)

/-- At an end only an open parenthesis stays pending. -/
theorem settle_none : (settle none st f).1 = [] ∨ ∃ st', (settle none st f).1 = .paren :: st' := by
  fun_induction settle none st f with
  | case1 st f ih => exact ih
  | case2 op g st f htakes ih => exact ih
  | case3 op g st f htakes => exact absurd rfl htakes
  | case4 st f hneg hleft =>
    cases st with
    | nil => exact .inl rfl
    | cons fr st =>
      cases fr with
      | paren => exact .inr ⟨st, rfl⟩
      | neg => exact absurd rfl (hneg st)
      | left op g => exact absurd rfl (hleft op g st)

/-- What the machine holds was read from the tokens behind it. -/
def Holds (level : Nat) (st : List Frame) (hand : Option Formula) (us : List Token) : Prop :=
  match hand with
  | none => Pending level st us
  | some f => ∀ next, InHand level next st f us

/-! ### What one token does -/

section Step

variable {st' : List Frame} {f' : Formula}

/-- An atom can be taken in hand behind all pending parts. -/
theorem Pending.holds_atom (hlevel : level ≤ 6) (hst : Pending level st us)
    (hf : Derives 6 vs f) : Holds level st (some f) (us ++ vs) := by
  intro next
  exact .intro hst hf (expected_le_six hlevel) (mayPrecede_of_five_le (by decide))

theorem Pending.push_neg (hlevel : level ≤ 6) (hst : Pending level st us)
    (hempty : ¬(st.isEmpty && level == 6) = true) (ht : t.kind = .not) :
    Pending level (.neg :: st) (us ++ [t]) := by
  refine .neg hst ?_ ht
  cases st with
  | nil =>
    have hne : level ≠ 6 := by simpa using hempty
    exact Nat.le_of_lt_succ (Nat.lt_of_le_of_ne hlevel hne)
  | cons fr st => exact fr.awaits_le_five

/-- A connective that does not end the reading takes what is in hand as its left operand. -/
theorem Holds.push_left {c : Connective} (h : Holds level st (some f) us)
    (hs : settle (some c) st f = (st', f'))
    (hempty : ¬(st'.isEmpty && decide (c.rank < level)) = true) (ht : t.kind = .op c) :
    Pending level (.left c f' :: st') (us ++ [t]) := by
  have hle : expected level (settle (some c) st f).1 ≤ c.rank := by
    refine expected_settle_le fun hnil => ?_
    rw [hs] at hnil
    subst hnil
    simpa using hempty
  rw [hs] at hle
  obtain ⟨hst, hf, -, hnext⟩ := (h (some c)).settle hs
  have hleft := hf.mono (Nat.le_trans c.one_le_rank c.rank_le_leftLevel)
    (mayPrecede_some.mp hnext)
  rw [List.append_assoc]
  exact .left hst hle hleft ht

/-- A closing parenthesis makes an atom of what is in hand behind the opening one. -/
theorem Holds.close (hlevel : level ≤ 6) (h : Holds level st (some f) us)
    (hs : settle none st f = (.paren :: st', f')) (ht : t.kind = .rparen) :
    Holds level st' (some f') (us ++ [t]) := by
  obtain ⟨hst, hf, hl, -⟩ := (h none).settle hs
  cases hst with
  | @paren _ us o hst ho =>
    have hatom := Derives.paren ho (hf.mono (Nat.le_refl 1) hl) ht
    simpa using hst.holds_atom hlevel hatom

/-- What is in hand when nothing stays pending is a phrase of the level. -/
theorem Holds.derives {next : Option Connective} (hlevel : 1 ≤ level)
    (h : Holds level st (some f) us) (hs : settle next st f = ([], f')) :
    Derives level us f' := by
  obtain ⟨hst, hf, hl, -⟩ := (h next).settle hs
  cases hst
  exact hf.mono hlevel hl

end Step

/-! ### What a whole reading does -/

/-- What is read is derived from the grammar. -/
theorem derives_of_run {hand : Option Formula} {rest : List Token} (hlevel : 1 ≤ level)
    (hlevel' : level ≤ 6) (h : run room level st hand ts = .ok (f, rest))
    (hread : Holds level st hand us) :
    ∃ vs, us ++ ts = vs ++ rest ∧ Derives level vs f := by
  -- every token that is read joins `us`, with the invariant carried by the step lemmas above
  fun_induction run room level st hand ts generalizing us with
  | case2 st t ts ht ih =>
    have hatom := Pending.holds_atom hlevel' hread (.var ht)
    simpa using ih h hatom
  | case5 st t ts ht hempty _ ih =>
    simpa using ih h (Pending.push_neg hlevel' hread hempty ht)
  | case7 st t ts ht _ ih =>
    simpa using ih h (Pending.paren hread ht)
  | case13 st f t ts c ht st' f' hs hempty _ ih =>
    simpa using ih h (Holds.push_left hread hs hempty ht)
  | case14 st f t ts ht st' f' hs ih =>
    simpa using ih h (Holds.close hlevel' hread hs ht)
  | case11 st f t ts c ht st' f' hs hend =>
    cases h
    obtain rfl : st' = [] := by
      rw [Bool.and_eq_true] at hend
      exact List.isEmpty_iff.mp hend.1
    exact ⟨us, rfl, Holds.derives hlevel hread hs⟩
  | case15 st f t ts ht st' f' hparen hs =>
    cases h
    -- nothing but an open parenthesis could be pending here, and there is none
    have hend := @settle_none st f
    rw [hs] at hend
    obtain rfl | ⟨st'', hst''⟩ := hend
    · exact ⟨us, rfl, Holds.derives hlevel hread hs⟩
    · exact absurd hst'' (hparen st'')
  | case16 st f t ts f' hs _ _ =>
    cases h
    exact ⟨us, rfl, Holds.derives hlevel hread hs⟩
  | case1 | case3 | case4 | case6 | case8 | case9 | case10 | case12 | case17 => cases h

/-! ## What is refused for lack of room -/

/-- The room that a token takes for as long as what it begins is pending. -/
def tokenWeight (t : Token) : Nat :=
  match t.kind with
  | .lparen => 6
  | .not => 1
  | .op c => if c.isRightAssociative then 1 else 0
  | _ => 0

/-- The room that tokens would take if what all of them begin were pending at once. -/
def tokensWeight : List Token → Nat
  | [] => 0
  | t :: ts => tokenWeight t + tokensWeight ts

/-- Settling only takes pending parts away. -/
theorem weight_le_of_settle {next : Option Connective} {st' : List Frame} {f' : Formula}
    (hs : settle next st f = (st', f')) : weight st' ≤ weight st := by
  fun_induction settle next st f with
  | case1 st f ih => exact Nat.le_trans (ih hs) (Nat.le_add_left ..)
  | case2 op g st f htakes ih => exact Nat.le_trans (ih hs) (Nat.le_add_left ..)
  | case3 =>
    cases hs
    exact Nat.le_refl _
  | case4 =>
    cases hs
    exact Nat.le_refl _

theorem weight_neg (ht : t.kind = .not) : Frame.neg.weight = tokenWeight t := by
  simp [tokenWeight, ht, Frame.weight]

theorem weight_paren (ht : t.kind = .lparen) : Frame.paren.weight = tokenWeight t := by
  simp [tokenWeight, ht, Frame.weight]

theorem weight_left {c : Connective} (ht : t.kind = .op c) :
    (Frame.left c f).weight = tokenWeight t := by
  simp [tokenWeight, ht, Frame.weight]

theorem weight_cons {fr : Frame} : weight (fr :: st) = fr.weight + weight st := rfl

theorem overfull_iff : overfull room st = true ↔ room < weight st := by
  simp [overfull]

/-- The room for pending parts and for all tokens to come. -/
def demand (st : List Frame) (ts : List Token) : Nat :=
  weight st + tokensWeight ts

/-- A token that becomes pending moves its weight from the tokens to the pending parts. -/
theorem demand_push {fr : Frame} {st' : List Frame} (hfr : fr.weight = tokenWeight t)
    (hst : weight st' ≤ weight st) : demand (fr :: st') ts ≤ demand st (t :: ts) := by
  simp only [demand, weight_cons, tokensWeight]
  omega

theorem demand_mono {st' : List Frame} (hst : weight st' ≤ weight st) :
    demand st' ts ≤ demand st (t :: ts) := by
  simp only [demand, tokensWeight]
  omega

theorem lt_demand_of_overfull (h : overfull room st = true) : room < demand st ts :=
  Nat.lt_of_lt_of_le (overfull_iff.mp h) (Nat.le_add_right ..)

/-- Tokens are refused for lack of room only if all of them together would take more. -/
theorem lt_of_run_tooNested {hand : Option Formula} {o : Option Nat}
    (h : run room level st hand ts = .error (.tooNested o)) : room < demand st ts := by
  -- a frame is pushed for a token of its own weight, and settling only takes frames away
  fun_induction run room level st hand ts with
  | case2 st t ts ht ih =>
    exact Nat.lt_of_lt_of_le (ih h) (demand_mono (Nat.le_refl _))
  | case4 st t ts ht _ hfull =>
    exact Nat.lt_of_lt_of_le (lt_demand_of_overfull hfull)
      (demand_push (weight_neg ht) (Nat.le_refl _))
  | case5 st t ts ht _ _ ih =>
    exact Nat.lt_of_lt_of_le (ih h) (demand_push (weight_neg ht) (Nat.le_refl _))
  | case6 st t ts ht hfull =>
    exact Nat.lt_of_lt_of_le (lt_demand_of_overfull hfull)
      (demand_push (weight_paren ht) (Nat.le_refl _))
  | case7 st t ts ht _ ih =>
    exact Nat.lt_of_lt_of_le (ih h) (demand_push (weight_paren ht) (Nat.le_refl _))
  | case12 st f t ts c ht st' f' hs _ hfull =>
    exact Nat.lt_of_lt_of_le (lt_demand_of_overfull hfull)
      (demand_push (weight_left ht) (weight_le_of_settle hs))
  | case13 st f t ts c ht st' f' hs _ _ ih =>
    exact Nat.lt_of_lt_of_le (ih h) (demand_push (weight_left ht) (weight_le_of_settle hs))
  | case14 st f t ts ht st' f' hs ih =>
    have hle : weight st' ≤ weight st :=
      Nat.le_trans (Nat.le_add_left ..) (weight_le_of_settle hs)
    exact Nat.lt_of_lt_of_le (ih h) (demand_mono hle)
  | case1 | case3 | case8 | case9 | case10 | case11 | case15 | case16 | case17 => cases h

/-- Lack of room is placed at a token ahead, if at any. -/
theorem exists_mem_of_lack {n : Nat} (h : lack room st ts = .tooNested (some n)) :
    ∃ t ∈ ts, t.offset = n := by
  simp only [lack, SyntaxError.tooNested.injEq, Option.map_eq_some_iff] at h
  obtain ⟨t, ht, hn⟩ := h
  refine ⟨t, ?_, hn⟩
  have hmem := List.mem_of_mem_head? ht
  split at hmem
  · exact List.mem_of_mem_drop hmem
  · exact hmem

theorem exists_mem_of_run_tooNested {hand : Option Formula} {n : Nat}
    (h : run room level st hand ts = .error (.tooNested (some n))) : ∃ t ∈ ts, t.offset = n := by
  fun_induction run room level st hand ts with
  | case2 st t ts ht ih | case5 st t ts ht _ _ ih | case7 st t ts ht _ ih
  | case13 st f t ts c ht st' f' hs _ _ ih | case14 st f t ts ht st' f' hs ih =>
    obtain ⟨t', ht', hn⟩ := ih h
    exact ⟨t', List.mem_cons_of_mem _ ht', hn⟩
  | case4 | case6 | case12 =>
    obtain ⟨t', ht', hn⟩ := exists_mem_of_lack (Except.error.inj h)
    exact ⟨t', List.mem_cons_of_mem _ ht', hn⟩
  | case1 | case3 | case8 | case9 | case10 | case11 | case15 | case16 | case17 => cases h

/-! ## Whole rows -/

/-- A row of tokens without an end mark among them. -/
def Unmarked (ts : List Token) : Prop :=
  ∀ t ∈ ts, t.kind ≠ .stop

/-- A whole row that the grammar derives is read in the room that it takes. -/
theorem run_row {n : Nat} (h : Takes 1 ts f n) (ht : t.kind = .stop) (hn : n ≤ room) :
    run room 1 [] none (ts ++ [t]) = .ok (f, [t]) := by
  have hnext : MayPrecede 1 (connective? t) := by
    simp [connective?, ht, mayPrecede_none]
  have hin : expected 1 [] ≤ 1 := Nat.le_refl 1
  rw [run_takes h hin hnext (by simpa [weight] using hn)]
  simp [run, ht, settle]

/-- A whole row that the grammar derives is not read in less room. -/
theorem lacksRoom_run_row {n : Nat} (h : Takes 1 ts f n) (ht : t.kind = .stop) (hn : room < n) :
    LacksRoom (run room 1 [] none (ts ++ [t])) := by
  have hnext : MayPrecede 1 (connective? t) := by
    simp [connective?, ht, mayPrecede_none]
  exact lacksRoom_run h (Nat.le_refl 1) hnext (Nat.zero_le room) (by simpa [weight] using hn)

/-- Whole rows that are read were derived from the grammar. -/
theorem derives_of_read {rest : List Token} (h : read 1 ts = .ok (f, rest)) :
    ∃ vs, ts = vs ++ rest ∧ Derives 1 vs f := by
  have hnil : Holds 1 [] none [] := Pending.nil
  simpa using derives_of_run (Nat.le_refl 1) (by decide) h hnil

/-- The first end mark ends a row. -/
theorem eq_of_append_stop {rest : List Token} {t' : Token} (hts : Unmarked ts)
    (h : ts ++ [t] = vs ++ t' :: rest) (ht' : t'.kind = .stop) : ts = vs := by
  obtain ⟨us, hvs, hrest⟩ | ⟨us, hts', hrest⟩ := List.append_eq_append_iff.mp h
  · cases us with
    | nil => simpa using hvs.symm
    | cons u us => simp at hrest
  · cases us with
    | nil => simpa using hts'
    | cons u us =>
      rw [List.cons_append, List.cons.injEq] at hrest
      have hmem : t' ∈ ts := by simp [hts', hrest.1]
      exact absurd ht' (hts t' hmem)

/-- A row is read to a tree only if the grammar derives it with that tree. -/
theorem derives_of_readAll (hts : Unmarked ts) (h : readAll (ts ++ [t]) = .ok f) :
    Derives 1 ts f := by
  unfold readAll at h
  split at h
  · cases h
  · cases h
  · next g t' rest hread =>
    obtain ⟨vs, heq, hg⟩ := derives_of_read hread
    split at h
    · next hstop =>
      cases h
      rw [eq_of_append_stop hts heq hstop]
      exact hg
    · cases h
    · cases h

/-- A row that the grammar derives is read if there is the room that it takes. -/
theorem readAll_row {n : Nat} (h : Takes 1 ts f n) (ht : t.kind = .stop) (hn : n ≤ capacity) :
    readAll (ts ++ [t]) = .ok f := by
  unfold readAll
  rw [read, run_row h ht hn]
  simp [ht]

theorem lacksRoom_readAll_row {n : Nat} (h : Takes 1 ts f n) (ht : t.kind = .stop)
    (hn : capacity < n) : LacksRoom (readAll (ts ++ [t])) := by
  obtain ⟨o, ho⟩ := lacksRoom_run_row h ht hn
  unfold readAll
  rw [read, ho]
  exact ⟨o, rfl⟩

theorem run_of_readAll_tooNested {o : Option Nat} (h : readAll ts = .error (.tooNested o)) :
    run capacity 1 [] none ts = .error (.tooNested o) := by
  unfold readAll at h
  split at h
  · next hread =>
    cases h
    exact hread
  · cases h
  · split at h <;> cases h

/-- A row is refused for lack of room only if its tokens together would take more. -/
theorem lt_of_readAll_tooNested {o : Option Nat} (h : readAll ts = .error (.tooNested o)) :
    capacity < demand [] ts :=
  lt_of_run_tooNested (run_of_readAll_tooNested h)

theorem exists_mem_of_readAll_tooNested {n : Nat} (h : readAll ts = .error (.tooNested (some n))) :
    ∃ t ∈ ts, t.offset = n :=
  exists_mem_of_run_tooNested (run_of_readAll_tooNested h)

end Reader

/-- A row of tokens has no two trees: the machine would read both. -/
theorem Derives.unique {ts : List Token} {f g : Formula} (hf : Derives 1 ts f)
    (hg : Derives 1 ts g) : f = g := by
  obtain ⟨m, hm⟩ := hf.exists_takes
  obtain ⟨n, hn⟩ := hg.exists_takes
  have hm' := @Reader.run_row (max m n) f ⟨.stop, "", 0⟩ ts m hm rfl (Nat.le_max_left m n)
  have hn' := @Reader.run_row (max m n) g ⟨.stop, "", 0⟩ ts n hn rfl (Nat.le_max_right m n)
  rw [hm'] at hn'
  cases hn'
  rfl

end Propositional
