import Propositional.Formula.Basic

/-!
# Height without recursion

The depth of a formula is found by a loop that keeps a list of nodes still to visit. A turn of the
loop takes the first node off the list, remembers its depth if it is the greatest so far, and puts
the children of the node in its place, one level deeper. So the list may hold any trees at any
depths while the loop goes on, and it is visited in another order than a recursion would visit it.

Two things are known at every turn, whatever is on the list. One node less is still to visit, so the
loop ends, and it ends after as many turns as there are nodes. And the greatest depth that can be
reached, from what is remembered and below what is on the list, stays the same. At first this is the
height of the tree, and at the end it is what is remembered.

## Main definitions

* `Formula.Visit`: the state of the loop
* `Formula.Visit.turn`, `Formula.Visit.turns`: one turn, and a number of them
* `Formula.Visit.outcome`: what the loop returns
* `Formula.Visit.left`, `Formula.Visit.reach`: what a turn lessens, and what it keeps

## Main results

* `Formula.Visit.left_turn`, `Formula.Visit.reach_turn`: one turn of the loop
* `Formula.Visit.turns_eq_of_left_le`: the loop ends with the greatest depth that can be reached
* `Formula.depth_eq_height`: the depth is the height of the tree
* `Formula.visit_ends_at_height`: when the loop ends and with what
-/

namespace Propositional.Formula

/-- The state of the loop that finds the depth of a formula: the greatest depth so far, and the
nodes still to visit, each with its depth. -/
structure Visit where
  best : Nat
  pending : List (Formula × Nat)

namespace Visit

/-- Before the first turn only the root is to be visited. -/
def start (f : Formula) : Visit :=
  ⟨0, [(f, 1)]⟩

/-- One turn of the loop: the first node is visited and replaced by its children, the right one in
front. Nothing changes when no node is left. -/
def turn : Visit → Visit
  | ⟨best, []⟩ => ⟨best, []⟩
  | ⟨best, (.var _, d) :: pending⟩ => ⟨max best d, pending⟩
  | ⟨best, (.neg f, d) :: pending⟩ => ⟨max best d, (f, d + 1) :: pending⟩
  | ⟨best, (.bin _ l r, d) :: pending⟩ => ⟨max best d, (r, d + 1) :: (l, d + 1) :: pending⟩

/-- A number of turns. -/
def turns : Nat → Visit → Visit
  | 0, v => v
  | n + 1, v => turns n v.turn

/-- What the loop returns when it goes on from a state. -/
def outcome (v : Visit) : Nat :=
  depthFrom v.best v.pending

/-- The number of nodes still to visit, those below the listed ones included. -/
def left (v : Visit) : Nat :=
  pendingSize v.pending

/-- The greatest depth so far and of all leaves still to visit. -/
def reach (v : Visit) : Nat :=
  v.pending.foldl (fun best p => max best (p.2 + p.1.height - 1)) v.best

variable {v : Visit} {n : Nat}

/-! ## One turn -/

/-- A turn visits one node. -/
theorem left_turn (v : Visit) : v.turn.left = v.left - 1 := by
  obtain ⟨best, _ | ⟨⟨f, d⟩, pending⟩⟩ := v
  · rfl
  · cases f <;> simp only [turn, left, pendingSize, size] <;> omega

/-- A turn keeps the greatest depth that can be reached: a node is as high as its highest child and
one level more, and its children are one level deeper. -/
theorem reach_turn (v : Visit) : v.turn.reach = v.reach := by
  obtain ⟨best, _ | ⟨⟨f, d⟩, pending⟩⟩ := v
  · rfl
  · cases f with
    | var name => rfl
    | neg f =>
      simp only [turn, reach, List.foldl_cons, height]
      congr 1
      omega
    | bin op l r =>
      simp only [turn, reach, List.foldl_cons, height]
      congr 1
      omega

/-- The loop returns the same after a turn. -/
theorem outcome_turn (v : Visit) : v.turn.outcome = v.outcome := by
  obtain ⟨best, _ | ⟨⟨f, d⟩, pending⟩⟩ := v
  · rfl
  · cases f <;> simp only [turn, outcome, depthFrom]

/-! ## All turns -/

theorem left_turns (n : Nat) (v : Visit) : (v.turns n).left = v.left - n := by
  induction n generalizing v with
  | zero => rfl
  | succ n ih => rw [turns, ih, left_turn, Nat.sub_sub, Nat.add_comm]

theorem reach_turns (n : Nat) (v : Visit) : (v.turns n).reach = v.reach := by
  induction n generalizing v with
  | zero => rfl
  | succ n ih => rw [turns, ih, reach_turn]

theorem outcome_turns (n : Nat) (v : Visit) : (v.turns n).outcome = v.outcome := by
  induction n generalizing v with
  | zero => rfl
  | succ n ih => rw [turns, ih, outcome_turn]

/-- No node is left to visit exactly if none is listed, since every tree has a root. -/
theorem pending_eq_nil_iff : v.pending = [] ↔ v.left = 0 := by
  obtain ⟨best, _ | ⟨⟨f, d⟩, pending⟩⟩ := v
  · simp [left, pendingSize]
  · cases f <;> simp [left, pendingSize, size]

/-- The loop has ended after as many turns as there are nodes to visit. -/
theorem pending_turns_eq_nil_iff : (v.turns n).pending = [] ↔ v.left ≤ n := by
  rw [pending_eq_nil_iff, left_turns, Nat.sub_eq_zero_iff_le]

/-- When it has ended, what is remembered is the greatest depth that could be reached, and this is
what the loop returns. -/
theorem turns_eq_of_left_le (h : v.left ≤ n) :
    v.turns n = ⟨v.reach, []⟩ ∧ v.outcome = v.reach := by
  have hpending : (v.turns n).pending = [] := pending_turns_eq_nil_iff.mpr h
  -- with nothing pending, both quantities that the turns keep are what is remembered
  have hreach := reach_turns n v
  have houtcome := outcome_turns n v
  rw [reach, hpending, List.foldl_nil] at hreach
  rw [outcome, hpending, depthFrom, hreach] at houtcome
  refine ⟨?_, houtcome.symm⟩
  rw [← hreach, ← hpending]

end Visit

/-! ## The depth of a formula -/

theorem left_start (f : Formula) : (Visit.start f).left = f.size :=
  Nat.add_zero _

theorem reach_start (f : Formula) : (Visit.start f).reach = f.height := by
  simp only [Visit.reach, Visit.start, List.foldl_cons, List.foldl_nil]
  omega

theorem depth_eq_height (f : Formula) : f.depth = f.height :=
  (Visit.turns_eq_of_left_le (Nat.le_refl _)).2.trans (reach_start f)

/-- The depth that the loop finds is the height of the tree. The loop comes to an end, namely after
as many turns as the tree has nodes, and from then on what it remembers is the depth. -/
theorem visit_ends_at_height (f : Formula) :
    (∀ n, ((Visit.start f).turns n).pending = [] ↔ f.size ≤ n) ∧
    (∀ n, (Visit.start f).turns (f.size + n) = ⟨f.depth, []⟩) ∧
    f.depth = f.height := by
  refine ⟨fun n => ?_, fun n => ?_, depth_eq_height f⟩
  · rw [Visit.pending_turns_eq_nil_iff, left_start]
  · have hleft : (Visit.start f).left ≤ f.size + n := by
      rw [left_start]
      exact Nat.le_add_right _ _
    rw [(Visit.turns_eq_of_left_le hleft).1, reach_start, depth_eq_height]

end Propositional.Formula
