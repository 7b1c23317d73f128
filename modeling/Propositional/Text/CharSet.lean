/-!
# Sets of characters

A set of characters is kept as the list of its ranges of code points, which is how the classes of
the character standard are published.

## Main definitions

* `CharSet`: a list of closed ranges
* `CharSet.contains`: membership
-/

namespace Propositional.Text

/-- A set of characters, as closed ranges of code points. -/
abbrev CharSet := List (Nat × Nat)

namespace CharSet

/-- Whether a character lies in one of the ranges. -/
def contains (s : CharSet) (c : Char) : Bool :=
  s.any fun r => r.1 ≤ c.toNat && c.toNat ≤ r.2

theorem contains_eq_true_iff {s : CharSet} {c : Char} :
    s.contains c = true ↔ ∃ r ∈ s, r.1 ≤ c.toNat ∧ c.toNat ≤ r.2 := by
  simp [contains]

end CharSet

end Propositional.Text
