import Propositional.Formula.Reader

/-!
# The grammar of formulas

The grammar has six levels, numbered from one to six as the connectives are ranked:

* `Iff := Imp ('↔' Iff)?`
* `Imp := Or ('→' Imp)?`
* `Or := And ('∨' And)*`
* `And := Neg ('∧' Neg)*`
* `Neg := '¬' Neg | Atom`
* `Atom := Var | '(' Iff ')'`

A row of operands under a star is folded to the left. So a connective reads one operand at its own
level and the other at the next tighter one: which is which depends on how it associates. This
uniform reading of the four connectives is what the reader and the printer follow, and it comes
with the room that reading takes.

## Main definitions

* `Derives`: the grammar
* `Connective.leftLevel`, `Connective.rightLevel`: the levels of the operands of a connective
* `Takes`: the grammar with its connectives alike, and with the room that is taken

## Main results

* `Derives.bin`: every connective reads its operands at their levels
* `Derives.exists_takes`, `Takes.derives`: the two grammars derive the same
* `Takes.mono`: what is derived from a level is derived from every looser one
-/

namespace Propositional

/-! ## The rules -/

/-- One more operand in a row under a star: the token of the connective, the tokens of the operand
and the tree of the operand. -/
structure Link where
  sign : Token
  tokens : List Token
  formula : Formula

/-- Tokens are derived from a level of the grammar, with a tree. -/
inductive Derives : Nat → List Token → Formula → Prop
  /-- `Atom := Var` -/
  | var {t : Token} (ht : t.kind = .var) : Derives 6 [t] (.var t.text)
  /-- `Atom := '(' Iff ')'` -/
  | paren {o c : Token} {ts : List Token} {f : Formula} (ho : o.kind = .lparen)
      (h : Derives 1 ts f) (hc : c.kind = .rparen) : Derives 6 (o :: (ts ++ [c])) f
  /-- `Neg := Atom` -/
  | atom {ts : List Token} {f : Formula} (h : Derives 6 ts f) : Derives 5 ts f
  /-- `Neg := '¬' Neg` -/
  | neg {t : Token} {ts : List Token} {f : Formula} (ht : t.kind = .not) (h : Derives 5 ts f) :
      Derives 5 (t :: ts) (.neg f)
  /-- `And := Neg ('∧' Neg)*` and `Or := And ('∨' And)*` -/
  | row {op : Connective} {ts : List Token} {f : Formula} {links : List Link}
      (hop : op.isRightAssociative = false) (h : Derives (op.rank + 1) ts f)
      (hsign : ∀ l ∈ links, l.sign.kind = .op op)
      (hlinks : ∀ l ∈ links, Derives (op.rank + 1) l.tokens l.formula) :
      Derives op.rank (ts ++ links.flatMap fun l => l.sign :: l.tokens)
        (links.foldl (fun f l => .bin op f l.formula) f)
  /-- `Imp := Or` and `Iff := Imp` -/
  | single {op : Connective} {ts : List Token} {f : Formula}
      (hop : op.isRightAssociative = true) (h : Derives (op.rank + 1) ts f) : Derives op.rank ts f
  /-- `Imp := Or '→' Imp` and `Iff := Imp '↔' Iff` -/
  | nest {op : Connective} {t : Token} {ts us : List Token} {f g : Formula}
      (hop : op.isRightAssociative = true) (h : Derives (op.rank + 1) ts f)
      (ht : t.kind = .op op) (h' : Derives op.rank us g) :
      Derives op.rank (ts ++ t :: us) (.bin op f g)

/-! ## Levels of operands -/

namespace Connective

/-- The level at which the left operand is read. -/
def leftLevel (op : Connective) : Nat :=
  if op.isRightAssociative then op.rank + 1 else op.rank

/-- The level at which the right operand is read. -/
def rightLevel (op : Connective) : Nat :=
  if op.isRightAssociative then op.rank else op.rank + 1

theorem rank_injective {op op' : Connective} (h : op.rank = op'.rank) : op = op' := by
  cases op <;> cases op' <;> simp_all [rank]

theorem one_le_rank (op : Connective) : 1 ≤ op.rank := by
  cases op <;> decide

theorem rank_le_four (op : Connective) : op.rank ≤ 4 := by
  cases op <;> decide

theorem rank_le_leftLevel (op : Connective) : op.rank ≤ op.leftLevel := by
  cases op <;> decide

theorem rank_le_rightLevel (op : Connective) : op.rank ≤ op.rightLevel := by
  cases op <;> decide

theorem leftLevel_le_five (op : Connective) : op.leftLevel ≤ 5 := by
  cases op <;> decide

theorem rightLevel_le_five (op : Connective) : op.rightLevel ≤ 5 := by
  cases op <;> decide

end Connective

namespace Derives

variable {ts us : List Token} {f g : Formula} {op : Connective}

/-- An operand of a connective stands alone at the connective's level. -/
theorem operand (h : Derives (op.rank + 1) ts f) : Derives op.rank ts f := by
  cases hop : op.isRightAssociative with
  | true => exact .single hop h
  | false => simpa using @row op ts f [] hop h (by simp) (by simp)

/-- A row of operands of a connective can be continued by one more. -/
theorem snoc {t : Token} (hop : op.isRightAssociative = false) (h : Derives op.rank ts f)
    (ht : t.kind = .op op) (h' : Derives (op.rank + 1) us g) :
    Derives op.rank (ts ++ t :: us) (.bin op f g) := by
  -- the level is a variable while `h` is inverted; the rank then tells the connective
  generalize hl : op.rank = l at h
  cases h with
  | var | paren | atom | neg =>
    have h₂ := op.rank_le_four
    omega
  | single hop' | nest hop' =>
    rw [Connective.rank_injective hl, hop'] at hop
    cases hop
  | @row op' ts f links hop' h hsign hlinks =>
    obtain rfl := Connective.rank_injective hl
    have hr := @row op ts f (links ++ [⟨t, us, g⟩]) hop h ?_ ?_
    · simpa using hr
    · intro l hl
      rcases List.mem_append.mp hl with hl | hl
      · exact hsign l hl
      · obtain rfl := List.mem_singleton.mp hl
        exact ht
    · intro l hl
      rcases List.mem_append.mp hl with hl | hl
      · exact hlinks l hl
      · obtain rfl := List.mem_singleton.mp hl
        exact h'

/-- Every connective reads its operands at their levels. -/
theorem bin {t : Token} (h : Derives op.leftLevel ts f) (ht : t.kind = .op op)
    (h' : Derives op.rightLevel us g) : Derives op.rank (ts ++ t :: us) (.bin op f g) := by
  unfold Connective.leftLevel at h
  unfold Connective.rightLevel at h'
  cases hop : op.isRightAssociative with
  | true =>
    rw [hop] at h h'
    exact .nest hop h ht h'
  | false =>
    rw [hop] at h h'
    exact h.snoc hop ht h'

end Derives

/-! ## Room -/

/-- Tokens are derived from a level of the grammar, with a tree, and what is pending at once while
they are read takes some room. -/
inductive Takes : Nat → List Token → Formula → Nat → Prop
  | var {t : Token} (ht : t.kind = .var) : Takes 6 [t] (.var t.text) 0
  | paren {o c : Token} {ts : List Token} {f : Formula} {n : Nat} (ho : o.kind = .lparen)
      (h : Takes 1 ts f n) (hc : c.kind = .rparen) :
      Takes 6 (o :: (ts ++ [c])) f (Reader.Frame.paren.weight + n)
  | atom {ts : List Token} {f : Formula} {n : Nat} (h : Takes 6 ts f n) : Takes 5 ts f n
  | neg {t : Token} {ts : List Token} {f : Formula} {n : Nat} (ht : t.kind = .not)
      (h : Takes 5 ts f n) : Takes 5 (t :: ts) (.neg f) (Reader.Frame.neg.weight + n)
  | operand {op : Connective} {ts : List Token} {f : Formula} {n : Nat}
      (h : Takes (op.rank + 1) ts f n) : Takes op.rank ts f n
  | bin {op : Connective} {t : Token} {ts us : List Token} {f g : Formula} {m n : Nat}
      (h : Takes op.leftLevel ts f m) (ht : t.kind = .op op) (h' : Takes op.rightLevel us g n) :
      Takes op.rank (ts ++ t :: us) (.bin op f g) (max m ((Reader.Frame.left op f).weight + n))

namespace Takes

variable {k l n : Nat} {ts : List Token} {f : Formula}

theorem le_six (h : Takes l ts f n) : l ≤ 6 := by
  cases h with
  | var | paren | atom | neg => decide
  | @operand op | @bin op => exact Nat.le_trans op.rank_le_four (by decide)

/-- What is derived from a level is derived from the next looser one. -/
theorem loosen (h : Takes (l + 1) ts f n) (hl : 1 ≤ l) : Takes l ts f n := by
  have hl' := h.le_six
  obtain rfl | rfl | rfl | rfl | rfl : l = 1 ∨ l = 2 ∨ l = 3 ∨ l = 4 ∨ l = 5 := by omega
  · exact @operand .iff ts f n h
  · exact @operand .imp ts f n h
  · exact @operand .or ts f n h
  · exact @operand .and ts f n h
  · exact .atom h

/-- What is derived from a level is derived from every looser one. -/
theorem mono (h : Takes l ts f n) (hk : 1 ≤ k) (hkl : k ≤ l) : Takes k ts f n := by
  induction hkl with
  | refl => exact h
  | step hkl ih => exact ih (h.loosen (Nat.le_trans hk hkl))

/-- A row of operands is read one after the other, what is read so far being the left operand. -/
theorem row {op : Connective} (hop : op.isRightAssociative = false) {links : List Link}
    (hsign : ∀ l ∈ links, l.sign.kind = .op op)
    (hlinks : ∀ l ∈ links, ∃ n, Takes (op.rank + 1) l.tokens l.formula n)
    (h : Takes op.rank ts f n) :
    ∃ m, Takes op.rank (ts ++ links.flatMap fun l => l.sign :: l.tokens)
      (links.foldl (fun f l => .bin op f l.formula) f) m := by
  -- the left operand grows by one link at a time
  induction links generalizing ts f n with
  | nil => exact ⟨n, by simpa using h⟩
  | cons l links ih =>
    obtain ⟨m, hm⟩ := hlinks l List.mem_cons_self
    have hleft : Takes op.leftLevel ts f n := by simpa [Connective.leftLevel, hop] using h
    have hright : Takes op.rightLevel l.tokens l.formula m := by
      simpa [Connective.rightLevel, hop] using hm
    obtain ⟨k, hk⟩ := ih (fun l hl => hsign l (List.mem_cons_of_mem _ hl))
      (fun l hl => hlinks l (List.mem_cons_of_mem _ hl))
      (.bin hleft (hsign l List.mem_cons_self) hright)
    exact ⟨k, by simpa using hk⟩

/-- The grammar derives whatever is derived with the connectives alike. -/
theorem derives (h : Takes l ts f n) : Derives l ts f := by
  induction h with
  | var ht => exact .var ht
  | paren ho _ hc ih => exact .paren ho ih hc
  | atom _ ih => exact .atom ih
  | neg ht _ ih => exact .neg ht ih
  | operand _ ih => exact ih.operand
  | bin _ ht _ ih ih' => exact ih.bin ht ih'

end Takes

namespace Derives

variable {k l : Nat} {ts : List Token} {f : Formula}

/-- Whatever the grammar derives is derived with the connectives alike, in some room. -/
theorem exists_takes (h : Derives l ts f) : ∃ n, Takes l ts f n := by
  induction h with
  | var ht => exact ⟨0, .var ht⟩
  | paren ho _ hc ih =>
    obtain ⟨n, hn⟩ := ih
    exact ⟨_, .paren ho hn hc⟩
  | atom _ ih =>
    obtain ⟨n, hn⟩ := ih
    exact ⟨n, .atom hn⟩
  | neg ht _ ih =>
    obtain ⟨n, hn⟩ := ih
    exact ⟨_, .neg ht hn⟩
  | row hop _ hsign _ ih ihlinks =>
    obtain ⟨n, hn⟩ := ih
    exact Takes.row hop hsign ihlinks (.operand hn)
  | single hop _ ih =>
    obtain ⟨n, hn⟩ := ih
    exact ⟨n, .operand hn⟩
  | nest hop _ ht _ ih ih' =>
    obtain ⟨m, hm⟩ := ih
    obtain ⟨n, hn⟩ := ih'
    exact ⟨_, .bin (by simpa [Connective.leftLevel, hop] using hm) ht
      (by simpa [Connective.rightLevel, hop] using hn)⟩

/-- What is derived from a level is derived from every looser one. -/
theorem mono (h : Derives l ts f) (hk : 1 ≤ k) (hkl : k ≤ l) : Derives k ts f := by
  obtain ⟨n, hn⟩ := h.exists_takes
  exact (hn.mono hk hkl).derives

end Derives

end Propositional
