import Propositional.Proofs.Conclusions
import Propositional.Proofs.Printing

/-!
# The fewest parentheses

The printer puts parentheses around an operand exactly if the operand binds looser than the level at
which the grammar reads it. There the grammar has no other way to derive the operand than between
parentheses, so every text of a formula has as many opening parentheses as the printed one. The
bound is proved for phrases of the grammar; a text has as many opening parentheses as its tokens.

## Main definitions

* `Text.opens`: the number of opening parentheses in a text
* `Token.opens`: the number of opening parentheses in a row of tokens

## Main results

* `Takes.opens_enclose_le`: what opens in a phrase is at least what the printer opens
* `Token.Spells.opens_eq`: what opens in a text is what opens in its tokens
* `Formula.opens_text_least`: no text of a formula opens fewer parentheses than the printed one
-/

namespace Propositional

/-! ## Texts and rows of tokens -/

namespace Text

/-- The number of opening parentheses in a text. -/
def opens (cs : List Char) : Nat :=
  cs.countP fun c => c = '('

theorem opens_append (cs ds : List Char) : opens (cs ++ ds) = opens cs + opens ds :=
  List.countP_append

theorem opens_eq_zero {cs : List Char} (h : ∀ c ∈ cs, c ≠ '(') : opens cs = 0 := by
  apply List.countP_eq_zero.mpr
  intro c hc
  simpa using h c hc

theorem opens_cons_of_ne {c : Char} {cs : List Char} (h : c ≠ '(') :
    opens (c :: cs) = opens cs := by
  apply List.countP_cons_of_neg
  simpa using h

/-- Names have no parentheses. -/
theorem opens_name {name : String} (h : Token.isName name = true) : opens name.toList = 0 := by
  apply opens_eq_zero
  rintro c hc rfl
  have hpart := Token.isNamePart_of_mem_name h _ hc
  exact absurd hpart (by decide)

theorem opens_glyph (op : Connective) : opens op.glyph = 0 := by
  cases op <;> decide

theorem opens_enclose (needed : Bool) (cs : List Char) :
    opens (Formula.enclose needed cs) = needed.toNat + opens cs := by
  cases needed with
  | false => exact (Nat.zero_add _).symm
  | true =>
    have hclose : opens [')'] = 0 := by decide
    have hopen : opens ['('] = 1 := by decide
    show opens (['('] ++ cs ++ [')']) = 1 + opens cs
    rw [opens_append, opens_append, hopen, hclose, Nat.add_zero]

end Text

namespace Token

/-- The number of opening parentheses in a row of tokens. -/
def opens (ts : List Token) : Nat :=
  ts.countP fun t => t.kind = .lparen

theorem opens_append (ts us : List Token) : opens (ts ++ us) = opens ts + opens us :=
  List.countP_append

theorem opens_cons (t : Token) (ts : List Token) :
    opens (t :: ts) = opens ts + if t.kind = .lparen then 1 else 0 := by
  simp [opens, List.countP_cons]

/-- What opens in a text is what opens in its tokens. -/
theorem Spells.opens_eq {o : Nat} {cs : List Char} {ts : List Token} (h : Spells o cs ts) :
    Text.opens cs = opens ts := by
  induction h with
  | stop => rfl
  | @blank o c cs ts hc _ ih =>
    have hne : c ≠ '(' := by
      rintro rfl
      exact absurd hc (by decide)
    rw [Text.opens_cons_of_ne hne, ih]
  | name hname _ _ ih =>
    rw [Text.opens_append, Text.opens_name hname, opens_cons, ih]
    simp
  | @sign o s kind cs ts hs _ ih =>
    have hsign : ∀ p ∈ spellings, Text.opens p.1.toList = if p.2 = .lparen then 1 else 0 := by
      decide
    rw [Text.opens_append, hsign _ hs, opens_cons, ih, Nat.add_comm]

end Token

/-! ## Phrases of the grammar -/

namespace Formula

theorem opens_chars_neg (f : Formula) :
    Text.opens (chars (.neg f)) = Text.opens (enclose (decide (f.rank < 5)) f.chars) := by
  rw [chars]
  exact Text.opens_cons_of_ne (by decide)

theorem opens_chars_bin (op : Connective) (f g : Formula) :
    Text.opens (chars (.bin op f g)) =
      Text.opens (enclose (decide (f.rank < op.leftLevel)) f.chars) +
        Text.opens (enclose (decide (g.rank < op.rightLevel)) g.chars) := by
  rw [chars, enclosesLeft_eq, enclosesRight_eq, Text.opens_append, Text.opens_append,
    Text.opens_glyph, Nat.add_zero]

/-- A formula is enclosed at a level only if it is enclosed at every tighter one. -/
theorem opens_enclose_mono {k l : Nat} (hkl : k ≤ l) (f : Formula) :
    Text.opens (enclose (decide (f.rank < k)) f.chars) ≤
      Text.opens (enclose (decide (f.rank < l)) f.chars) := by
  rw [Text.opens_enclose, Text.opens_enclose]
  apply Nat.add_le_add_right
  by_cases hk : f.rank < k
  · have hl : f.rank < l := Nat.lt_of_lt_of_le hk hkl
    simp [hk, hl]
  · simp [hk]

end Formula

/-- What opens in a phrase of a level is at least what the printer opens for its tree at that
level. -/
theorem Takes.opens_enclose_le {l n : Nat} {ts : List Token} {f : Formula} (h : Takes l ts f n)
    (hf : f.IsNamed) :
    Text.opens (Formula.enclose (decide (f.rank < l)) f.chars) ≤ Token.opens ts := by
  -- the level is part of the invariant: it tells whether the tree was derived between parentheses
  induction h with
  | @var t ht =>
    have hname : Token.isName t.text = true := hf t.text (by simp [Formula.leaves])
    rw [Text.opens_enclose, Formula.chars, Text.opens_name hname]
    exact Nat.zero_le _
  | @paren o c ts f n ho _ hc ih =>
    -- the phrase inside is read at the loosest level, where nothing is enclosed
    have hin := ih hf
    rw [Text.opens_enclose] at hin
    have hparen : Token.opens (o :: (ts ++ [c])) = Token.opens ts + 1 := by
      simp [Token.opens, ho, hc]
    rw [Text.opens_enclose, hparen]
    have hone := Bool.toNat_le (decide (f.rank < 6))
    omega
  | @atom ts f n _ ih =>
    exact Nat.le_trans (Formula.opens_enclose_mono (Nat.le_succ 5) f) (ih hf)
  | @neg t ts f n ht _ ih =>
    have hin := ih hf
    rw [Text.opens_enclose, Formula.opens_chars_neg, Token.opens_cons, ht]
    simpa [Formula.rank] using hin
  | @operand op ts f n _ ih =>
    exact Nat.le_trans (Formula.opens_enclose_mono (Nat.le_succ op.rank) f) (ih hf)
  | @bin op t ts us f g m n _ ht _ ih ih' =>
    have hleft := ih fun x hx => hf x (List.mem_append_left _ hx)
    have hright := ih' fun x hx => hf x (List.mem_append_right _ hx)
    rw [Text.opens_enclose, Formula.opens_chars_bin, Token.opens_append, Token.opens_cons, ht]
    simpa [Formula.rank] using Nat.add_le_add hleft hright

/-! ## Texts of a formula -/

namespace Formula

/-- Every text that is parsed to a formula opens as many parentheses as the printed one. -/
theorem opens_text_le {maxDepth : Int} {text : String} {f : Formula}
    (h : parse maxDepth text = .ok f) : Text.opens f.text.toList ≤ Text.opens text.toList := by
  obtain ⟨ts, hscan, hf, -⟩ := derives_of_parse h
  obtain ⟨n, hn⟩ := hf.exists_takes
  have hspells := Token.spells_of_scanFrom hscan
  calc Text.opens f.text.toList
      = Text.opens f.chars := by rw [Formula.text, String.toList_ofList]
    _ ≤ Text.opens (enclose (decide (f.rank < 1)) f.chars) := by
        rw [Text.opens_enclose]
        exact Nat.le_add_left ..
    _ ≤ Token.opens ts := hn.opens_enclose_le (isNamed_of_parse h)
    _ = Token.opens (ts ++ [⟨.stop, "", text.length⟩]) := by
        rw [Token.opens_append]
        rfl
    _ = Text.opens text.toList := hspells.opens_eq.symm

/-- No text of a formula opens fewer parentheses than the printed one, which is a text of it if its
names are well formed, it keeps to the limit and it finds room. -/
theorem opens_text_least (maxDepth : Int) (f : Formula) :
    (∀ text, parse maxDepth text = .ok f → Text.opens f.text.toList ≤ Text.opens text.toList) ∧
    (f.IsNamed → (f.depth : Int) ≤ maxDepth → 7 * f.depth ≤ Reader.capacity →
      parse maxDepth f.text = .ok f) := by
  refine ⟨fun text h => opens_text_le h, ?_⟩
  intro hnames hdepth hroom
  rw [depth_eq_height] at hroom
  rw [parse_text_eq maxDepth hnames hroom, if_neg (Int.not_lt.mpr hdepth)]

/-- A text of `sample` with parentheses that the grammar does not need. -/
def crowdedText : String := "(A) -> ((B v (~C ^ (D <-> A)) ^ B) -> (C))"

theorem opens_text_least_sample :
    Text.opens sample.text.toList = 1 ∧ parse 100 sample.text = .ok sample ∧
    Text.opens crowdedText.toList = 6 ∧ parse 100 crowdedText = .ok sample ∧
    ∀ text, Text.opens text.toList = 0 → parse 100 text ≠ .ok sample := by
  obtain ⟨hleast, hread⟩ := opens_text_least 100 sample
  have hone : Text.opens sample.text.toList = 1 := by decide
  have hnames : sample.IsNamed := by decide
  have hheight : sample.height = 7 := by decide
  rw [depth_eq_height, hheight] at hread
  refine ⟨hone, hread hnames (by decide) (by decide), by decide, ?_, ?_⟩
  · exact Token.eq_ok_of_toOption (by decide +kernel)
  · intro text hzero hparse
    have hle := hleast text hparse
    omega

end Formula

end Propositional
