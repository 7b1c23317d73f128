import Mathlib.Data.List.Basic
import Propositional.Exchange.Tag
import Propositional.Proofs.Objections

/-!
# Tags read back

The tag of a justification is read back as the same justification. Numbers are written in basic
digits, so nothing else in a tag is taken for a part of them; what follows the numbers is a side
only where nothing but white space follows it, so the first letter of a direction is none. A number
with too many digits is not read, and nothing else can go wrong. The sign of a negative number is
no part of any tag, so a tag with one is refused.

## Main definitions

* `Justification.IsPlain`: justifications that a tag can write
* `Justification.IsSigned`: the same with line numbers of either sign

## Main results

* `Text.naturalWithin?_toDigits`: a written number is read back unless it is too long
* `Justification.ofTag_tag`: a tag is read back unless a line number is too long
* `Justification.ofTag_tag_of_negative`: a tag with a negative line number is refused
-/

namespace Propositional

namespace Text

/-- What is said of all characters of a text is decided along the text, not over all characters
there are. -/
theorem forall_mem_of_all {P : Char → Prop} [DecidablePred P] {cs : List Char}
    (h : (cs.all fun c => decide (P c)) = true) : ∀ c ∈ cs, P c := by
  intro c hc
  exact of_decide_eq_true (List.all_eq_true.mp h c hc)

/-! ## Written numbers -/

theorem toNat_of_isDigit {c : Char} (h : c.isDigit = true) : 48 ≤ c.toNat ∧ c.toNat ≤ 57 := by
  simp only [Char.isDigit, Bool.and_eq_true, decide_eq_true_eq] at h
  exact ⟨h.1, h.2⟩

theorem decimalValue?_of_isDigit {c : Char} (h : c.isDigit = true) :
    decimalValue? c = some (c.toNat - 48) := by
  have hc := toNat_of_isDigit h
  have hzero : (zeros.find? fun z => z ≤ c.toNat && c.toNat < z + 10) = some 48 := by
    rw [zeros, List.find?_cons_of_pos]
    simp only [Bool.and_eq_true, decide_eq_true_eq]
    omega
  rw [decimalValue?, hzero, Option.map_some]

theorem isBlank_of_isDigit {c : Char} (h : c.isDigit = true) : isBlank c = false := by
  have hc := toNat_of_isDigit h
  rw [← Bool.not_eq_true, isBlank, CharSet.contains_eq_true_iff]
  rintro ⟨r, hr, hlo, hhi⟩
  have hblanks : ∀ r ∈ blanks, r.2 < 48 ∨ 57 < r.1 := by decide
  have := hblanks r hr
  omega

theorem isDigit_of_mem_toDigits {n : Nat} {c : Char} (hc : c ∈ Nat.toDigits 10 n) :
    c.isDigit = true :=
  Nat.isDigit_of_mem_toDigits (by decide) (by decide) hc

theorem isDecimal_of_mem_toDigits {n : Nat} {c : Char} (hc : c ∈ Nat.toDigits 10 n) :
    isDecimal c = true :=
  isDecimal_of_isDigit (isDigit_of_mem_toDigits hc)

theorem isBlank_of_mem_toDigits {n : Nat} {c : Char} (hc : c ∈ Nat.toDigits 10 n) :
    isBlank c = false :=
  isBlank_of_isDigit (isDigit_of_mem_toDigits hc)

/-- The digits of a number write it. -/
theorem natural_toDigits (n : Nat) : natural (Nat.toDigits 10 n) = n := by
  have hvalue : ∀ m, ∀ c ∈ Nat.toDigits 10 n,
      10 * m + (decimalValue? c).getD 0 = 10 * m + (c.toNat - '0'.toNat) := by
    intro m c hc
    rw [decimalValue?_of_isDigit (isDigit_of_mem_toDigits hc)]
    rfl
  rw [natural, List.foldl_ext _ _ 0 hvalue, ← Nat.ofDigitChars_eq_foldl,
    Nat.ofDigitChars_ten_toDigits]

theorem length_toDigits_le_iff {n k : Nat} (hk : 0 < k) :
    (Nat.toDigits 10 n).length ≤ k ↔ n < leastLonger k :=
  Nat.length_toDigits_le_iff (by decide) hk

/-- A written number is read back unless it is too long. -/
theorem naturalWithin?_toDigits (n : Nat) :
    naturalWithin? (Nat.toDigits 10 n) = if n < numberLimit then some n else none := by
  rw [naturalWithin?, natural_toDigits]
  exact if_congr (length_toDigits_le_iff (by decide)) rfl rfl

/-- Behind the digits of a number stands what is no digit. -/
theorem takeWhile_toDigits_append {n : Nat} {rest : List Char}
    (hrest : ∀ c ∈ rest.head?, isDecimal c = false) :
    (Nat.toDigits 10 n ++ rest).takeWhile isDecimal = Nat.toDigits 10 n := by
  rw [List.takeWhile_append_of_pos fun c hc => isDecimal_of_mem_toDigits hc]
  cases rest with
  | nil => simp
  | cons c cs => simp [hrest c rfl]

theorem dropWhile_toDigits_append {n : Nat} {rest : List Char}
    (hrest : ∀ c ∈ rest.head?, isDecimal c = false) :
    (Nat.toDigits 10 n ++ rest).dropWhile isDecimal = rest := by
  rw [List.dropWhile_append_of_pos fun c hc => isDecimal_of_mem_toDigits hc]
  cases rest with
  | nil => rfl
  | cons c cs => simp [hrest c rfl]

/-- White space is not skipped where there is none. -/
theorem dropWhile_isBlank_of_head {cs : List Char} (h : ∀ c ∈ cs.head?, isBlank c = false) :
    cs.dropWhile isBlank = cs := by
  cases cs with
  | nil => rfl
  | cons c cs => simp [h c rfl]

theorem isBlank_of_mem_head?_toDigits_append {n : Nat} {rest : List Char} :
    ∀ c ∈ (Nat.toDigits 10 n ++ rest).head?, isBlank c = false := by
  intro c hc
  rw [List.head?_append_of_ne_nil _ Nat.toDigits_ne_nil] at hc
  exact isBlank_of_mem_toDigits (List.mem_of_mem_head? hc)

/-- Nothing is trimmed of a text with no white space at its ends. -/
theorem trim_eq_self {cs : List Char} (hhead : ∀ c ∈ cs.head?, isBlank c = false)
    (hlast : ∀ c ∈ cs.getLast?, isBlank c = false) : trim cs = cs := by
  rw [trim, dropWhile_isBlank_of_head hhead, dropWhile_isBlank_of_head, List.reverse_reverse]
  rwa [List.head?_reverse]

theorem trim_append {cs es : List Char} (hcs : cs ≠ []) (hcs' : ∀ c ∈ cs, isBlank c = false)
    (ds : List Char) (hes : es ≠ []) (hes' : ∀ c ∈ es, isBlank c = false) :
    trim (cs ++ (ds ++ es)) = cs ++ (ds ++ es) := by
  refine trim_eq_self (fun c hc => ?_) fun c hc => ?_
  · rw [List.head?_append_of_ne_nil _ hcs] at hc
    exact hcs' c (List.mem_of_mem_head? hc)
  · rw [List.getLast?_append_of_ne_nil _ (by simp [hes]),
      List.getLast?_append_of_ne_nil _ hes] at hc
    exact hes' c (List.mem_of_mem_getLast? hc)

/-- A number that is not negative is written by its digits. -/
theorem toList_integer_natCast (n : Nat) : (integer n).toList = Nat.toDigits 10 n := by
  have hn : ¬ (n : Int) < 0 := by omega
  rw [integer, if_neg hn, String.empty_append, String.toList_ofList, Int.natAbs_natCast]

theorem toList_integer_of_neg {n : Int} (hn : n < 0) :
    (integer n).toList = '-' :: Nat.toDigits 10 n.natAbs := by
  rw [integer, if_pos hn, String.toList_append, String.toList_ofList]
  simp

end Text

namespace Tag

/-! ## The parts of a tag -/

variable {rule rest : List Char} {a b : Nat}

theorem digits?_toDigits_append (hrest : ∀ c ∈ rest.head?, Text.isDecimal c = false) :
    digits? (Nat.toDigits 10 a ++ rest) = some (Nat.toDigits 10 a, rest) := by
  rw [digits?, Text.takeWhile_toDigits_append hrest, Text.dropWhile_toDigits_append hrest]
  cases h : Nat.toDigits 10 a with
  | nil => exact absurd h Nat.toDigits_ne_nil
  | cons c cs => rfl

/-- The first number stands behind one space. -/
theorem firstNumber_toDigits_append (hrest : ∀ c ∈ rest.head?, Text.isDecimal c = false) :
    firstNumber (' ' :: (Nat.toDigits 10 a ++ rest)) = (some (Nat.toDigits 10 a), rest) := by
  have hblank : (' ' :: (Nat.toDigits 10 a ++ rest)).dropWhile Text.isBlank =
      Nat.toDigits 10 a ++ rest := by
    rw [List.dropWhile_cons_of_pos (by decide)]
    exact Text.dropWhile_isBlank_of_head Text.isBlank_of_mem_head?_toDigits_append
  rw [firstNumber, hblank, digits?_toDigits_append hrest]

/-- The second number stands behind a comma. -/
theorem secondNumber_toDigits (b : Nat) :
    secondNumber (',' :: Nat.toDigits 10 b) = (some (Nat.toDigits 10 b), []) := by
  have hpast : pastDivider? ',' (',' :: Nat.toDigits 10 b) = some (Nat.toDigits 10 b) := by
    have hblank : (Nat.toDigits 10 b).dropWhile Text.isBlank = Nat.toDigits 10 b :=
      Text.dropWhile_isBlank_of_head fun c hc =>
        Text.isBlank_of_mem_toDigits (List.mem_of_mem_head? hc)
    rw [pastDivider?, List.dropWhile_cons_of_neg (by decide)]
    simp [hblank]
  have hnone : ∀ c ∈ ([] : List Char).head?, Text.isDecimal c = false := by simp
  have hdigits : digits? (Nat.toDigits 10 b) = some (Nat.toDigits 10 b, []) := by
    simpa using digits?_toDigits_append (a := b) hnone
  rw [secondNumber, hpast, Option.bind_some, hdigits]

/-- The parts of a tag are its rule and what the rest divides into, number by number. -/
theorem split?_append (hrule : ∀ c ∈ rule, isLetter c = true) (hne : rule ≠ [])
    (rest : List Char) :
    split? (rule ++ ' ' :: rest) =
      (sideAndEnding? (secondNumber (firstNumber (' ' :: rest)).2).2).map fun e =>
        ⟨rule, (firstNumber (' ' :: rest)).1, (secondNumber (firstNumber (' ' :: rest)).2).1, e.1,
          e.2⟩ := by
  have htake : (rule ++ ' ' :: rest).takeWhile isLetter = rule := by
    rw [List.takeWhile_append_of_pos hrule, List.takeWhile_cons_of_neg (by decide),
      List.append_nil]
  have hdrop : (rule ++ ' ' :: rest).dropWhile isLetter = ' ' :: rest := by
    rw [List.dropWhile_append_of_pos hrule, List.dropWhile_cons_of_neg (by decide)]
  rw [split?, htake, hdrop]
  cases rule with
  | nil => exact absurd rfl hne
  | cons c cs =>
    dsimp only
    cases sideAndEnding? (secondNumber (firstNumber (' ' :: rest)).2).2 with
    | none => rfl
    | some e => rfl

theorem split?_toDigits_append (hrule : ∀ c ∈ rule, isLetter c = true) (hne : rule ≠ [])
    (hrest : ∀ c ∈ rest.head?, Text.isDecimal c = false) :
    split? (rule ++ ' ' :: (Nat.toDigits 10 a ++ rest)) =
      (sideAndEnding? (secondNumber rest).2).map fun e =>
        ⟨rule, some (Nat.toDigits 10 a), (secondNumber rest).1, e.1, e.2⟩ := by
  rw [split?_append hrule hne, firstNumber_toDigits_append hrest]

/-- No part of a tag begins with the sign of a negative number, so none ends the rule in front of
it. -/
theorem split?_minus (hrule : ∀ c ∈ rule, isLetter c = true) (hne : rule ≠ [])
    (rest : List Char) : split? (rule ++ ' ' :: '-' :: rest) = none := by
  rw [split?_append hrule hne]
  rfl

/-- A comma is only passed together with a number behind it. -/
theorem split?_comma_minus (hrule : ∀ c ∈ rule, isLetter c = true) (hne : rule ≠ []) (a : Nat)
    (rest : List Char) :
    split? (rule ++ ' ' :: (Nat.toDigits 10 a ++ ',' :: '-' :: rest)) = none := by
  rw [split?_toDigits_append hrule hne (by simp; decide)]
  rfl

theorem split?_pair (hrule : ∀ c ∈ rule, isLetter c = true) (hne : rule ≠ []) (a b : Nat) :
    split? (rule ++ ' ' :: (Nat.toDigits 10 a ++ ',' :: Nat.toDigits 10 b)) =
      some ⟨rule, some (Nat.toDigits 10 a), some (Nat.toDigits 10 b), none, none⟩ := by
  rw [split?_toDigits_append hrule hne (by simp; decide), secondNumber_toDigits]
  rfl

theorem split?_side (hrule : ∀ c ∈ rule, isLetter c = true) (hne : rule ≠ []) (a : Nat)
    (side : Side) :
    split? (rule ++ ' ' :: (Nat.toDigits 10 a ++ '.' :: side.letter.toList)) =
      some ⟨rule, some (Nat.toDigits 10 a), none, side.letter.toList.head?, none⟩ := by
  rw [split?_toDigits_append hrule hne (by simp; decide)]
  cases side <;> rfl

/-- The first letter of a direction is no side, as an arrow follows it. -/
theorem split?_direction (hrule : ∀ c ∈ rule, isLetter c = true) (hne : rule ≠ []) (a : Nat)
    (direction : Direction) :
    split? (rule ++ ' ' :: (Nat.toDigits 10 a ++ ' ' :: direction.word.toList)) =
      some ⟨rule, some (Nat.toDigits 10 a), none, none, some direction.word.toList⟩ := by
  rw [split?_toDigits_append hrule hne (by simp; decide)]
  cases direction <;> rfl

theorem numbers?_single {t : Tag} (hfirst : t.first = some (Nat.toDigits 10 a))
    (hsecond : t.second = none) :
    t.numbers? = if a < Text.numberLimit then some [a] else none := by
  rw [numbers?, hfirst, hsecond]
  by_cases ha : a < Text.numberLimit <;> simp [Text.naturalWithin?_toDigits, ha]

theorem numbers?_pair {t : Tag} (hfirst : t.first = some (Nat.toDigits 10 a))
    (hsecond : t.second = some (Nat.toDigits 10 b)) :
    t.numbers? =
      if a < Text.numberLimit ∧ b < Text.numberLimit then some [a, b] else none := by
  rw [numbers?, hfirst, hsecond]
  by_cases ha : a < Text.numberLimit <;> by_cases hb : b < Text.numberLimit <;>
    simp [Text.naturalWithin?_toDigits, ha, hb]

end Tag

/-! ## The justification of a tag -/

namespace Justification

/-- A justification that a tag can write: an axiom by its number, or a rule that cites lines by
natural numbers. -/
def IsPlain : Justification → Prop
  | .bare => False
  | .ax n => n = .int 1 ∨ n = .int 2 ∨ n = .int 3
  | j => ∀ r ∈ j.references, ∃ k : Nat, r = .int k

/-- A justification that a tag can write, but with line numbers of either sign. -/
def IsSigned : Justification → Prop
  | .ax n => n = .int 1 ∨ n = .int 2 ∨ n = .int 3
  | j => j.IsReadable

theorem toList_plain_natCast (n : Nat) : (Value.plain (.int n)).toList = Nat.toDigits 10 n := by
  show (Text.integer n).toList = _
  exact Text.toList_integer_natCast n

theorem toList_plain_of_neg {n : Int} (hn : n < 0) :
    (Value.plain (.int n)).toList = '-' :: Nat.toDigits 10 n.natAbs := by
  show (Text.integer n).toList = _
  exact Text.toList_integer_of_neg hn

/-- Two lines are written behind a rule with a comma between them. -/
theorem CitesTwo.toList_tag {j : Justification} {x y : Value} (h : j.CitesTwo x y) :
    j.tag.toList = j.rule.toList ++ ' ' :: (x.plain.toList ++ ',' :: y.plain.toList) := by
  have hcited : (String.intercalate "," ([x, y].map Value.plain)).toList =
      x.plain.toList ++ ',' :: y.plain.toList := by
    have hjoin : String.intercalate "," ([x, y].map Value.plain) =
        x.plain ++ "," ++ y.plain := rfl
    rw [hjoin, String.toList_append, String.toList_append]
    simp
  have hne : ¬ (String.intercalate "," ([x, y].map Value.plain) == "") = true := by
    rw [beq_iff_eq, ← String.toList_inj, hcited]
    simp
  rw [h.tag, if_neg hne, String.toList_append, String.toList_append, hcited]
  simp

theorem CitesTwo.toList_tag_natCast {j : Justification} {a b : Nat}
    (h : j.CitesTwo (.int a) (.int b)) :
    j.tag.toList = j.rule.toList ++ ' ' :: (Nat.toDigits 10 a ++ ',' :: Nat.toDigits 10 b) := by
  rw [h.toList_tag, toList_plain_natCast, toList_plain_natCast]

/-- The numbers in the tag of a rule are those of the lines that it cites. -/
theorem CitesTwo.numbers {j : Justification} {x y : Value} (h : j.CitesTwo x y) :
    j.numbers = [x, y] := by
  have hrefs := h.references
  cases j with
  | ax n => cases hrefs
  | bare | mp | mt | hs | adj | ds | simp | iff => exact hrefs

theorem toList_tag_simp (x : Value) (side : Side) :
    (tag (.simp x side)).toList =
      "SIMP".toList ++ ' ' :: (x.plain.toList ++ '.' :: side.letter.toList) := by
  simp [tag]

theorem toList_tag_iff (x : Value) (direction : Direction) :
    (tag (.iff x direction)).toList =
      "IFF".toList ++ ' ' :: (x.plain.toList ++ ' ' :: direction.word.toList) := by
  simp [tag]

theorem IsSigned.isReadable {j : Justification} (hj : j.IsSigned) : j.IsReadable := by
  cases j with
  | ax n => rcases hj with rfl | rfl | rfl <;> rfl
  | bare | mp | mt | hs | adj | ds | simp | iff => exact hj

/-- A tag can write a justification exactly if no line number is negative. -/
theorem isPlain_iff {j : Justification} :
    j.IsPlain ↔ j.IsSigned ∧ ∀ r ∈ j.references, ∃ k : Nat, r = .int k := by
  constructor
  · intro hj
    cases j with
    | bare => exact hj.elim
    | ax n => exact ⟨hj, List.forall_mem_nil _⟩
    | mp | mt | hs | adj | ds | simp | iff =>
      refine ⟨fun r hr => ?_, hj⟩
      obtain ⟨k, rfl⟩ := hj r hr
      exact ⟨k, rfl⟩
  · rintro ⟨hj, hnat⟩
    cases j with
    | bare => exact hj.elim
    | ax n => exact hj
    | mp | mt | hs | adj | ds | simp | iff => exact hnat

theorem IsPlain.isReadable {j : Justification} (hj : j.IsPlain) : j.IsReadable :=
  (isPlain_iff.mp hj).1.isReadable

/-- The kinds of justifications with line numbers of either sign. -/
theorem IsSigned.cases {j : Justification} (hj : j.IsSigned) :
    (∃ n, j = .ax n ∧ (n = .int 1 ∨ n = .int 2 ∨ n = .int 3)) ∨
      (∃ a b : Int, j.CitesTwo (.int a) (.int b)) ∨
      (∃ (a : Int) (side : Side), j = .simp (.int a) side) ∨
      ∃ (a : Int) (direction : Direction), j = .iff (.int a) direction := by
  rcases j.cases_references with rfl | ⟨n, rfl⟩ | ⟨x, y, h⟩ | ⟨x, side, rfl⟩ | ⟨x, direction, rfl⟩
  · exact hj.elim
  · exact .inl ⟨n, rfl, hj⟩
  · have hint := hj.isReadable.forall_int
    rw [h.references] at hint
    obtain ⟨⟨a, rfl⟩, b, rfl⟩ := forall_mem_pair.mp hint
    exact .inr (.inl ⟨a, b, h⟩)
  · obtain ⟨a, rfl⟩ := hj x List.mem_cons_self
    exact .inr (.inr (.inl ⟨a, side, rfl⟩))
  · obtain ⟨a, rfl⟩ := hj x List.mem_cons_self
    exact .inr (.inr (.inr ⟨a, direction, rfl⟩))

/-! ## Tags of rules that cite lines -/

variable {rule : String} {a b n : Nat}

/-- The names of the rules that cite lines are capital letters, and not those of an axiom. -/
theorem letters_of_arity? (h : arity? rule = some n) :
    rule.toList ≠ [] ∧ (∀ c ∈ rule.toList, Tag.isLetter c = true) ∧
      (∀ c ∈ rule.toList, Text.isBlank c = false) ∧ rule.toList.map Char.toUpper = rule.toList ∧
      rule.toList ≠ ['A'] ∧ rule.toList ≠ ['A', 'X'] := by
  have hall : ∀ r ∈ ["MP", "MT", "HS", "ADJ", "DS", "SIMP", "IFF"],
      r.toList ≠ [] ∧ (r.toList.all fun c => decide (Tag.isLetter c = true)) = true ∧
        (r.toList.all fun c => decide (Text.isBlank c = false)) = true ∧
        r.toList.map Char.toUpper = r.toList ∧ r.toList ≠ ['A'] ∧ r.toList ≠ ['A', 'X'] := by
    decide +kernel
  obtain ⟨hne, hletter, hblank, hrest⟩ := hall rule (mem_of_arity? h)
  exact ⟨hne, Text.forall_mem_of_all hletter, Text.forall_mem_of_all hblank, hrest⟩

theorem ruleName_of_arity? (h : arity? rule = some n) {t : Tag} (ht : t.rule = rule.toList) :
    String.ofList t.ruleName = rule := by
  obtain ⟨-, -, -, hupper, hA, hAX⟩ := letters_of_arity? h
  rw [Tag.ruleName, ht, hupper]
  cases t.first with
  | none => exact String.ofList_toList
  | some ds => simp [hA, hAX]

/-- The document of a tag gives the justification of its rule and its numbers. -/
theorem ofValue_toValue_tag {t : Tag} (ht : t.rule = rule.toList) {numbers : List Nat}
    (harity : arity? rule = some numbers.length) :
    ofValue (t.toValue numbers) =
      ofReferences rule (numbers.map fun (k : Nat) => .int k) (t.toValue numbers) := by
  have hrule : (t.toValue numbers).field? "rule" = some (.text rule) := by
    rw [← ruleName_of_arity? harity ht]
    rfl
  refine ofValue_of_references rfl hrule rfl (fun r hr => ?_) (by rw [harity, List.length_map])
  obtain ⟨k, -, rfl⟩ := List.mem_map.mp hr
  exact ⟨k, rfl⟩

/-- No white space stands around a tag. -/
theorem trim_toList_tag {tag : String} {ds es : List Char} (harity : arity? rule = some n)
    (htag : tag.toList = rule.toList ++ (ds ++ es)) (hes : es ≠ [])
    (hblank : ∀ c ∈ es, Text.isBlank c = false) : Text.trim tag.toList = tag.toList := by
  obtain ⟨hne, -, hrule, -⟩ := letters_of_arity? harity
  rw [htag, Text.trim_append hne hrule ds hes hblank]

/-- A tag that splits into a rule and its numbers is read as their justification unless a number is
too long. -/
theorem ofTag_of_split? {tag : String} {t : Tag} {numbers : List Nat} {short : Prop}
    [Decidable short] {j : Justification} {ds es : List Char}
    (harity : arity? rule = some numbers.length)
    (htag : tag.toList = rule.toList ++ (ds ++ es)) (hes : es ≠ [])
    (hblank : ∀ c ∈ es, Text.isBlank c = false) (hsplit : Tag.split? tag.toList = some t)
    (ht : t.rule = rule.toList) (hnumbers : t.numbers? = if short then some numbers else none)
    (hj : ofReferences rule (numbers.map fun (k : Nat) => .int k) (t.toValue numbers) = .ok j) :
    ofTag tag = if short then .ok j else .error (.breach .oversized) := by
  rw [ofTag, trim_toList_tag harity htag hes hblank, hsplit]
  by_cases h : short
  · simp [hnumbers, h, ofValue_toValue_tag ht harity, hj, Except.mapError]
  · simp [hnumbers, h]

/-- The kinds of plain justifications. -/
theorem IsPlain.cases {j : Justification} (hj : j.IsPlain) :
    (∃ n, j = .ax n ∧ (n = .int 1 ∨ n = .int 2 ∨ n = .int 3)) ∨
      (∃ a b : Nat, j.CitesTwo (.int a) (.int b)) ∨
      (∃ (a : Nat) (side : Side), j = .simp (.int a) side) ∨
      ∃ (a : Nat) (direction : Direction), j = .iff (.int a) direction := by
  obtain ⟨hsigned, hnat⟩ := isPlain_iff.mp hj
  rcases hsigned.cases with hax | ⟨x, y, h⟩ | ⟨x, side, rfl⟩ | ⟨x, direction, rfl⟩
  · exact .inl hax
  · rw [h.references] at hnat
    obtain ⟨⟨a, ha⟩, b, hb⟩ := forall_mem_pair.mp hnat
    rw [ha, hb] at h
    exact .inr (.inl ⟨a, b, h⟩)
  · obtain ⟨a, ha⟩ := hnat _ List.mem_cons_self
    exact .inr (.inr (.inl ⟨a, side, by rw [ha]⟩))
  · obtain ⟨a, ha⟩ := hnat _ List.mem_cons_self
    exact .inr (.inr (.inr ⟨a, direction, by rw [ha]⟩))

/-- The tag of a justification by a rule that cites two lines. -/
theorem CitesTwo.ofTag_tag {j : Justification} (h : j.CitesTwo (.int a) (.int b)) :
    ofTag j.tag = if j.isShort then .ok j else .error (.breach .oversized) := by
  obtain ⟨hne, hletter, -⟩ := letters_of_arity? h.arity
  have hsplit := Tag.split?_pair hletter hne a b
  rw [← h.toList_tag_natCast] at hsplit
  have hends : j.tag.toList =
      j.rule.toList ++ ((' ' :: (Nat.toDigits 10 a ++ [','])) ++ Nat.toDigits 10 b) := by
    simp [h.toList_tag_natCast]
  have hshort : (j.isShort = true) = (a < Text.numberLimit ∧ b < Text.numberLimit) := by
    simp [isShort, h.numbers, Value.isShort_natCast]
  simp only [hshort]
  exact ofTag_of_split? h.arity hends Nat.toDigits_ne_nil
    (fun c hc => Text.isBlank_of_mem_toDigits hc) hsplit rfl (Tag.numbers?_pair rfl rfl) (h.read _)

/-- The tag of a justification by a rule that cites one line and says more behind it. -/
theorem ofTag_tag_single {j : Justification} {mark : Char} {word : List Char} {t : Tag}
    (hnumbers : j.numbers = [.int a]) (harity : arity? j.rule = some [a].length)
    (htag : j.tag.toList = j.rule.toList ++ ' ' :: (Nat.toDigits 10 a ++ mark :: word))
    (hword : word ≠ []) (hblank : ∀ c ∈ word, Text.isBlank c = false)
    (hsplit : Tag.split? (j.rule.toList ++ ' ' :: (Nat.toDigits 10 a ++ mark :: word)) = some t)
    (ht : t.rule = j.rule.toList) (hfirst : t.first = some (Nat.toDigits 10 a))
    (hsecond : t.second = none) (hj : ofReferences j.rule [.int a] (t.toValue [a]) = .ok j) :
    ofTag j.tag = if j.isShort then .ok j else .error (.breach .oversized) := by
  rw [← htag] at hsplit
  have hends : j.tag.toList =
      j.rule.toList ++ ((' ' :: (Nat.toDigits 10 a ++ [mark])) ++ word) := by
    simp [htag]
  have hshort : (j.isShort = true) = (a < Text.numberLimit) := by
    simp [isShort, hnumbers, Value.isShort_natCast]
  simp only [hshort]
  exact ofTag_of_split? harity hends hword hblank hsplit ht (Tag.numbers?_single hfirst hsecond) hj

theorem ofTag_tag_simp (a : Nat) (side : Side) :
    ofTag (tag (.simp (.int a) side)) =
      if isShort (.simp (.int a) side) then .ok (.simp (.int a) side)
      else .error (.breach .oversized) := by
  have harity : arity? "SIMP" = some [a].length := rfl
  obtain ⟨hne, hletter, -⟩ := letters_of_arity? harity
  have hword : side.letter.toList ≠ [] := by cases side <;> decide
  have hblank : ∀ c ∈ side.letter.toList, Text.isBlank c = false :=
    Text.forall_mem_of_all (by cases side <;> decide)
  have htag := toList_tag_simp (.int a) side
  rw [toList_plain_natCast] at htag
  refine ofTag_tag_single rfl harity htag hword hblank
    (Tag.split?_side hletter hne a side) rfl rfl rfl ?_
  have hpick : (Tag.toValue ⟨"SIMP".toList, some (Nat.toDigits 10 a), none,
      side.letter.toList.head?, none⟩ [a]).field? "pick" = some (.text side.letter) := by
    cases side <;> rfl
  rw [rule, ofReferences_simp, sideOf_eq hpick List.mem_cons_self]
  rfl

theorem ofTag_tag_iff (a : Nat) (direction : Direction) :
    ofTag (tag (.iff (.int a) direction)) =
      if isShort (.iff (.int a) direction) then .ok (.iff (.int a) direction)
      else .error (.breach .oversized) := by
  have harity : arity? "IFF" = some [a].length := rfl
  obtain ⟨hne, hletter, -⟩ := letters_of_arity? harity
  have hword : direction.word.toList ≠ [] := by cases direction <;> decide
  have hblank : ∀ c ∈ direction.word.toList, Text.isBlank c = false :=
    Text.forall_mem_of_all (by cases direction <;> decide)
  have htag := toList_tag_iff (.int a) direction
  rw [toList_plain_natCast] at htag
  refine ofTag_tag_single rfl harity htag hword hblank
    (Tag.split?_direction hletter hne a direction) rfl rfl rfl ?_
  have hdir : (Tag.toValue ⟨"IFF".toList, some (Nat.toDigits 10 a), none, none,
      some direction.word.toList⟩ [a]).field? "dir" = some (.text direction.word) := by
    cases direction <;> rfl
  rw [rule, ofReferences_iff, directionOf_eq hdir]
  rfl

theorem ofTag_tag_ax {n : Value} (hn : n = .int 1 ∨ n = .int 2 ∨ n = .int 3) :
    ofTag (tag (.ax n)) = .ok (.ax n) := by
  rcases hn with rfl | rfl | rfl <;> rfl

/-- The tag of a justification is read back unless a line number is too long. -/
theorem ofTag_tag {j : Justification} (hj : j.IsPlain) :
    ofTag j.tag = if j.isShort then .ok j else .error (.breach .oversized) := by
  rcases hj.cases with ⟨n, rfl, hn⟩ | ⟨a, b, h⟩ | ⟨a, side, rfl⟩ | ⟨a, direction, rfl⟩
  · -- the number of an axiom has one digit
    have hshort : isShort (.ax n) = true := by
      rcases hn with rfl | rfl | rfl <;> decide +kernel
    rw [ofTag_tag_ax hn, hshort, if_pos rfl]
  · exact h.ofTag_tag
  · exact ofTag_tag_simp a side
  · exact ofTag_tag_iff a direction

/-! ## Negative line numbers -/

/-- A tag that cannot be split is refused. -/
theorem ofTag_of_split?_eq_none {j : Justification} {mark : Char} {number word : List Char}
    (harity : arity? j.rule = some n)
    (htag : j.tag.toList = j.rule.toList ++ ' ' :: (number ++ mark :: word)) (hword : word ≠ [])
    (hblank : ∀ c ∈ word, Text.isBlank c = false)
    (hsplit : Tag.split? (j.rule.toList ++ ' ' :: (number ++ mark :: word)) = none) :
    ofTag j.tag = .error (.malformed (.tag j.tag)) := by
  rw [← htag] at hsplit
  have hends : j.tag.toList = j.rule.toList ++ ((' ' :: (number ++ [mark])) ++ word) := by
    simp [htag]
  rw [ofTag, trim_toList_tag harity hends hword hblank, hsplit]

/-- The first line number of a tag is not negative. -/
theorem ofTag_of_first_neg {j : Justification} {mark : Char} {k : Int} {word : List Char}
    (harity : arity? j.rule = some n) (hk : k < 0)
    (htag : j.tag.toList = j.rule.toList ++ ' ' :: ((Value.plain (.int k)).toList ++ mark :: word))
    (hword : word ≠ []) (hblank : ∀ c ∈ word, Text.isBlank c = false) :
    ofTag j.tag = .error (.malformed (.tag j.tag)) := by
  obtain ⟨hne, hletter, -⟩ := letters_of_arity? harity
  apply ofTag_of_split?_eq_none harity htag hword hblank
  rw [toList_plain_of_neg hk]
  exact Tag.split?_minus hletter hne _

/-- An integer is written without white space. -/
theorem isBlank_of_mem_plain {k : Int} :
    (Value.plain (.int k)).toList ≠ [] ∧
      ∀ c ∈ (Value.plain (.int k)).toList, Text.isBlank c = false := by
  by_cases hk : k < 0
  · rw [toList_plain_of_neg hk]
    refine ⟨List.cons_ne_nil _ _, fun c hc => ?_⟩
    rcases List.mem_cons.mp hc with rfl | hc
    · decide
    · exact Text.isBlank_of_mem_toDigits hc
  · obtain ⟨m, rfl⟩ := Int.eq_ofNat_of_zero_le (Int.not_lt.mp hk)
    rw [toList_plain_natCast]
    exact ⟨Nat.toDigits_ne_nil, fun c hc => Text.isBlank_of_mem_toDigits hc⟩

/-- A rule that cites two lines is refused if one of the numbers is negative. -/
theorem CitesTwo.ofTag_of_neg {j : Justification} {x y : Int} (h : j.CitesTwo (.int x) (.int y))
    (hneg : x < 0 ∨ y < 0) : ofTag j.tag = .error (.malformed (.tag j.tag)) := by
  obtain ⟨hword, hblank⟩ := isBlank_of_mem_plain (k := y)
  by_cases hx : x < 0
  · exact ofTag_of_first_neg h.arity hx h.toList_tag hword hblank
  · -- the first number is read, and the comma behind it is stuck before the sign of the second
    obtain ⟨a, rfl⟩ := Int.eq_ofNat_of_zero_le (Int.not_lt.mp hx)
    have hy : y < 0 := by omega
    obtain ⟨hne, hletter, -⟩ := letters_of_arity? h.arity
    apply ofTag_of_split?_eq_none h.arity h.toList_tag hword hblank
    rw [toList_plain_natCast, toList_plain_of_neg hy]
    exact Tag.split?_comma_minus hletter hne a _

/-- A tag with a negative line number is refused. -/
theorem ofTag_tag_of_negative {j : Justification} (hj : j.IsSigned) {k : Int} (hk : k < 0)
    (hmem : .int k ∈ j.references) : ofTag j.tag = .error (.malformed (.tag j.tag)) := by
  rcases hj.cases with ⟨n, rfl, -⟩ | ⟨x, y, h⟩ | ⟨x, side, rfl⟩ | ⟨x, direction, rfl⟩
  · cases hmem
  · apply h.ofTag_of_neg
    rw [h.references, List.mem_pair] at hmem
    rcases hmem with hx | hy
    · cases hx
      exact .inl hk
    · cases hy
      exact .inr hk
  · cases List.mem_singleton.mp hmem
    refine ofTag_of_first_neg (n := 1) rfl hk (toList_tag_simp _ side) ?_
      (Text.forall_mem_of_all ?_) <;> cases side <;> decide
  · cases List.mem_singleton.mp hmem
    refine ofTag_of_first_neg (n := 1) rfl hk (toList_tag_iff _ direction) ?_
      (Text.forall_mem_of_all ?_) <;> cases direction <;> decide

/-- No line number is negative, or one is. -/
theorem IsSigned.isPlain_or_negative {j : Justification} (hj : j.IsSigned) :
    j.IsPlain ∨ ∃ k : Int, k < 0 ∧ .int k ∈ j.references := by
  by_cases hneg : ∃ k : Int, k < 0 ∧ .int k ∈ j.references
  · exact .inr hneg
  · refine .inl (isPlain_iff.mpr ⟨hj, fun r hr => ?_⟩)
    obtain ⟨k, rfl⟩ := hj.isReadable.forall_int r hr
    have hk : 0 ≤ k := Int.not_lt.mp fun hk => hneg ⟨k, hk, hr⟩
    obtain ⟨m, rfl⟩ := Int.eq_ofNat_of_zero_le hk
    exact ⟨m, rfl⟩

/-- The tag of a justification by integers, each short enough to be written, is read back if no line
number is negative and refused if one is. With a longer number no tag is written, and what would
stand there is not read. So no tag is read as another justification than the one it is written
of. -/
theorem ofTag_tag_signed (j : Justification) (hj : j.IsSigned) :
    (j.isShort = true → (Outcome.tag j).result = .ok j.tag) ∧
    (j.isShort = true → (∀ r ∈ j.references, ∃ k : Nat, r = .int k) → ofTag j.tag = .ok j) ∧
    (j.isShort = true → (∃ k : Int, k < 0 ∧ .int k ∈ j.references) →
      ofTag j.tag = .error (.malformed (.tag j.tag))) ∧
    (j.isShort = false → (Outcome.tag j).result = .error (.breach .oversized) ∧
      (∃ e, ofTag j.tag = .error e) ∧
      ((∀ r ∈ j.references, ∃ k : Nat, r = .int k) →
        ofTag j.tag = .error (.breach .oversized))) ∧
    ∀ i, ofTag j.tag = .ok i → i = j := by
  refine ⟨?_, ?_, ?_, ?_, ?_⟩
  · intro hshort
    rw [Outcome.tag, if_pos hshort]
    rfl
  · intro hshort hnat
    rw [ofTag_tag (isPlain_iff.mpr ⟨hj, hnat⟩), if_pos hshort]
  · rintro - ⟨k, hk, hmem⟩
    exact ofTag_tag_of_negative hj hk hmem
  · intro hlong
    refine ⟨?_, ?_, fun hnat => ?_⟩
    · rw [Outcome.tag, hlong, if_neg Bool.false_ne_true]
      rfl
    · rcases hj.isPlain_or_negative with hplain | ⟨k, hk, hmem⟩
      · rw [ofTag_tag hplain, hlong]
        exact ⟨_, rfl⟩
      · exact ⟨_, ofTag_tag_of_negative hj hk hmem⟩
    · rw [ofTag_tag (isPlain_iff.mpr ⟨hj, hnat⟩), hlong, if_neg Bool.false_ne_true]
  · intro i hi
    rcases hj.isPlain_or_negative with hplain | ⟨k, hk, hmem⟩
    · rw [ofTag_tag hplain] at hi
      split at hi
      · cases hi
        rfl
      · cases hi
    · rw [ofTag_tag_of_negative hj hk hmem] at hi
      cases hi

theorem ofTag_tag_signed_samples :
    ofTag (tag (.iff (.int 40) .rightToLeft)) = .ok (.iff (.int 40) .rightToLeft) ∧
    ofTag (tag (.mp (.int 12) (.int (-3)))) = .error (.malformed (.tag "MP 12,-3")) ∧
    (Outcome.tag (.mp (.int (-Text.numberLimit)) (.int 1))).result =
      .error (.breach .oversized) := by
  have hiff : IsSigned (.iff (.int 40) .rightToLeft) := by
    intro r hr
    exact ⟨40, List.mem_singleton.mp hr⟩
  have hmp : IsSigned (.mp (.int 12) (.int (-3))) := forall_mem_pair.mpr ⟨⟨12, rfl⟩, -3, rfl⟩
  have hlong : IsSigned (.mp (.int (-Text.numberLimit)) (.int 1)) :=
    forall_mem_pair.mpr ⟨⟨_, rfl⟩, 1, rfl⟩
  obtain ⟨-, hread, -⟩ := ofTag_tag_signed _ hiff
  obtain ⟨-, -, hrefused, -⟩ := ofTag_tag_signed _ hmp
  obtain ⟨-, -, -, hunwritten, -⟩ := ofTag_tag_signed _ hlong
  refine ⟨hread (by decide +kernel) fun r hr => ⟨40, List.mem_singleton.mp hr⟩, ?_,
    (hunwritten (by decide +kernel)).1⟩
  exact hrefused (by decide +kernel) ⟨-3, by decide, List.mem_cons_of_mem _ List.mem_cons_self⟩

/-- A line number of one digit more than are read is natural, and the tag that has it is not
read. -/
theorem ofTag_tag_overlong :
    IsSigned (.mp (.int Text.numberLimit) (.int 1)) ∧
    (∀ r ∈ references (.mp (.int Text.numberLimit) (.int 1)), ∃ k : Nat, r = .int k) ∧
    ofTag (tag (.mp (.int Text.numberLimit) (.int 1))) = .error (.breach .oversized) ∧
    ofTag (tag (.mp (.int Text.numberLimit) (.int 1))) ≠
      .ok (.mp (.int Text.numberLimit) (.int 1)) := by
  have hplain : IsPlain (.mp (.int Text.numberLimit) (.int 1)) :=
    forall_mem_pair.mpr ⟨⟨Text.numberLimit, rfl⟩, 1, rfl⟩
  have hlong : isShort (.mp (.int Text.numberLimit) (.int 1)) = false := by decide +kernel
  have hread := ofTag_tag hplain
  rw [hlong, if_neg Bool.false_ne_true] at hread
  refine ⟨(isPlain_iff.mp hplain).1, hplain, hread, ?_⟩
  rw [hread]
  intro h
  cases h

/-! ## The characters of tags -/

/-- Whether a character may stand in a tag. -/
def isTagPart (c : Char) : Bool :=
  Tag.isLetter c || c.isDigit || [' ', ',', '.', '-', '>'].contains c

/-- A rule, a space, a number, a mark and a word are made of such characters if the word is. -/
theorem isTagPart_of_mem_append {mark : Char} {word : List Char} (harity : arity? rule = some n)
    (hmark : isTagPart mark = true) (hword : ∀ c ∈ word, isTagPart c = true) :
    ∀ c ∈ rule.toList ++ ' ' :: (Nat.toDigits 10 a ++ mark :: word), isTagPart c = true := by
  intro c hc
  obtain ⟨-, hletter, -⟩ := letters_of_arity? harity
  simp only [List.mem_append, List.mem_cons] at hc
  rcases hc with hc | rfl | hc | rfl | hc
  · simp [isTagPart, hletter c hc]
  · decide
  · simp [isTagPart, Text.isDigit_of_mem_toDigits hc]
  · exact hmark
  · exact hword c hc

/-- The characters that stand in a tag. -/
theorem isTagPart_of_mem_tag {j : Justification} (hj : j.IsPlain) :
    ∀ c ∈ j.tag.toList, isTagPart c = true := by
  rcases hj.cases with ⟨n, rfl, hn⟩ | ⟨a, b, h⟩ | ⟨a, side, rfl⟩ | ⟨a, direction, rfl⟩
  · rcases hn with rfl | rfl | rfl <;> exact Text.forall_mem_of_all (by decide)
  · rw [h.toList_tag_natCast]
    refine isTagPart_of_mem_append h.arity (by decide) fun c hc => ?_
    simp [isTagPart, Text.isDigit_of_mem_toDigits hc]
  · rw [toList_tag_simp, toList_plain_natCast]
    exact isTagPart_of_mem_append (n := 1) rfl (by decide)
      (Text.forall_mem_of_all (by cases side <;> decide))
  · rw [toList_tag_iff, toList_plain_natCast]
    exact isTagPart_of_mem_append (n := 1) rfl (by decide)
      (Text.forall_mem_of_all (by cases direction <;> decide))

theorem not_mem_tag {j : Justification} (hj : j.IsPlain) {c : Char} (hc : isTagPart c = false) :
    c ∉ j.tag.toList := by
  intro hmem
  rw [isTagPart_of_mem_tag hj c hmem] at hc
  cases hc

theorem tag_ne_nil {j : Justification} (hj : j.IsPlain) : j.tag.toList ≠ [] := by
  rcases hj.cases with ⟨n, rfl, hn⟩ | ⟨a, b, h⟩ | ⟨a, side, rfl⟩ | ⟨a, direction, rfl⟩
  · rcases hn with rfl | rfl | rfl <;> decide
  · simp [h.toList_tag]
  · simp [toList_tag_simp]
  · simp [toList_tag_iff]

end Justification

end Propositional
