/-!
# Lone surrogates

A character outside the basic plane is written in two UTF-16 code units, a surrogate pair, and a
document may hold one of the two surrogates alone. That half is a code point of a text, but no
Unicode scalar value and so no character. A text holds it as two characters: a mark, and a stand-in
for the half. The mark is a character too; a text that is taken in from outside and holds it is
given the mark twice. So no two rows of code points are held as the same text. The mark is the last
character before the surrogates, and the stand-ins come after it, which keeps texts in the order of
their code points.

## Main definitions

* `points`: the code points of a text
* `hold`: the characters that hold a code point
* `signs`: the code points of a text one by one, as texts
* `isEncodable`: whether a text can be written in UTF-8
* `receive`, `send`: a text taken in from outside, and given back

## Main results

* `points_flatMap_hold`: a row of code points is read off the text that holds it
-/

namespace Propositional.Text

/-- The code point of the mark in front of a stand-in. -/
def halfMarkPoint : Nat := 0xD7FF

/-- The mark in front of a stand-in. -/
def halfMark : Char := Char.ofNat halfMarkPoint

/-- What is added to a surrogate to give the code point of its stand-in. -/
def standInOffset : Nat := 0x100000

/-- Whether a code point is a surrogate, half of a pair, and not a character. -/
def isHalf (n : Nat) : Bool :=
  0xD800 ≤ n && n ≤ 0xDFFF

/-- The code point that a character behind the mark stands for, if it stands for one. -/
def marked? (c : Char) : Option Nat :=
  if c == halfMark then some halfMarkPoint
  else if isHalf (c.toNat - standInOffset) then some (c.toNat - standInOffset)
  else none

/-- The code points of a text. -/
def points : List Char → List Nat
  | [] => []
  | [c] => [c.toNat]
  | c :: d :: cs =>
    if c == halfMark then
      match marked? d with
      | some n => n :: points cs
      | none => c.toNat :: points (d :: cs)
    else c.toNat :: points (d :: cs)

/-- The characters that hold a code point. -/
def hold (n : Nat) : List Char :=
  if isHalf n then [halfMark, Char.ofNat (standInOffset + n)]
  else if n == halfMarkPoint then [halfMark, halfMark]
  else [Char.ofNat n]

/-- The code points of a text one by one, each as the text that holds it. -/
def signs (cs : List Char) : List (List Char) :=
  (points cs).map hold

/-- Whether a text can be written in UTF-8: it holds no lone surrogate. -/
def isEncodable (s : String) : Bool :=
  (points s.toList).all fun n => !isHalf n

/-! ## Exchange with the outside -/

/-- A text taken in from outside, where it holds characters only. -/
def receive (s : String) : String :=
  if s.any (· == halfMark) then String.ofList (s.toList.flatMap fun c => hold c.toNat) else s

/-- The last `width` hexadecimal digits of a number, with zeros in front. -/
def hex (width n : Nat) : List Char :=
  let ds := Nat.toDigits 16 n
  List.replicate (width - ds.length) '0' ++ ds

/-- A text given to the outside; a lone surrogate is written as an escape. -/
def send (s : String) : String :=
  if s.any (· == halfMark) then
    String.ofList ((points s.toList).flatMap fun n =>
      if isHalf n then ['\\', 'u'] ++ hex 4 n else [Char.ofNat n])
  else s

/-! ## Reading back -/

theorem toNat_ofNat {n : Nat} (h : n.isValidChar) : (Char.ofNat n).toNat = n := by
  rw [Char.ofNat, dif_pos h]
  rfl

theorem points_cons_of_ne {c : Char} (cs : List Char) (h : c ≠ halfMark) :
    points (c :: cs) = c.toNat :: points cs := by
  cases cs with
  | nil => rfl
  | cons d cs => simp [points, h]

theorem points_halfMark {d : Char} {n : Nat} (cs : List Char) (h : marked? d = some n) :
    points (halfMark :: d :: cs) = n :: points cs := by
  simp [points, h]

theorem marked?_halfMark : marked? halfMark = some halfMarkPoint := by
  simp [marked?]

theorem marked?_standIn {n : Nat} (h : isHalf n = true) :
    marked? (Char.ofNat (standInOffset + n)) = some n := by
  have hn : 0xD800 ≤ n ∧ n ≤ 0xDFFF := by simpa [isHalf] using h
  have hv : (standInOffset + n).isValidChar := by
    simp only [Nat.isValidChar, standInOffset]
    omega
  have hne : Char.ofNat (standInOffset + n) ≠ halfMark := fun e => by
    have hm : halfMark.toNat = 0xD7FF := rfl
    have := congrArg Char.toNat e
    rw [toNat_ofNat hv, hm] at this
    simp only [standInOffset] at this
    omega
  simp [marked?, hne, toNat_ofNat hv, h]

/-- A code point in front is read off the text that holds it. -/
theorem points_hold_append {n : Nat} (cs : List Char) (h : n < 0x110000) :
    points (hold n ++ cs) = n :: points cs := by
  unfold hold
  split
  · exact points_halfMark cs (marked?_standIn ‹_›)
  · split
    · rename_i hm
      rw [beq_iff_eq.1 hm]
      exact points_halfMark cs marked?_halfMark
    · rename_i hh hm
      have hv : n.isValidChar := by
        simp only [isHalf, Bool.and_eq_true, decide_eq_true_eq] at hh
        simp only [Nat.isValidChar]
        omega
      have hne : Char.ofNat n ≠ halfMark := fun e => by
        have := congrArg Char.toNat e
        rw [toNat_ofNat hv] at this
        exact hm (beq_iff_eq.2 this)
      rw [List.singleton_append, points_cons_of_ne cs hne, toNat_ofNat hv]

/-- A row of code points is read off the text that holds it. -/
theorem points_flatMap_hold (ns : List Nat) (h : ∀ n ∈ ns, n < 0x110000) :
    points (ns.flatMap hold) = ns := by
  induction ns with
  | nil => rfl
  | cons n ns ih =>
    rw [List.flatMap_cons, points_hold_append _ (h n List.mem_cons_self),
      ih fun m hm => h m (List.mem_cons_of_mem n hm)]

end Propositional.Text
