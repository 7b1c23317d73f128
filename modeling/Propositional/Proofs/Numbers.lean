import Mathlib.Data.List.Induction
import Propositional.Document.Reader
import Propositional.Proofs.Documents

/-!
# Numbers that are read

A number is written by a row of digits, and a row that is too long is not read. So every integer in
a document that was read is short enough to be written into a message, and so is every number in a
justification that comes from such a document. The numbers of a tag are rows of digits as well, so
that a tag is read as a document of that kind.

The reader of documents is a machine with a stack of open lists and objects. Each mark that drives
it brings in one number at most, and what a step puts together it has either read or held before.

## Main definitions

* `Document.Mark.IsShort`, `Document.Frame.isShort`: marks and open values without overlong integers

## Main results

* `Text.natural_lt`: the size of a number by the length of its row of digits
* `Document.isShort_of_step`, `Document.isShort_of_run`: one step of the machine, and a run
* `Document.isShort_of_read`: documents that are read
* `Justification.isShort_of_ofValue`: justifications from documents
-/

namespace Propositional

/-! ## Rows of digits -/

namespace Text

theorem decimalValue?_le {c : Char} {n : Nat} (h : decimalValue? c = some n) : n ≤ 9 := by
  obtain ⟨z, hz, rfl⟩ := Option.map_eq_some_iff.mp h
  have hblock := List.find?_some hz
  simp only [Bool.and_eq_true, decide_eq_true_eq] at hblock
  omega

theorem leastLonger_succ (k : Nat) : leastLonger (k + 1) = 10 * leastLonger k :=
  Nat.mul_comm _ _

theorem leastLonger_mono {k m : Nat} (h : k ≤ m) : leastLonger k ≤ leastLonger m :=
  Nat.pow_le_pow_right (by decide) h

/-- A row of digits writes no number with more digits. -/
theorem natural_lt (ds : List Char) : natural ds < leastLonger ds.length := by
  -- from the right, since every digit moves all before it up by one place
  induction ds using List.reverseRecOn with
  | nil => exact Nat.one_pos
  | append_singleton ds d ih =>
    have hdigit : (decimalValue? d).getD 0 ≤ 9 := by
      cases hd : decimalValue? d with
      | none => exact Nat.zero_le 9
      | some n => exact decimalValue?_le hd
    have hnatural : natural (ds ++ [d]) = 10 * natural ds + (decimalValue? d).getD 0 := by
      simp [natural]
    rw [hnatural, List.length_append, List.length_singleton, leastLonger_succ]
    omega

/-- A row of digits that is not too long writes a number that is not too long. -/
theorem lt_numberLimit_of_naturalWithin? {ds : List Char} {n : Nat}
    (h : naturalWithin? ds = some n) : n < numberLimit := by
  unfold naturalWithin? at h
  split at h
  · next hds =>
    cases h
    exact Nat.lt_of_lt_of_le (natural_lt ds) (leastLonger_mono hds)
  · cases h

end Text

/-! ## Short values -/

namespace Value

variable {v data : Value} {vs : List Value} {fields : List (String × Value)} {key : String}

theorem areShort_iff : areShort vs = true ↔ ∀ v ∈ vs, v.isShort = true := by
  induction vs with
  | nil => simp [areShort]
  | cons v vs ih => simp [areShort, ih]

theorem haveShort_iff : haveShort fields = true ↔ ∀ p ∈ fields, p.2.isShort = true := by
  induction fields with
  | nil => simp [haveShort]
  | cons p fields ih =>
    obtain ⟨key, v⟩ := p
    rw [haveShort, Bool.and_eq_true, ih, List.forall_mem_cons]

theorem haveShort_set (h : haveShort fields = true) (hv : v.isShort = true) :
    haveShort (Table.set fields key v) = true := by
  induction fields with
  | nil => simp [Table.set, haveShort, hv]
  | cons p fields ih =>
    obtain ⟨k, w⟩ := p
    obtain ⟨hw, hfields⟩ : w.isShort = true ∧ haveShort fields = true := by
      simpa [haveShort] using h
    rw [Table.set]
    split
    · simp [haveShort, hv, hfields]
    · simp [haveShort, hw, ih hfields]

/-- A field of a short value is short. -/
theorem isShort_of_field? (h : data.isShort = true) (hv : data.field? key = some v) :
    v.isShort = true := by
  unfold field? at hv
  split at hv
  · next fields =>
    obtain ⟨before, behind, rfl, -⟩ := List.lookup_eq_some_iff.mp hv
    exact haveShort_iff.mp h (key, v) (by simp)
  · cases hv

theorem isShort_fieldD (h : data.isShort = true) : (data.fieldD key).isShort = true := by
  unfold fieldD
  cases hv : data.field? key with
  | none => rfl
  | some v => exact isShort_of_field? h hv

/-- A field that lists nothing where it is missing is short, too. -/
theorem isShort_field?_getD_list (h : data.isShort = true) :
    ((data.field? key).getD (.list [])).isShort = true := by
  cases hv : data.field? key with
  | none => rfl
  | some v => exact isShort_of_field? h hv

end Value

/-! ## Documents -/

namespace Document

variable {cs rest : List Char} {m : Mark} {v : Value} {st st' : List Frame} {e e' : Expect}

/-- A mark that brings in no overlong integer. -/
def Mark.IsShort (m : Mark) : Prop :=
  ∀ v, m = .scalar v → v.isShort = true

/-- Whether an open list or object holds no overlong integer. -/
def Frame.isShort : Frame → Bool
  | .items before => Value.areShort before
  | .fields before _ => Value.haveShort before

theorem isShort_of_number? (h : number? cs = some (m, rest)) : m.IsShort := by
  rintro v rfl
  unfold number? at h
  dsimp only at h
  split at h
  · cases h
  · split at h
    · split at h
      · cases h
      · next n hn =>
        cases h
        have hsize (negative : Bool) :
            (if negative then -(n : Int) else n).natAbs = n := by
          cases negative <;> simp
        rw [Value.isShort, decide_eq_true_eq, hsize]
        exact Text.lt_numberLimit_of_naturalWithin? hn
    · cases h
      rfl

theorem isShort_of_word? (h : word? cs = some (v, rest)) : v.isShort = true := by
  obtain ⟨w, hw, hv⟩ := List.exists_of_findSome?_eq_some h
  have hwords : ∀ w ∈ words, w.2.isShort = true := by
    simp [words, Value.isShort]
  split at hv
  · cases hv
    exact hwords w hw
  · cases hv

theorem isShort_of_mark? (h : mark? cs = some (m, rest)) : m.IsShort := by
  rintro v rfl
  unfold mark? at h
  split at h
  case h_9 =>
    split at h
    · next hword =>
      cases h
      exact isShort_of_word? hword
    · exact isShort_of_number? h v rfl
  case h_8 =>
    obtain ⟨r, -, hr⟩ := Option.map_eq_some_iff.mp h
    cases hr
    rfl
  all_goals cases h

theorem isShort_of_mem_marks (h : m ∈ marks cs) : m.IsShort := by
  unfold marks at h
  generalize cs.length = count at h
  induction count generalizing cs with
  | zero => cases h
  | succ count ih =>
    unfold marksWithin at h
    split at h
    · cases h
    · split at h
      · obtain rfl := List.mem_singleton.mp h
        rintro v ⟨⟩
      · next hmark =>
        rcases List.mem_cons.mp h with rfl | h
        · exact isShort_of_mark? hmark
        · exact ih h

theorem isShort_of_finish (hst : ∀ f ∈ st, f.isShort = true) (hv : v.isShort = true)
    (h : finish v st = .ok (st', e')) : ∀ f ∈ st', f.isShort = true := by
  unfold finish place at h
  split at h
  · cases h
    obtain ⟨hf, hst⟩ := List.forall_mem_cons.mp hst
    refine List.forall_mem_cons.mpr ⟨?_, hst⟩
    rw [Frame.isShort] at hf ⊢
    rw [Value.areShort, hv, hf]
    rfl
  · cases h
    obtain ⟨hf, hst⟩ := List.forall_mem_cons.mp hst
    exact List.forall_mem_cons.mpr ⟨Value.haveShort_set hf hv, hst⟩
  · cases h

theorem isShort_of_enter {f : Frame} (hst : ∀ f ∈ st, f.isShort = true) (hf : f.isShort = true)
    (h : enter f e st = .ok (st', e')) : ∀ f ∈ st', f.isShort = true := by
  unfold enter at h
  split at h
  · cases h
  · cases h
    exact List.forall_mem_cons.mpr ⟨hf, hst⟩

theorem isShort_of_stepValue (hst : ∀ f ∈ st, f.isShort = true) (hm : m.IsShort)
    (h : stepValue st m = .ok (st', e')) : ∀ f ∈ st', f.isShort = true := by
  cases m with
  | scalar v => exact isShort_of_finish hst (hm v rfl) h
  | openList => exact isShort_of_enter hst rfl h
  | openObject => exact isShort_of_enter hst rfl h
  | closeList | closeObject | colon | comma | oversized | broken => cases h

theorem isShort_of_stepKey (hst : ∀ f ∈ st, f.isShort = true)
    (h : stepKey st m = .ok (st', e')) : ∀ f ∈ st', f.isShort = true := by
  unfold stepKey at h
  split at h
  · cases h
    -- the name of a field is no value yet
    obtain ⟨hbefore, hst⟩ := List.forall_mem_cons.mp hst
    exact List.forall_mem_cons.mpr ⟨hbefore, hst⟩
  · cases h

/-- What is closed was held open before. -/
theorem isShort_of_stepClose (hst : ∀ f ∈ st, f.isShort = true)
    (h : stepClose st m = .ok (st', e')) : ∀ f ∈ st', f.isShort = true := by
  unfold stepClose at h
  split at h
  · next before f st =>
    obtain ⟨hbefore, hst⟩ := List.forall_mem_cons.mp hst
    refine isShort_of_finish hst ?_ h
    rw [Frame.isShort, Value.areShort_iff] at hbefore
    rw [Value.isShort, Value.areShort_iff]
    exact fun v hv => hbefore v (List.mem_reverse.mp hv)
  · next before f st =>
    obtain ⟨hbefore, hst⟩ := List.forall_mem_cons.mp hst
    refine isShort_of_finish hst ?_ h
    rwa [Frame.isShort] at hbefore
  · cases h

theorem isShort_of_stepSeparator (hst : ∀ f ∈ st, f.isShort = true)
    (h : stepSeparator st m = .ok (st', e')) : ∀ f ∈ st', f.isShort = true := by
  unfold stepSeparator at h
  split at h
  · cases h
    exact hst
  · cases h
    exact hst
  · exact isShort_of_stepClose hst h

/-- A mark without an overlong integer brings none into the machine. -/
theorem isShort_of_step (hst : ∀ f ∈ st, f.isShort = true) (hm : m.IsShort)
    (h : step (st, e) m = .ok (st', e')) : ∀ f ∈ st', f.isShort = true := by
  unfold step at h
  split at h
  · exact isShort_of_stepValue hst hm h
  · exact isShort_of_stepClose hst h
  · exact isShort_of_stepValue hst hm h
  · exact isShort_of_stepClose hst h
  · exact isShort_of_stepKey hst h
  · exact isShort_of_stepKey hst h
  · cases h
    exact hst
  · cases h
  · exact isShort_of_stepSeparator hst h

theorem isShort_of_run {s s' : List Frame × Expect} {ms : List Mark}
    (hst : ∀ f ∈ s.1, f.isShort = true) (hms : ∀ m ∈ ms, m.IsShort) (h : run s ms = .ok s') :
    ∀ f ∈ s'.1, f.isShort = true := by
  induction ms generalizing s with
  | nil =>
    cases h
    exact hst
  | cons m ms ih =>
    obtain ⟨hm, hms⟩ := List.forall_mem_cons.mp hms
    unfold run at h
    split at h
    · cases h
    · next s'' hstep => exact ih (isShort_of_step hst hm hstep) hms h

/-- No integer in a document that is read is too long. -/
theorem isShort_of_read {text : String} (h : read text = .ok v) : v.isShort = true := by
  unfold read at h
  split at h
  · cases h
  · next hrun =>
    cases h
    have hstart : ∀ f ∈ [Frame.items []], f.isShort = true := by
      simp [Frame.isShort, Value.areShort]
    have hfinal := isShort_of_run hstart (fun m => isShort_of_mem_marks) hrun
    have hitems := List.forall_mem_singleton.mp hfinal
    simpa [Frame.isShort, Value.areShort] using hitems
  · cases h

end Document

/-! ## Justifications and proofs -/

namespace Justification

variable {data : Value} {j : Justification}

theorem isShort_of_isAxiomNumber {n : Value} (h : isAxiomNumber n = true) : n.isShort = true := by
  cases n with
  | int k =>
    have hk : k = 1 ∨ k = 2 ∨ k = 3 := by
      simpa [isAxiomNumber, Value.equalsInteger, or_assoc] using h
    rcases hk with rfl | rfl | rfl <;> decide +kernel
  | null | bool | real | text => rfl
  | list | object => cases h

/-- The numbers in a justification from a document are those of the document, or of axioms. -/
theorem isShort_of_ofValue (hdata : data.isShort = true) (h : ofValue data = .ok j) :
    j.isShort = true := by
  rcases ofValue_eq_ok_cases h with ⟨n, rfl, hn⟩ | ⟨-, hax, hlist, -⟩
  · simp [isShort, numbers, isShort_of_isAxiomNumber hn]
  · have hrefs : (Value.list j.references).isShort = true := by
      rw [← hlist]
      exact Value.isShort_field?_getD_list hdata
    have hnumbers : j.numbers = j.references := by
      cases j with
      | ax n => exact absurd rfl (hax n)
      | bare | mp | mt | hs | adj | ds | simp | iff => rfl
    rw [isShort, hnumbers, List.all_eq_true]
    exact Value.areShort_iff.mp hrefs

end Justification

end Propositional
