import Propositional.Formula.Token

/-!
# Scanning follows the spellings

A text spells a row of tokens if it is made of white space, names and spellings of connectives and
parentheses, where no character that could join a name stands behind one. No spelling begins
another and none begins like a name or with white space, so a text spells at most one row: the
scanner finds it if there is one.

## Main definitions

* `Token.EndsName`: a text does not prolong a name in front of it
* `Token.Spells`: a text spells a row of tokens, the first of them at an offset

## Main results

* `Token.spelling?_append`: a spelling is found whatever stands behind it
* `Token.scanFrom_eq_ok_iff`: scanning finds exactly the row that is spelled
* `Token.Spells.exists_eq_append`: the row ends with its only end mark, at the length of the text
-/

namespace Propositional.Token

/-! ## Spellings and names -/

/-- A text does not prolong a name in front of it. -/
def EndsName (cs : List Char) : Prop :=
  ∀ c ∈ cs.head?, isNamePart c = false

/-- A text spells a row of tokens, the first of them at an offset. -/
inductive Spells : Nat → List Char → List Token → Prop
  | stop {o : Nat} : Spells o [] [⟨.stop, "", o⟩]
  | blank {o : Nat} {c : Char} {cs : List Char} {ts : List Token} (hc : Text.isBlank c = true)
      (h : Spells (o + 1) cs ts) : Spells o (c :: cs) ts
  | name {o : Nat} {name : String} {cs : List Char} {ts : List Token} (hname : isName name = true)
      (hcs : EndsName cs) (h : Spells (o + name.length) cs ts) :
      Spells o (name.toList ++ cs) (⟨.var, name, o⟩ :: ts)
  | sign {o : Nat} {s : String} {kind : Kind} {cs : List Char} {ts : List Token}
      (hs : (s, kind) ∈ spellings) (h : Spells (o + s.length) cs ts) :
      Spells o (s.toList ++ cs) (⟨kind, s, o⟩ :: ts)

/-- A spelling is found whatever stands behind it. -/
theorem spelling?_append {p : String × Kind} (hp : p ∈ spellings) (cs : List Char) :
    spelling? (p.1.toList ++ cs) = some p := by
  simp only [spellings, List.mem_cons, List.not_mem_nil, or_false] at hp
  rcases hp with rfl | rfl | rfl | rfl | rfl | rfl | rfl | rfl | rfl | rfl | rfl | rfl | rfl |
    rfl | rfl
  all_goals rfl

/-- Every spelling begins with a character that is no white space and joins no name. -/
theorem exists_cons_of_mem_spellings {p : String × Kind} (hp : p ∈ spellings) :
    ∃ c cs, p.1.toList = c :: cs ∧ Text.isBlank c = false ∧ isNamePart c = false := by
  have hhead : ∀ p ∈ spellings,
      (p.1.toList.head?.any fun c => !Text.isBlank c && !isNamePart c) = true := by
    decide
  have h := hhead p hp
  cases hcs : p.1.toList with
  | nil =>
    rw [hcs] at h
    cases h
  | cons c cs =>
    rw [hcs] at h
    simp only [List.head?_cons, Option.any_some, Bool.and_eq_true, Bool.not_eq_true'] at h
    exact ⟨c, cs, rfl, h⟩

/-- No spelling writes a name or the end mark. -/
theorem kind_of_mem_spellings {p : String × Kind} (hp : p ∈ spellings) :
    p.2 ≠ .var ∧ p.2 ≠ .stop := by
  have hkind : ∀ p ∈ spellings, p.2 ≠ .var ∧ p.2 ≠ .stop := by decide
  exact hkind p hp

theorem endsName_nil : EndsName [] := by
  intro c hc
  cases hc

theorem endsName_cons {c : Char} {cs : List Char} (h : isNamePart c = false) :
    EndsName (c :: cs) := by
  intro d hd
  cases hd
  exact h

/-- A spelling ends the name in front of it. -/
theorem endsName_spelling {p : String × Kind} (hp : p ∈ spellings) (cs : List Char) :
    EndsName (p.1.toList ++ cs) := by
  obtain ⟨c, ds, hcs, -, hc⟩ := exists_cons_of_mem_spellings hp
  rw [hcs]
  exact endsName_cons hc

theorem endsName_dropWhile (cs : List Char) : EndsName (cs.dropWhile isNamePart) := by
  intro c hc
  have h := List.head?_dropWhile_not isNamePart cs
  rw [hc] at h
  simpa using h

theorem takeWhile_append_of_endsName {name cs : List Char} (hname : name.all isNamePart = true)
    (hcs : EndsName cs) : (name ++ cs).takeWhile isNamePart = name := by
  rw [List.takeWhile_append_of_pos (by simpa using hname)]
  cases cs with
  | nil => simp
  | cons c cs => simp [hcs c rfl]

theorem dropWhile_append_of_endsName {name cs : List Char} (hname : name.all isNamePart = true)
    (hcs : EndsName cs) : (name ++ cs).dropWhile isNamePart = cs := by
  rw [List.dropWhile_append_of_pos (by simpa using hname)]
  cases cs with
  | nil => rfl
  | cons c cs => simp [hcs c rfl]

theorem isNamePart_of_isNameStart {c : Char} (h : isNameStart c = true) : isNamePart c = true := by
  simp [isNamePart, h]

/-- A name is a character that may begin one and characters that may continue it. -/
theorem exists_cons_of_isName {name : String} (hname : isName name = true) :
    ∃ c cs, name.toList = c :: cs ∧ isNameStart c = true ∧ cs.all isNamePart = true := by
  unfold isName at hname
  cases hn : name.toList with
  | nil =>
    rw [hn] at hname
    cases hname
  | cons c cs =>
    rw [hn] at hname
    simp only [Bool.and_eq_true] at hname
    exact ⟨c, cs, rfl, hname⟩

/-- A name consists of characters that may continue one. -/
theorem isNamePart_of_mem_name {name : String} (hname : isName name = true) :
    ∀ c ∈ name.toList, isNamePart c = true := by
  obtain ⟨c, cs, hn, hc, hcs⟩ := exists_cons_of_isName hname
  rw [hn]
  simpa [isNamePart_of_isNameStart hc] using hcs

/-- Names begin between `A` and `Z` or in the Greek block. -/
theorem toNat_of_isNameStart {c : Char} (h : isNameStart c = true) :
    (65 ≤ c.toNat ∧ c.toNat ≤ 90) ∨ (0x391 ≤ c.toNat ∧ c.toNat ≤ 0x3C9) := by
  simp only [isNameStart, Formula.isGreek, Bool.or_eq_true, Bool.and_eq_true,
    decide_eq_true_eq] at h
  rcases h with ⟨hA, hZ⟩ | h
  · exact .inl ⟨hA, hZ⟩
  · exact .inr (by omega)

/-- No white space begins a name. -/
theorem isBlank_of_isNameStart {c : Char} (h : isNameStart c = true) : Text.isBlank c = false := by
  have hrange := toNat_of_isNameStart h
  rw [← Bool.not_eq_true, Text.isBlank, Text.CharSet.contains_eq_true_iff]
  rintro ⟨r, hr, hlo, hhi⟩
  have hblanks : ∀ r ∈ Text.blanks, r.2 < 65 ∨ (90 < r.1 ∧ r.2 < 0x391) ∨ 0x3C9 < r.1 := by
    decide
  have := hblanks r hr
  omega

/-- No white space is a digit of any kind. -/
theorem isBlank_of_isDigit {c : Char} (h : Text.isDigit c = true) : Text.isBlank c = false := by
  rw [← Bool.not_eq_true, Text.isBlank, Text.CharSet.contains_eq_true_iff]
  rintro ⟨r, hr, hlo, hhi⟩
  rw [Text.isDigit, Bool.or_eq_true, Text.CharSet.contains_eq_true_iff] at h
  rcases h with h | ⟨q, hq, hqlo, hqhi⟩
  · rw [Text.isDecimal, Text.decimalValue?, Option.isSome_map, List.find?_isSome] at h
    obtain ⟨z, hz, hzc⟩ := h
    simp only [Bool.and_eq_true, decide_eq_true_eq] at hzc
    have hzeros : ∀ z ∈ Text.zeros, ∀ r ∈ Text.blanks, r.2 < z ∨ z + 10 ≤ r.1 := by decide
    have := hzeros z hz r hr
    omega
  · have hothers : ∀ q ∈ Text.otherDigits, ∀ r ∈ Text.blanks, r.2 < q.1 ∨ q.2 < r.1 := by decide
    have := hothers q hq r hr
    omega

/-- No white space stands inside a name. -/
theorem isBlank_of_isNamePart {c : Char} (h : isNamePart c = true) : Text.isBlank c = false := by
  rw [isNamePart, Bool.or_eq_true, Bool.or_eq_true, beq_iff_eq] at h
  rcases h with (h | h) | rfl
  · exact isBlank_of_isNameStart h
  · exact isBlank_of_isDigit h
  · decide

/-! ## One token in front -/

variable {o : Nat} {cs : List Char} {ts : List Token}

theorem scanFrom_blank {c : Char} (hc : Text.isBlank c = true) :
    scanFrom o (c :: cs) = scanFrom (o + 1) cs := by
  rw [scanFrom, if_pos hc]

theorem scanFrom_name {name : String} (hname : isName name = true) (hcs : EndsName cs) :
    scanFrom o (name.toList ++ cs) =
      (scanFrom (o + name.length) cs).map (⟨.var, name, o⟩ :: ·) := by
  obtain ⟨c, ds, hn, hc, hds⟩ := exists_cons_of_isName hname
  have hname' : String.ofList (c :: ds) = name := by rw [← hn, String.ofList_toList]
  have hlen : name.length = (c :: ds).length := by rw [← hn, String.length_toList]
  rw [hn, List.cons_append, scanFrom, if_neg (by simp [isBlank_of_isNameStart hc]), if_pos hc]
  simp only [takeWhile_append_of_endsName hds hcs, dropWhile_append_of_endsName hds hcs, hname',
    hlen]

theorem scanFrom_sign {s : String} {kind : Kind} (hs : (s, kind) ∈ spellings) :
    scanFrom o (s.toList ++ cs) = (scanFrom (o + s.length) cs).map (⟨kind, s, o⟩ :: ·) := by
  have hfind := spelling?_append hs cs
  obtain ⟨c, ds, hcs, hblank, hname⟩ := exists_cons_of_mem_spellings hs
  simp only at hfind hcs
  have hstart : ¬isNameStart c = true := by
    intro h
    rw [isNamePart_of_isNameStart h] at hname
    cases hname
  have hlen : s.length - 1 = ds.length := by
    rw [← String.length_toList, hcs, List.length_cons, Nat.add_sub_cancel]
  rw [hcs, List.cons_append] at hfind ⊢
  rw [scanFrom, if_neg (by simp [hblank]), if_neg hstart, hfind]
  simp only [hlen, List.drop_left]

/-! ## Whole texts -/

/-- A mapped result comes from a result. -/
theorem exists_of_map_eq_ok {α β ε : Type} {f : α → β} {x : Except ε α} {b : β}
    (h : x.map f = .ok b) : ∃ a, x = .ok a ∧ f a = b := by
  cases x with
  | error e => cases h
  | ok a =>
    cases h
    exact ⟨a, rfl, rfl⟩

theorem error_of_map_eq_error {α β ε : Type} {f : α → β} {x : Except ε α} {e : ε}
    (h : x.map f = .error e) : x = .error e := by
  cases x with
  | error e' =>
    cases h
    rfl
  | ok a => cases h

theorem eq_ok_of_toOption {α ε : Type} {x : Except ε α} {a : α} (h : x.toOption = some a) :
    x = .ok a := by
  cases x with
  | error e => cases h
  | ok b =>
    cases h
    rfl

theorem isName_takeWhile {c : Char} (hc : isNameStart c = true) (cs : List Char) :
    isName (String.ofList (c :: cs.takeWhile isNamePart)) = true := by
  simp [isName, hc, String.toList_ofList, List.all_takeWhile]

/-- What is found at the front of a text is a spelling in front of the rest. -/
theorem mem_spellings_of_spelling? {s : String} {kind : Kind}
    (h : spelling? cs = some (s, kind)) :
    (s, kind) ∈ spellings ∧ s.toList ++ cs.drop s.length = cs := by
  unfold spelling? at h
  have hpre : s.toList.isPrefixOf cs = true := by simpa using List.find?_some h
  refine ⟨List.mem_of_find?_eq_some h, ?_⟩
  obtain ⟨rest, rfl⟩ := List.isPrefixOf_iff_prefix.mp hpre
  rw [← String.length_toList, List.drop_left]

/-- The text behind what stands at an offset. -/
theorem drop_add_of_eq_append {i : Nat} {p rest : List Char} (h : cs.drop i = p ++ rest) :
    cs.drop (i + p.length) = rest := by
  rw [← List.drop_drop, h, List.drop_left]

/-- What the scanner finds is spelled. -/
theorem spells_of_scanFrom (h : scanFrom o cs = .ok ts) : Spells o cs ts := by
  fun_induction scanFrom o cs generalizing ts with
  | case1 o =>
    cases h
    exact .stop
  | case2 o c cs hc ih => exact .blank hc (ih h)
  | case3 o c cs hblank hc name =>
    rename_i ih
    obtain ⟨ts, hts, rfl⟩ := exists_of_map_eq_ok h
    have hrest := ih hts
    rw [← String.length_ofList] at hrest
    have h := Spells.name (isName_takeWhile hc cs) (endsName_dropWhile cs) hrest
    rw [String.toList_ofList, List.cons_append, List.takeWhile_append_dropWhile] at h
    exact h
  | case4 o c cs hblank hc s kind hs ih =>
    obtain ⟨ts, hts, rfl⟩ := exists_of_map_eq_ok h
    obtain ⟨hmem, hcs⟩ := mem_spellings_of_spelling? hs
    obtain ⟨d, ds, hds, -⟩ := exists_cons_of_mem_spellings hmem
    -- the first character of the spelling is `c`, which the scanner has taken off already
    have hdrop : cs.drop (s.length - 1) = (c :: cs).drop s.length := by
      rw [← String.length_toList, hds]
      rfl
    rw [hdrop] at ih
    rw [← hcs]
    exact .sign hmem (ih (by rwa [← hdrop]))
  | case5 => cases h

/-- Scanning finds exactly the row that is spelled. -/
theorem scanFrom_eq_ok_iff : scanFrom o cs = .ok ts ↔ Spells o cs ts := by
  refine ⟨spells_of_scanFrom, fun h => ?_⟩
  induction h with
  | stop => rw [scanFrom]
  | blank hc _ ih => rw [scanFrom_blank hc, ih]
  | name hname hcs _ ih =>
    rw [scanFrom_name hname hcs, ih]
    rfl
  | sign hs _ ih =>
    rw [scanFrom_sign hs, ih]
    rfl

/-- A text that spells nothing is refused for a character in it. -/
theorem exists_misfit_of_scanFrom {e : SyntaxError} (h : scanFrom o cs = .error e) :
    ∃ c ds n, e = misfit c ds n := by
  fun_induction scanFrom o cs with
  | case1 => cases h
  | case2 o c cs hc ih => exact ih h
  | case3 o c cs hblank hc name =>
    rename_i ih
    exact ih (error_of_map_eq_error h)
  | case4 o c cs hblank hc s kind hs ih => exact ih (error_of_map_eq_error h)
  | case5 o c cs =>
    cases h
    exact ⟨c, cs, o, rfl⟩

/-- A row ends with its only end mark, at the length of the text. -/
theorem Spells.exists_eq_append (h : Spells o cs ts) :
    ∃ us, ts = us ++ [⟨.stop, "", o + cs.length⟩] ∧ ∀ t ∈ us, t.kind ≠ .stop := by
  induction h with
  | stop => exact ⟨[], rfl, by simp⟩
  | blank _ _ ih =>
    obtain ⟨us, rfl, hus⟩ := ih
    refine ⟨us, ?_, hus⟩
    rw [List.length_cons, Nat.add_assoc, Nat.add_comm 1]
  | @name o name _ _ _ _ _ ih =>
    obtain ⟨us, rfl, hus⟩ := ih
    refine ⟨⟨.var, name, o⟩ :: us, ?_, ?_⟩
    · rw [List.length_append, String.length_toList, ← Nat.add_assoc, List.cons_append]
    · simpa using hus
  | @sign o s kind _ _ hs _ ih =>
    obtain ⟨us, rfl, hus⟩ := ih
    refine ⟨⟨kind, s, o⟩ :: us, ?_, ?_⟩
    · rw [List.length_append, String.length_toList, ← Nat.add_assoc, List.cons_append]
    · simpa [(kind_of_mem_spellings hs).2] using hus

end Propositional.Token
