import Propositional.Proofs.Heights
import Propositional.Proofs.Reading
import Propositional.Proofs.Scanning

/-!
# Texts of formulas

A text is parsed to a formula if it spells a row of tokens that the grammar derives with that
formula as its tree, if the tree is no higher than the limit, and if what is pending at once while
the row is read finds room. Lack of room is the only other reason to refuse a text that the grammar
derives, and no text lacks room whose parentheses, negations and connectives would find room all at
once.

## Main results

* `Formula.derives_of_parse`: a text is parsed only to a tree that the grammar derives
* `Formula.parse_of_takes`: a text that the grammar derives is parsed if there is room
* `Formula.parse_eq_ok_iff_derives`: parsing follows the grammar wherever room suffices
-/

namespace Propositional.Formula

variable {maxDepth : Int} {text : String} {f g : Formula} {ts : List Token}

/-! ## Stages of parsing -/

theorem ofTokens_eq_ok_iff :
    ofTokens maxDepth ts = .ok f ↔ Reader.readAll ts = .ok f ∧ (f.height : Int) ≤ maxDepth := by
  unfold ofTokens
  rw [← depth_eq_height]
  cases Reader.readAll ts with
  | error e => simp
  | ok g =>
    by_cases hg : maxDepth < g.depth
    · simp only [if_pos hg, reduceCtorEq, Except.ok.injEq, false_iff, not_and, Int.not_le]
      rintro rfl
      exact hg
    · simp only [if_neg hg, Except.ok.injEq, iff_self_and]
      rintro rfl
      exact Int.not_lt.mp hg

theorem parse_eq_ok_iff :
    parse maxDepth text = .ok f ↔
      ∃ ts, Token.scan text = .ok ts ∧ Reader.readAll ts = .ok f ∧ (f.height : Int) ≤ maxDepth := by
  unfold parse
  cases Token.scan text with
  | error e => simp
  | ok ts => simp [ofTokens_eq_ok_iff]

/-- A row that is scanned ends with its only end mark. -/
theorem exists_unmarked_of_scan (h : Token.scan text = .ok ts) :
    ∃ us, ts = us ++ [⟨.stop, "", text.length⟩] ∧ Reader.Unmarked us := by
  obtain ⟨us, hts, hus⟩ := (Token.spells_of_scanFrom h).exists_eq_append
  rw [Nat.zero_add, String.length_toList] at hts
  exact ⟨us, hts, hus⟩

/-- A text is parsed only to a tree that the grammar derives. -/
theorem derives_of_parse (h : parse maxDepth text = .ok f) :
    ∃ ts, Token.scan text = .ok (ts ++ [⟨.stop, "", text.length⟩]) ∧ Derives 1 ts f ∧
      (f.height : Int) ≤ maxDepth := by
  obtain ⟨ts, hscan, hread, hheight⟩ := parse_eq_ok_iff.mp h
  obtain ⟨us, rfl, hus⟩ := exists_unmarked_of_scan hscan
  exact ⟨us, hscan, Reader.derives_of_readAll hus hread, hheight⟩

/-- A text that the grammar derives is parsed if there is room. -/
theorem parse_of_takes {n : Nat} {t : Token} (hscan : Token.scan text = .ok (ts ++ [t]))
    (ht : t.kind = .stop) (h : Takes 1 ts f n) (hn : n ≤ Reader.capacity)
    (hheight : (f.height : Int) ≤ maxDepth) : parse maxDepth text = .ok f := by
  exact parse_eq_ok_iff.mpr ⟨_, hscan, Reader.readAll_row h ht hn, hheight⟩

/-- A text that the grammar derives is refused if there is no room. -/
theorem lacksRoom_parse {n : Nat} {t : Token} (hscan : Token.scan text = .ok (ts ++ [t]))
    (ht : t.kind = .stop) (h : Takes 1 ts f n) (hn : Reader.capacity < n) :
    Reader.LacksRoom (parse maxDepth text) := by
  obtain ⟨o, ho⟩ := Reader.lacksRoom_readAll_row h ht hn
  exact ⟨o, by simp [parse, hscan, ofTokens, ho]⟩

/-- A text is refused for lack of room only if its tokens together would take more. -/
theorem lt_of_lacksRoom_parse (h : Reader.LacksRoom (parse maxDepth text)) :
    ∃ ts, Token.scan text = .ok ts ∧ Reader.capacity < Reader.tokensWeight ts := by
  obtain ⟨o, h⟩ := h
  unfold parse at h
  split at h
  · next e hscan =>
    -- the scanner names a character, never the room
    cases h
    obtain ⟨c, ds, n, hmisfit⟩ := Token.exists_misfit_of_scanFrom hscan
    unfold Token.misfit at hmisfit
    split at hmisfit <;> cases hmisfit
  · next ts hscan =>
    refine ⟨ts, hscan, ?_⟩
    unfold ofTokens at h
    split at h
    · next hread =>
      cases h
      simpa [Reader.demand, Reader.weight] using Reader.lt_of_readAll_tooNested hread
    · split at h <;> cases h

/-! ## Parsing and the grammar -/

/-- Where room suffices, a text is parsed to a formula exactly if it spells tokens that the grammar
derives with that formula as their tree and the tree is no higher than the limit. Room is lacking
only where the tokens together would take more than there is, and no tokens have two trees. -/
theorem parse_eq_ok_iff_derives (maxDepth : Int) (text : String) (f : Formula) :
    (¬ Reader.LacksRoom (parse maxDepth text) →
      (parse maxDepth text = .ok f ↔
        ∃ ts, Token.scan text = .ok (ts ++ [⟨.stop, "", text.length⟩]) ∧ Derives 1 ts f ∧
          (f.height : Int) ≤ maxDepth)) ∧
    (Reader.LacksRoom (parse maxDepth text) →
      ∃ ts, Token.scan text = .ok ts ∧ Reader.capacity < Reader.tokensWeight ts) ∧
    ∀ (ts : List Token) (g : Formula), Derives 1 ts f → Derives 1 ts g → f = g := by
  refine ⟨fun hroom => ⟨derives_of_parse, ?_⟩, lt_of_lacksRoom_parse, ?_⟩
  · rintro ⟨ts, hscan, hf, hheight⟩
    -- reading takes some room `n`, and with less the text would be refused for lack of it
    obtain ⟨n, hn⟩ := hf.exists_takes
    rcases Nat.lt_or_ge Reader.capacity n with hlt | hle
    · exact absurd (lacksRoom_parse hscan rfl hn hlt) hroom
    · exact parse_of_takes hscan rfl hn hle hheight
  · intro ts g hf hg
    exact hf.unique hg

/-- A text in which all levels of the grammar occur. -/
def sampleText : String := "A -> B v ~C ^ (D <-> A) ^ B -> C"

/-- The tree of `sampleText`: implications nest to the right, conjunctions to the left. -/
def sample : Formula :=
  .imp (.var "A") (.imp (.or (.var "B")
    (.and (.and (.neg (.var "C")) (.iff (.var "D") (.var "A"))) (.var "B"))) (.var "C"))

theorem parse_eq_ok_iff_derives_sample :
    ¬ Reader.LacksRoom (parse 100 sampleText) ∧
    ∃ ts, Token.scan sampleText = .ok (ts ++ [⟨.stop, "", sampleText.length⟩]) ∧
      Derives 1 ts sample ∧ (sample.height : Int) ≤ 100 := by
  have hsome : (parse 100 sampleText).toOption = some sample := by decide +kernel
  have hok : parse 100 sampleText = .ok sample := by
    cases hp : parse 100 sampleText with
    | error e =>
      rw [hp] at hsome
      cases hsome
    | ok g =>
      rw [hp] at hsome
      rw [Option.some.inj hsome]
  have hroom : ¬ Reader.LacksRoom (parse 100 sampleText) := by
    rintro ⟨o, ho⟩
    cases hok.symm.trans ho
  exact ⟨hroom, ((parse_eq_ok_iff_derives 100 sampleText sample).1 hroom).mp hok⟩

end Propositional.Formula
