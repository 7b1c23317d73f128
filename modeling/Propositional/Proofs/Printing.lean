import Propositional.Formula.Printer
import Propositional.Formula.Room
import Propositional.Proofs.Parsing
import Propositional.Settings

/-!
# Reading back what is printed

The printer puts parentheses around an operand exactly if the operand binds looser than the level
at which the grammar reads it. So the printed text is a phrase of the level of its outermost
connective, whichever spelling of the connectives is used. A level of the tree takes at most seven
places while its text is read: six for a parenthesis and one for a negation or an implication. The
default limit on the height of trees leaves room for that.

## Main definitions

* `WritesPhrase`: characters write a phrase of the grammar, whatever follows them
* `Formula.Respells`: a change of spelling that keeps names, connectives and parentheses

## Main results

* `Formula.exists_writesPhrase_chars`: a printed formula is a phrase of its own level, in the room
  that its height allows
* `Formula.parse_text`: what is printed is read back, in either spelling
-/

namespace Propositional

theorem Formula.one_le_rank (f : Formula) : 1 ≤ f.rank := by
  cases f with
  | var name => exact Nat.le_add_left 1 5
  | neg f => exact Nat.le_add_left 1 4
  | bin op => exact op.one_le_rank

/-! ## Phrases in writing -/

/-- Characters write a phrase of a level with a tree, which takes some room: in front of every text
that does not prolong a name, they spell tokens that are derived from the level. -/
def WritesPhrase (cs : List Char) (l : Nat) (f : Formula) (n : Nat) : Prop :=
  ∀ (o : Nat) (rest : List Char) (ts : List Token), Token.EndsName rest →
    Token.Spells (o + cs.length) rest ts →
    ∃ us, Token.Spells o (cs ++ rest) (us ++ ts) ∧ Takes l us f n

namespace WritesPhrase

variable {k l m n : Nat} {cs ds : List Char} {s : String} {f g : Formula}

theorem var {name : String} (hname : Token.isName name = true) :
    WritesPhrase name.toList 6 (.var name) 0 := by
  intro o rest ts hrest hts
  rw [String.length_toList] at hts
  exact ⟨[⟨.var, name, o⟩], .name hname hrest hts, .var rfl⟩

theorem mono (h : WritesPhrase cs l f n) (hk : 1 ≤ k) (hkl : k ≤ l) : WritesPhrase cs k f n := by
  intro o rest ts hrest hts
  obtain ⟨us, hus, hf⟩ := h o rest ts hrest hts
  exact ⟨us, hus, hf.mono hk hkl⟩

/-- A sign in front of a phrase. -/
theorem exists_spells_sign {kind : Token.Kind} (hs : (s, kind) ∈ Token.spellings)
    (h : WritesPhrase cs l f n) {o : Nat} {rest : List Char} {ts : List Token}
    (hrest : Token.EndsName rest) (hts : Token.Spells (o + (s.toList ++ cs).length) rest ts) :
    ∃ us, Token.Spells o (s.toList ++ cs ++ rest) (⟨kind, s, o⟩ :: (us ++ ts)) ∧
      Takes l us f n := by
  rw [List.length_append, String.length_toList, ← Nat.add_assoc] at hts
  obtain ⟨us, hus, hf⟩ := h (o + s.length) rest ts hrest hts
  rw [List.append_assoc]
  exact ⟨us, .sign hs hus, hf⟩

theorem neg (hs : (s, .not) ∈ Token.spellings) (h : WritesPhrase cs 5 f n) :
    WritesPhrase (s.toList ++ cs) 5 (.neg f) (Reader.Frame.neg.weight + n) := by
  intro o rest ts hrest hts
  obtain ⟨us, hus, hf⟩ := h.exists_spells_sign hs hrest hts
  exact ⟨⟨.not, s, o⟩ :: us, hus, .neg rfl hf⟩

theorem bin {op : Connective} (h : WritesPhrase cs op.leftLevel f m)
    (hs : (s, .op op) ∈ Token.spellings) (h' : WritesPhrase ds op.rightLevel g n) :
    WritesPhrase (cs ++ (s.toList ++ ds)) op.rank (.bin op f g)
      (max m ((Reader.Frame.left op f).weight + n)) := by
  intro o rest ts hrest hts
  -- from right to left, since an operand has to know what follows it
  rw [List.length_append, ← Nat.add_assoc] at hts
  obtain ⟨us, hus, hg⟩ := h'.exists_spells_sign hs hrest hts
  have hends : Token.EndsName (s.toList ++ ds ++ rest) := by
    rw [List.append_assoc]
    exact Token.endsName_spelling hs (ds ++ rest)
  obtain ⟨vs, hvs, hf⟩ := h o _ _ hends hus
  refine ⟨vs ++ ⟨.op op, s, o + cs.length⟩ :: us, ?_, .bin hf rfl hg⟩
  simpa using hvs

theorem paren (h : WritesPhrase cs 1 f n) :
    WritesPhrase ('(' :: cs ++ [')']) 6 f (Reader.Frame.paren.weight + n) := by
  intro o rest ts hrest hts
  have hopen : ("(", .lparen) ∈ Token.spellings := by decide
  have hclose : (")", .rparen) ∈ Token.spellings := by decide
  have hts' : Token.Spells (o + ("(".toList ++ cs).length) (")".toList ++ rest)
      (⟨.rparen, ")", o + ("(".toList ++ cs).length⟩ :: ts) := by
    have hlen : ")".length = 1 := by decide
    refine .sign hclose ?_
    simpa [hlen, Nat.add_assoc] using hts
  obtain ⟨us, hus, hf⟩ := h.exists_spells_sign hopen (Token.endsName_spelling hclose rest) hts'
  refine ⟨⟨.lparen, "(", o⟩ :: (us ++ [⟨.rparen, ")", o + ("(".toList ++ cs).length⟩]), ?_,
    .paren rfl hf rfl⟩
  simpa using hus

/-- An operand with parentheses around it where it needs them stands at the level at which it is
read. -/
theorem enclose (h : WritesPhrase cs f.rank f n) (hk : 1 ≤ k) (hk' : k ≤ 6) :
    ∃ m, m ≤ Reader.Frame.paren.weight + n ∧
      WritesPhrase (Formula.enclose (decide (f.rank < k)) cs) k f m := by
  by_cases hlt : f.rank < k
  · refine ⟨_, Nat.le_refl _, ?_⟩
    have hparen := (h.mono (Nat.le_refl 1) f.one_le_rank).paren
    simpa [Formula.enclose, hlt] using hparen.mono hk hk'
  · refine ⟨n, Nat.le_add_left .., ?_⟩
    simpa [Formula.enclose, hlt] using h.mono hk (Nat.not_lt.mp hlt)

end WritesPhrase

namespace Formula

variable {spell : Char → List Char} {f : Formula} {maxDepth : Int}

/-! ## Levels of printed operands -/

theorem enclosesLeft_eq (op : Connective) (f : Formula) :
    enclosesLeft op f = decide (f.rank < op.leftLevel) := by
  unfold enclosesLeft Connective.leftLevel
  cases op.isRightAssociative with
  | true => exact decide_eq_decide.mpr Nat.lt_succ_iff.symm
  | false => rfl

theorem enclosesRight_eq (op : Connective) (f : Formula) :
    enclosesRight op f = decide (f.rank < op.rightLevel) := by
  unfold enclosesRight Connective.rightLevel
  cases op.isRightAssociative with
  | true => rfl
  | false => exact decide_eq_decide.mpr Nat.lt_succ_iff.symm

/-! ## Spellings -/

/-- A change of spelling, character by character, that keeps names and parentheses and leaves a
spelling of every connective. -/
structure Respells (spell : Char → List Char) : Prop where
  name : ∀ c, Token.isNamePart c = true → spell c = [c]
  lparen : spell '(' = ['(']
  rparen : spell ')' = [')']
  neg : (String.ofList (spell '¬'), .not) ∈ Token.spellings
  op : ∀ op : Connective, (String.ofList (op.glyph.flatMap spell), .op op) ∈ Token.spellings

theorem respells_singleton : Respells fun c => [c] where
  name _ _ := rfl
  lparen := rfl
  rparen := rfl
  neg := by decide
  op op := by cases op <;> decide

theorem respells_asciiChar : Respells asciiChar where
  name c hc := by
    unfold asciiChar
    split
    case h_6 => rfl
    all_goals exact absurd hc (by decide)
  lparen := rfl
  rparen := rfl
  neg := by decide
  op op := by cases op <;> decide

theorem Respells.flatMap_name (h : Respells spell) {cs : List Char}
    (hcs : ∀ c ∈ cs, Token.isNamePart c = true) : cs.flatMap spell = cs := by
  induction cs with
  | nil => rfl
  | cons c cs ih =>
    rw [List.flatMap_cons, h.name c (hcs c List.mem_cons_self),
      ih fun d hd => hcs d (List.mem_cons_of_mem c hd), List.singleton_append]

theorem Respells.flatMap_enclose (h : Respells spell) (needed : Bool) (cs : List Char) :
    (enclose needed cs).flatMap spell = enclose needed (cs.flatMap spell) := by
  cases needed with
  | false => rfl
  | true => simp [enclose, h.lparen, h.rparen]

/-- A printed formula is a phrase of its own level, in the room that its height allows. -/
theorem exists_writesPhrase_chars (hspell : Respells spell) (f : Formula)
    (hnames : ∀ x ∈ f.leaves, Token.isName x = true) :
    ∃ n, n + 7 ≤ 7 * f.height ∧ WritesPhrase (f.chars.flatMap spell) f.rank f n := by
  -- the invariant spares seven places: what a level of the tree adds is a parenthesis around an
  -- operand and one place for the sign in front of it
  induction f with
  | var name =>
    have hname := hnames name (by simp [leaves])
    refine ⟨0, by simp [height], ?_⟩
    rw [chars, hspell.flatMap_name (Token.isNamePart_of_mem_name hname)]
    exact .var hname
  | neg f ih =>
    obtain ⟨n, hn, hf⟩ := ih hnames
    obtain ⟨m, hm, hf'⟩ := hf.enclose (by decide) (by decide : 5 ≤ 6)
    have hneg := hf'.neg hspell.neg
    refine ⟨Reader.Frame.neg.weight + m, ?_, ?_⟩
    · simp only [height, Reader.Frame.weight] at hm ⊢
      omega
    · rw [chars, List.flatMap_cons, hspell.flatMap_enclose]
      rwa [String.toList_ofList] at hneg
  | bin op l r ihl ihr =>
    obtain ⟨m, hm, hl⟩ := ihl fun x hx => hnames x (List.mem_append_left _ hx)
    obtain ⟨n, hn, hr⟩ := ihr fun x hx => hnames x (List.mem_append_right _ hx)
    obtain ⟨m', hm', hl'⟩ := hl.enclose
      (Nat.le_trans op.one_le_rank op.rank_le_leftLevel) (Nat.le_succ_of_le op.leftLevel_le_five)
    obtain ⟨n', hn', hr'⟩ := hr.enclose
      (Nat.le_trans op.one_le_rank op.rank_le_rightLevel) (Nat.le_succ_of_le op.rightLevel_le_five)
    have hbin := hl'.bin (hspell.op op) hr'
    refine ⟨max m' ((Reader.Frame.left op l).weight + n'), ?_, ?_⟩
    · have hw : (Reader.Frame.left op l).weight ≤ 1 := by
        rw [Reader.Frame.weight]
        split <;> decide
      simp only [height, Reader.Frame.weight] at hm' hn' hw ⊢
      omega
    · rw [chars, enclosesLeft_eq, enclosesRight_eq, List.append_assoc, List.flatMap_append,
        List.flatMap_append, hspell.flatMap_enclose, hspell.flatMap_enclose]
      rwa [String.toList_ofList] at hbin

/-! ## Reading back -/

/-- A whole text that writes a phrase spells tokens that the grammar derives. -/
theorem takes_of_writesPhrase {cs : List Char} {l n : Nat} (h : WritesPhrase cs l f n)
    (hl : 1 ≤ l) :
    ∃ us t, Token.scan (String.ofList cs) = .ok (us ++ [t]) ∧ t.kind = .stop ∧ Takes 1 us f n := by
  obtain ⟨us, hus, hf⟩ := h.mono (Nat.le_refl 1) hl 0 [] _ Token.endsName_nil .stop
  rw [List.append_nil] at hus
  refine ⟨us, ⟨.stop, "", 0 + cs.length⟩, ?_, rfl, hf⟩
  rw [Token.scan, String.toList_ofList]
  exact Token.scanFrom_eq_ok_iff.mpr hus

/-- A whole text that writes a phrase is parsed if there is room. -/
theorem parse_of_writesPhrase {cs : List Char} {l n : Nat} (h : WritesPhrase cs l f n)
    (hl : 1 ≤ l) (hn : n ≤ Reader.capacity) (hheight : (f.height : Int) ≤ maxDepth) :
    parse maxDepth (String.ofList cs) = .ok f := by
  obtain ⟨us, t, hscan, ht, hf⟩ := takes_of_writesPhrase h hl
  exact parse_of_takes hscan ht hf hn hheight

/-- A printed formula is read back under every spelling of its connectives. -/
theorem parse_respelled (hspell : Respells spell) (hmax : maxDepth ≤ ({} : Settings).maxDepth)
    (hnames : ∀ x ∈ f.leaves, Token.isName x = true) (hheight : (f.height : Int) ≤ maxDepth) :
    parse maxDepth (String.ofList (f.chars.flatMap spell)) = .ok f := by
  obtain ⟨n, hn, hf⟩ := exists_writesPhrase_chars hspell f hnames
  refine parse_of_writesPhrase hf f.one_le_rank ?_ hheight
  have hdefault : (f.height : Int) ≤ 100 := Int.le_trans hheight hmax
  rw [Reader.capacity]
  omega

/-- A printed formula with well-formed names is read back if it finds room, unless it is higher
than the limit. -/
theorem parse_text_eq (maxDepth : Int) (hnames : ∀ x ∈ f.leaves, Token.isName x = true)
    (hroom : 7 * f.height ≤ Reader.capacity) :
    parse maxDepth f.text = if maxDepth < f.depth then .error .tooDeep else .ok f := by
  obtain ⟨n, hn, hf⟩ := exists_writesPhrase_chars respells_singleton f hnames
  rw [List.flatMap_singleton'] at hf
  have hparse : parse f.height f.text = .ok f :=
    parse_of_writesPhrase hf f.one_le_rank (by omega) (Int.le_refl _)
  obtain ⟨ts, hscan, hread, -⟩ := parse_eq_ok_iff.mp hparse
  simp only [parse, hscan, ofTokens, hread]

/-- What is printed finds room and is read back, in either spelling. -/
theorem parse_text (maxDepth : Int) (f : Formula) (hmax : maxDepth ≤ ({} : Settings).maxDepth)
    (hnames : ∀ x ∈ f.leaves, Token.isName x = true) (hdepth : (f.depth : Int) ≤ maxDepth) :
    f.fitsText = true ∧ parse maxDepth f.text = .ok f ∧ parse maxDepth (ascii f.text) = .ok f := by
  have hheight : (f.height : Int) ≤ maxDepth := by rwa [← depth_eq_height]
  refine ⟨?_, ?_, ?_⟩
  · have hdefault : (f.depth : Int) ≤ 100 := Int.le_trans hdepth hmax
    rw [fitsText, decide_eq_true_eq, Reader.capacity]
    omega
  · have h := parse_respelled respells_singleton hmax hnames hheight
    rwa [List.flatMap_singleton'] at h
  · rw [ascii, text, String.toList_ofList]
    exact parse_respelled respells_asciiChar hmax hnames hheight

theorem parse_text_sample :
    (∀ x ∈ sample.leaves, Token.isName x = true) ∧ (sample.depth : Int) ≤ 100 ∧
    sample.fitsText = true ∧ parse 100 sample.text = .ok sample ∧
    parse 100 (ascii sample.text) = .ok sample := by
  have hnames : ∀ x ∈ sample.leaves, Token.isName x = true := by decide
  have hdepth : (sample.depth : Int) ≤ 100 := by
    rw [depth_eq_height]
    decide
  exact ⟨hnames, hdepth, parse_text 100 sample (by decide) hnames hdepth⟩

end Formula

end Propositional
