import Mathlib.Data.List.Chain
import Propositional.Proofs.Parsing

/-!
# Spelling and white space

A row of names, connectives and parentheses is laid out as a text: each of them is written in one
of its spellings, with white space in front of it if need be, and white space may end the text. Only
names that follow each other have to be kept apart. However a row is laid out, the scanner finds it
again, each token where its word begins.

The grammar sees of a token its kind and, if it is a name, which name. So rows with the same content
have the same trees and take the same room, and the layouts of a row are parsed to one formula or
are all refused.

## Main definitions

* `Lexeme`: a name, a connective or a parenthesis before it is written
* `Word`: a lexeme as it stands in a text, with the white space in front of it
* `Layout`: a way to write a row of lexemes

## Main results

* `Layout.scan_text`: the scanner finds the words of a layout where they stand
* `Takes.of_content_eq`: the grammar sees no more of tokens than their content
* `Layout.read_alike`: layouts of a row are scanned to the row and parsed alike
-/

namespace Propositional

/-! ## Layouts -/

/-- A name, a connective or a parenthesis before it is written. -/
inductive Lexeme where
  | name (name : String) (wellFormed : Token.isName name = true := by decide)
  | not
  | op (c : Connective)
  | lparen
  | rparen

namespace Lexeme

/-- The kind of token that writes a lexeme. -/
def kind : Lexeme → Token.Kind
  | .name .. => .var
  | .not => .not
  | .op c => .op c
  | .lparen => .lparen
  | .rparen => .rparen

/-- The name that a lexeme is, if it is one. -/
def name? : Lexeme → Option String
  | .name s _ => some s
  | .not | .op _ | .lparen | .rparen => none

/-- The texts that write a lexeme: a name is written as it is, anything else in any of its
spellings. -/
def texts (l : Lexeme) : List String :=
  match l.name? with
  | some s => [s]
  | none => (Token.spellings.filter (·.2 = l.kind)).map (·.1)

variable {l : Lexeme} {s text : String}

/-- What writes a lexeme that is no name is one of the spellings of its kind. -/
theorem mem_spellings_of_mem_texts (h : text ∈ l.texts) (hl : l.name? = none) :
    (text, l.kind) ∈ Token.spellings := by
  unfold texts at h
  rw [hl] at h
  obtain ⟨p, hp, rfl⟩ := List.mem_map.mp h
  obtain ⟨hmem, hkind⟩ := List.mem_filter.mp hp
  rw [← of_decide_eq_true hkind]
  exact hmem

/-- What writes a name is the name. -/
theorem isName_of_mem_texts (h : text ∈ l.texts) (hl : l.name? = some s) :
    l.kind = .var ∧ text = s ∧ Token.isName text = true := by
  unfold texts at h
  rw [hl] at h
  obtain rfl := List.mem_singleton.mp h
  cases l with
  | name n hn =>
    cases hl
    exact ⟨rfl, rfl, hn⟩
  | not | op | lparen | rparen => cases hl

end Lexeme

/-- A lexeme as it stands in a text: what writes it, and the white space in front of that. -/
structure Word where
  lexeme : Lexeme
  gap : List Char
  text : String
  blank : gap.all Text.isBlank = true := by decide
  writes : text ∈ lexeme.texts := by decide

namespace Word

/-- The characters of a word, with the white space in front of it. -/
def chars (w : Word) : List Char :=
  w.gap ++ w.text.toList

/-- White space stands between two words if both of them are names. -/
def Apart (u w : Word) : Prop :=
  u.lexeme.name?.isSome → w.lexeme.name?.isSome → w.gap ≠ []

instance : DecidableRel Apart := fun u w =>
  inferInstanceAs (Decidable (u.lexeme.name?.isSome → w.lexeme.name?.isSome → w.gap ≠ []))

/-- The token of a word whose white space begins at an offset. -/
def token (o : Nat) (w : Word) : Token :=
  ⟨w.lexeme.kind, w.text, o + w.gap.length⟩

/-- The tokens of words that follow each other from an offset on. -/
def tokens (o : Nat) : List Word → List Token
  | [] => []
  | w :: ws => w.token o :: tokens (o + w.chars.length) ws

end Word

/-- A way to write a row of lexemes: a word for each of them, and the white space at the end. -/
structure Layout (row : List Lexeme) where
  words : List Word
  ending : List Char
  lexemes : words.map Word.lexeme = row
  apart : words.IsChain Word.Apart
  blank : ending.all Text.isBlank = true

/-- The text of a layout. -/
def Layout.text {row : List Lexeme} (L : Layout row) : String :=
  String.ofList (L.words.flatMap Word.chars ++ L.ending)

/-! ## What the scanner finds -/

namespace Token

variable {o : Nat} {cs gap : List Char} {ts : List Token}

/-- White space in front of a text only moves its tokens. -/
theorem Spells.of_gap (hgap : gap.all Text.isBlank = true) (h : Spells (o + gap.length) cs ts) :
    Spells o (gap ++ cs) ts := by
  induction gap generalizing o with
  | nil => exact h
  | cons c gap ih =>
    rw [List.all_cons, Bool.and_eq_true] at hgap
    rw [List.length_cons, Nat.add_comm gap.length, ← Nat.add_assoc] at h
    exact .blank hgap.1 (ih hgap.2 h)

/-- White space ends the name in front of it. -/
theorem endsName_gap (hgap : gap.all Text.isBlank = true) (h : gap = [] → EndsName cs) :
    EndsName (gap ++ cs) := by
  cases gap with
  | nil => exact h rfl
  | cons c gap =>
    rw [List.all_cons, Bool.and_eq_true] at hgap
    apply endsName_cons
    -- what could join the name would be no white space
    rw [← Bool.not_eq_true]
    intro hc
    rw [isBlank_of_isNamePart hc] at hgap
    cases hgap.1

end Token

namespace Word

variable {o : Nat} {ending : List Char} {us vs ws : List Word} {w : Word}

/-- Words end a name in front of them if the first of them is no name or has white space in front
of it. -/
theorem endsName_words (hws : ∀ w ∈ ws.head?, w.lexeme.name?.isSome → w.gap ≠ [])
    (hending : ending.all Text.isBlank = true) :
    Token.EndsName (ws.flatMap chars ++ ending) := by
  cases ws with
  | nil =>
    have h := Token.endsName_gap hending fun _ => Token.endsName_nil
    rwa [List.append_nil] at h
  | cons w ws =>
    rw [List.flatMap_cons, chars, List.append_assoc, List.append_assoc]
    apply Token.endsName_gap w.blank
    intro hgap
    cases hname : w.lexeme.name? with
    | none => exact Token.endsName_spelling (Lexeme.mem_spellings_of_mem_texts w.writes hname) _
    | some name => exact absurd hgap (hws w rfl (by rw [hname]; rfl))

/-- A word in front of a text that spells tokens adds its own. -/
theorem spells_cons {cs : List Char} {ts : List Token}
    (hcs : w.lexeme.name?.isSome → Token.EndsName cs)
    (h : Token.Spells (o + w.chars.length) cs ts) :
    Token.Spells o (w.chars ++ cs) (w.token o :: ts) := by
  rw [chars, List.append_assoc]
  apply Token.Spells.of_gap w.blank
  rw [chars, List.length_append, ← Nat.add_assoc, String.length_toList] at h
  unfold token
  cases hname : w.lexeme.name? with
  | none => exact .sign (Lexeme.mem_spellings_of_mem_texts w.writes hname) h
  | some name =>
    obtain ⟨hkind, -, htext⟩ := Lexeme.isName_of_mem_texts w.writes hname
    rw [hkind]
    exact .name htext (hcs (by rw [hname]; rfl)) h

/-- Words that are kept apart spell their tokens. -/
theorem spells_words (hws : ws.IsChain Apart) (hending : ending.all Text.isBlank = true) :
    Token.Spells o (ws.flatMap chars ++ ending)
      (tokens o ws ++ [⟨.stop, "", o + (ws.flatMap chars ++ ending).length⟩]) := by
  induction ws generalizing o with
  | nil =>
    have h := Token.Spells.of_gap hending (@Token.Spells.stop (o + ending.length))
    rwa [List.append_nil] at h
  | cons w ws ih =>
    obtain ⟨hnext, hws⟩ := List.isChain_cons.mp hws
    -- a name needs what follows to end it: that is where the words have to be apart
    have hends : w.lexeme.name?.isSome → Token.EndsName (ws.flatMap chars ++ ending) := by
      intro hw
      exact endsName_words (fun u hu => hnext u hu hw) hending
    have h := spells_cons hends (ih (o := o + w.chars.length) hws)
    rw [List.flatMap_cons, List.append_assoc, @List.length_append _ w.chars, ← Nat.add_assoc]
    exact h

/-- The token of a word stands where the words in front of it end. -/
theorem getElem?_tokens : (tokens o (us ++ w :: vs))[us.length]? =
    some (w.token (o + (us.flatMap chars).length)) := by
  induction us generalizing o with
  | nil => rfl
  | cons u us ih =>
    rw [List.cons_append, tokens, List.length_cons, List.getElem?_cons_succ, ih,
      List.flatMap_cons, List.length_append, Nat.add_assoc]

end Word

/-! ## What the grammar sees -/

/-- What the grammar sees of a token: its kind and, if it is a name, which name. -/
def Token.content (t : Token) : Token.Kind × Option String :=
  (t.kind, if t.kind = .var then some t.text else none)

/-- What the grammar will see of a lexeme. -/
def Lexeme.content (l : Lexeme) : Token.Kind × Option String :=
  (l.kind, l.name?)

theorem Word.content_token {o : Nat} (w : Word) : (w.token o).content = w.lexeme.content := by
  unfold Token.content Lexeme.content token
  cases hname : w.lexeme.name? with
  | some name =>
    obtain ⟨hkind, htext, -⟩ := Lexeme.isName_of_mem_texts w.writes hname
    simp only [hkind, if_true, htext]
  | none =>
    have hkind := (Token.kind_of_mem_spellings (Lexeme.mem_spellings_of_mem_texts w.writes hname)).1
    simp only [if_neg hkind]

theorem Word.map_content_tokens {o : Nat} {ws : List Word} :
    (tokens o ws).map Token.content = (ws.map lexeme).map Lexeme.content := by
  induction ws generalizing o with
  | nil => rfl
  | cons w ws ih => rw [tokens, List.map_cons, w.content_token, ih, List.map_cons, List.map_cons]

theorem Token.kind_eq_of_content_eq {t u : Token} (h : u.content = t.content) :
    u.kind = t.kind :=
  congrArg Prod.fst h

theorem Token.text_eq_of_content_eq {t u : Token} (h : u.content = t.content)
    (ht : t.kind = .var) : u.text = t.text := by
  have hu : u.kind = .var := (kind_eq_of_content_eq h).trans ht
  have htext := congrArg Prod.snd h
  simpa only [content, hu, ht, if_true, Option.some.injEq] using htext

/-- The grammar sees no more of tokens than their content. -/
theorem Takes.of_content_eq {l n : Nat} {ts us : List Token} {f : Formula} (h : Takes l ts f n)
    (hus : us.map Token.content = ts.map Token.content) : Takes l us f n := by
  -- by induction on the derivation: the tokens `us` fall into parts as `ts` do
  induction h generalizing us with
  | @var t ht =>
    obtain ⟨u, rfl, hu⟩ := List.map_eq_singleton_iff.mp hus
    rw [← Token.text_eq_of_content_eq hu ht]
    exact .var ((Token.kind_eq_of_content_eq hu).trans ht)
  | @paren o c ts f n ho _ hc ih =>
    rw [List.map_cons, List.map_append] at hus
    obtain ⟨o', rest, rfl, ho', hrest⟩ := List.map_eq_cons_iff.mp hus
    obtain ⟨vs, cs, rfl, hvs, hcs⟩ := List.map_eq_append_iff.mp hrest
    obtain ⟨c', rfl, hc'⟩ := List.map_eq_singleton_iff.mp hcs
    exact .paren ((Token.kind_eq_of_content_eq ho').trans ho) (ih hvs)
      ((Token.kind_eq_of_content_eq hc').trans hc)
  | atom _ ih => exact .atom (ih hus)
  | @neg t ts f n ht _ ih =>
    obtain ⟨t', vs, rfl, ht', hvs⟩ := List.map_eq_cons_iff.mp hus
    exact .neg ((Token.kind_eq_of_content_eq ht').trans ht) (ih hvs)
  | operand _ ih => exact .operand (ih hus)
  | @bin op t ts ts' f g m n _ ht _ ih ih' =>
    rw [List.map_append] at hus
    obtain ⟨vs, rest, rfl, hvs, hrest⟩ := List.map_eq_append_iff.mp hus
    obtain ⟨t', vs', rfl, ht', hvs'⟩ := List.map_eq_cons_iff.mp hrest
    exact .bin (ih hvs) ((Token.kind_eq_of_content_eq ht').trans ht) (ih' hvs')

/-- Rows with the same content are read to the same formula, if to any. -/
theorem Reader.readAll_of_content_eq {ts us : List Token} {t u : Token} {f : Formula}
    (hts : Unmarked ts) (ht : t.kind = .stop) (hu : u.kind = .stop)
    (hus : us.map Token.content = ts.map Token.content) (h : readAll (ts ++ [t]) = .ok f) :
    readAll (us ++ [u]) = .ok f := by
  obtain ⟨n, hn⟩ := (derives_of_readAll hts h).exists_takes
  rcases Nat.lt_or_ge capacity n with hlt | hle
  · obtain ⟨o, ho⟩ := lacksRoom_readAll_row hn ht hlt
    cases ho.symm.trans h
  · exact readAll_row (hn.of_content_eq hus) hu hle

/-! ## Layouts of a row -/

namespace Layout

variable {row : List Lexeme} {maxDepth : Int} {f : Formula}

/-- The scanner finds the words of a layout where they stand. -/
theorem scan_text (L : Layout row) :
    Token.scan L.text = .ok (Word.tokens 0 L.words ++ [⟨.stop, "", L.text.length⟩]) := by
  have h := Word.spells_words (o := 0) L.apart L.blank
  rw [Nat.zero_add] at h
  rw [text, Token.scan, String.toList_ofList, String.length_ofList]
  exact Token.scanFrom_eq_ok_iff.mpr h

theorem map_content_tokens (L : Layout row) :
    (Word.tokens 0 L.words).map Token.content = row.map Lexeme.content := by
  rw [Word.map_content_tokens, L.lexemes]

/-- A formula that one layout of a row writes is written by all of them. -/
theorem parse_of_parse (L L' : Layout row) (h : Formula.parse maxDepth L.text = .ok f) :
    Formula.parse maxDepth L'.text = .ok f := by
  obtain ⟨ts, hscan, hread, hheight⟩ := Formula.parse_eq_ok_iff.mp h
  rw [L.scan_text] at hscan
  cases hscan
  obtain ⟨us, hus, hunmarked⟩ := Formula.exists_unmarked_of_scan L.scan_text
  obtain rfl := List.append_cancel_right hus
  have hcontent := L'.map_content_tokens.trans L.map_content_tokens.symm
  exact Formula.parse_eq_ok_iff.mpr ⟨_, L'.scan_text,
    Reader.readAll_of_content_eq hunmarked rfl rfl hcontent hread, hheight⟩

/-- Spelling and white space do not matter. However a row of lexemes is laid out, the scanner
finds their kinds and names in order, each token with its text at the offset where its word begins,
and the end mark at the length of the text. Two layouts of a row are parsed to the same formula or
are both refused. -/
theorem read_alike (row : List Lexeme) (L L' : Layout row) (maxDepth : Int) :
    (∃ ts, Token.scan L.text = .ok (ts ++ [⟨.stop, "", L.text.length⟩]) ∧
      ts.map Token.content = row.map Lexeme.content ∧
      ∀ us w vs, L.words = us ++ w :: vs →
        ts[us.length]? =
          some ⟨w.lexeme.kind, w.text, (us.flatMap Word.chars).length + w.gap.length⟩) ∧
    ((∃ f, Formula.parse maxDepth L.text = .ok f ∧ Formula.parse maxDepth L'.text = .ok f) ∨
      ∃ e e', Formula.parse maxDepth L.text = .error e ∧
        Formula.parse maxDepth L'.text = .error e') := by
  refine ⟨⟨_, L.scan_text, L.map_content_tokens, ?_⟩, ?_⟩
  · intro us w vs hwords
    rw [hwords, Word.getElem?_tokens, Nat.zero_add]
    rfl
  · cases h : Formula.parse maxDepth L.text with
    | ok f => exact .inl ⟨f, rfl, L.parse_of_parse L' h⟩
    | error e =>
      refine .inr ⟨e, ?_⟩
      cases h' : Formula.parse maxDepth L'.text with
      | error e' => exact ⟨e', rfl, rfl⟩
      | ok f =>
        rw [L'.parse_of_parse L h'] at h
        cases h

/-- A row in which names, connectives and a negation meet. -/
def sampleRow : List Lexeme :=
  [.name "A", .op .or, .name "B1", .op .iff, .not, .name "C"]

/-- The row without white space. -/
def glued : Layout sampleRow where
  words :=
    [.mk (.name "A") [] "A", .mk (.op .or) [] "v", .mk (.name "B1") [] "B1",
     .mk (.op .iff) [] "<=>", .mk .not [] "~", .mk (.name "C") [] "C"]
  ending := []
  lexemes := rfl
  apart := by decide
  blank := rfl

/-- The row with other spellings and white space of several kinds. -/
def spaced : Layout sampleRow where
  words :=
    [.mk (.name "A") [' '] "A", .mk (.op .or) ['\t', ' '] "||", .mk (.name "B1") [] "B1",
     .mk (.op .iff) ['\n'] "↔", .mk .not [] "¬", .mk (.name "C") [' ', ' '] "C"]
  ending := ['\n']
  lexemes := rfl
  apart := by decide
  blank := by decide

theorem read_alike_samples :
    (∃ f, Formula.parse 10 "AvB1<=>~C" = .ok f ∧ Formula.parse 10 " A\t ||B1\n↔¬  C\n" = .ok f) ∧
    ∃ ts, Token.scan " A\t ||B1\n↔¬  C\n" = .ok (ts ++ [⟨.stop, "", 15⟩]) ∧
      ts[5]? = some ⟨.var, "C", 13⟩ := by
  have hglued : glued.text = "AvB1<=>~C" := by decide +kernel
  have hspaced : spaced.text = " A\t ||B1\n↔¬  C\n" := by decide +kernel
  constructor
  · rw [← hglued, ← hspaced]
    obtain hok | ⟨e, -, herror, -⟩ := (read_alike sampleRow glued spaced 10).2
    · exact hok
    · have hsome : (Formula.parse 10 glued.text).isOk = true := by decide +kernel
      rw [herror] at hsome
      cases hsome
  · obtain ⟨ts, hscan, -, hwords⟩ := (read_alike sampleRow spaced glued 10).1
    rw [hspaced] at hscan
    exact ⟨ts, hscan, hwords (spaced.words.take 5) _ [] rfl⟩

end Layout

end Propositional
