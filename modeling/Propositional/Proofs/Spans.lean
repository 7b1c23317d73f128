import Propositional.Proofs.Scanning

/-!
# Where tokens stand in a text

Scanning loses nothing of a text and reads nothing twice. The tokens stand in the text one behind
the other, each with its own text as the part of the text at its offset. What lies between them is
white space, and nothing inside them is. A token that is a name reaches as far as it can, and every
other one is a spelling of its kind.

The scanner is at some offset and has the tokens behind it still to find. So the parts of a text are
described from an offset on, and a step of the scanner passes over white space or a token there.
These facts leave no choice: they hold of no other row of tokens than the one that is found.

## Main definitions

* `Token.ending`, `Token.Covers`: the places of a text that a token takes
* `Token.StandsIn`: a token is a part of a text
* `Token.Cuts`: tokens are the parts of a text from an offset on, less its white space

## Main results

* `Token.Cuts.of_blank`, `Token.Cuts.cons`: a step of the scanner
* `Token.Cuts.of_spells`, `Token.Cuts.spells`: tokens cut a text exactly if it spells them
* `Token.scan_eq_ok_iff_cuts`: scanning succeeds with the tokens that cut the text
-/

namespace Propositional.Token

/-! ## Parts of a text -/

/-- Where the text of a token ends: the first place behind it. -/
def ending (t : Token) : Nat :=
  t.offset + t.text.length

/-- A token takes a place of the text. -/
def Covers (t : Token) (i : Nat) : Prop :=
  t.offset ≤ i ∧ i < t.ending

/-- A token is a part of a text. -/
structure StandsIn (cs : List Char) (t : Token) : Prop where
  /-- It takes at least one place. -/
  nonempty : t.offset < t.ending
  /-- Its own text is what stands in the places that it takes. -/
  slice : (cs.drop t.offset).take t.text.length = t.text.toList
  /-- A name is well formed, and no character follows it that could continue it. -/
  name : t.kind = .var → isName t.text = true ∧ EndsName (cs.drop t.ending)
  /-- Every other token is one of the spellings of its kind. -/
  sign : t.kind ≠ .var → (t.text, t.kind) ∈ spellings

/-- Tokens are the parts of a text from an offset on. -/
structure Cuts (cs : List Char) (o : Nat) (ts : List Token) : Prop where
  behind : ∀ t ∈ ts, o ≤ t.offset
  /-- They stand one behind the other and take no place twice. -/
  ordered : ts.Pairwise fun t u => t.ending ≤ u.offset
  stands : ∀ t ∈ ts, t.StandsIn cs
  /-- The places that none of them takes are those of the white space. -/
  blank : ∀ i c, o ≤ i → cs[i]? = some c → (Text.isBlank c = true ↔ ∀ t ∈ ts, ¬t.Covers i)

variable {cs : List Char} {o i : Nat} {c : Char} {t : Token} {ts : List Token}

/-! ## One token in its place -/

namespace StandsIn

/-- What stands from the offset of a token on is its text and what follows its ending. -/
theorem drop_eq (ht : t.StandsIn cs) : cs.drop t.offset = t.text.toList ++ cs.drop t.ending := by
  rw [← ht.slice, ending, ← List.drop_drop, List.take_append_drop]

theorem ending_le (ht : t.StandsIn cs) : t.ending ≤ cs.length := by
  have hlength := congrArg List.length ht.slice
  have hnonempty := ht.nonempty
  rw [List.length_take, List.length_drop, String.length_toList] at hlength
  unfold ending at *
  omega

/-- A character in a place that a token takes is one of the token's. -/
theorem mem_of_covers (ht : t.StandsIn cs) (hi : t.Covers i) (hc : cs[i]? = some c) :
    c ∈ t.text.toList := by
  obtain ⟨hle, hlt⟩ := hi
  unfold ending at hlt
  rw [← ht.slice]
  apply List.mem_of_getElem? (i := i - t.offset)
  rw [List.getElem?_take_of_lt (by omega), List.getElem?_drop, Nat.add_sub_cancel' hle]
  exact hc

end StandsIn

/-- No white space stands inside a spelling. -/
theorem isBlank_of_mem_spelling {p : String × Kind} (hp : p ∈ spellings) (hc : c ∈ p.1.toList) :
    Text.isBlank c = false := by
  have hnone : ∀ p ∈ spellings, (p.1.toList.all fun c => !Text.isBlank c) = true := by decide
  have h := List.all_eq_true.mp (hnone p hp) c hc
  simpa using h

/-- No white space stands inside a token. -/
theorem StandsIn.isBlank_of_covers (ht : t.StandsIn cs) (hi : t.Covers i)
    (hc : cs[i]? = some c) : Text.isBlank c = false := by
  have hmem := ht.mem_of_covers hi hc
  by_cases hvar : t.kind = .var
  · exact isBlank_of_isNamePart (isNamePart_of_mem_name (ht.name hvar).1 c hmem)
  · exact isBlank_of_mem_spelling (ht.sign hvar) hmem

/-! ## What a step of the scanner keeps -/

/-- A text in front of the rest is the part of the text there, and the rest follows it. -/
theorem slice_of_drop_eq {s : String} {ds : List Char} (h : cs.drop o = s.toList ++ ds) :
    (cs.drop o).take s.length = s.toList ∧ cs.drop (o + s.length) = ds := by
  have hrest := drop_add_of_eq_append h
  rw [String.length_toList] at hrest
  refine ⟨?_, hrest⟩
  rw [h, ← String.length_toList, List.take_left]

theorem lt_ending {kind : Kind} {s : String} {ds : List Char} (hs : s.toList = c :: ds) :
    o < ending ⟨kind, s, o⟩ := by
  rw [ending, ← String.length_toList, hs]
  exact Nat.lt_add_of_pos_right (Nat.succ_pos _)

theorem standsIn_name {name : String} {ds : List Char} (hname : isName name = true)
    (hds : EndsName ds) (h : cs.drop o = name.toList ++ ds) : StandsIn cs ⟨.var, name, o⟩ := by
  obtain ⟨hslice, hrest⟩ := slice_of_drop_eq h
  obtain ⟨c, ds', hcs, -⟩ := exists_cons_of_isName hname
  refine ⟨lt_ending hcs, hslice, fun _ => ⟨hname, ?_⟩, fun hvar => absurd rfl hvar⟩
  rw [ending, hrest]
  exact hds

theorem standsIn_sign {s : String} {kind : Kind} {ds : List Char} (hs : (s, kind) ∈ spellings)
    (h : cs.drop o = s.toList ++ ds) : StandsIn cs ⟨kind, s, o⟩ := by
  obtain ⟨c, ds', hcs, -⟩ := exists_cons_of_mem_spellings hs
  exact ⟨lt_ending hcs, (slice_of_drop_eq h).1,
    fun hvar => absurd hvar (kind_of_mem_spellings hs).1, fun _ => hs⟩

namespace Cuts

/-- Nothing is left to cut at the end of the text. -/
theorem nil : Cuts cs cs.length [] := by
  refine ⟨by simp, .nil, by simp, fun i c hi hc => ?_⟩
  rw [List.getElem?_eq_none hi] at hc
  cases hc

/-- White space may stand in front of what is cut. -/
theorem of_blank (hc : cs[o]? = some c) (hblank : Text.isBlank c = true)
    (h : Cuts cs (o + 1) ts) : Cuts cs o ts := by
  refine ⟨fun t ht => Nat.le_of_succ_le (h.behind t ht), h.ordered, h.stands, fun i d hi hd => ?_⟩
  rcases Nat.eq_or_lt_of_le hi with rfl | hlt
  · obtain rfl := Option.some.inj (hc.symm.trans hd)
    refine ⟨fun _ t ht hcovers => ?_, fun _ => hblank⟩
    exact absurd hcovers.1 (Nat.not_le_of_lt (h.behind t ht))
  · exact h.blank i d hlt hd

/-- A token may stand in front of what is cut behind it. -/
theorem cons (ht : t.StandsIn cs) (h : Cuts cs t.ending ts) : Cuts cs t.offset (t :: ts) := by
  refine ⟨?_, List.pairwise_cons.mpr ⟨h.behind, h.ordered⟩, ?_, fun i c hi hc => ?_⟩
  · refine List.forall_mem_cons.mpr ⟨Nat.le_refl _, fun u hu => ?_⟩
    exact Nat.le_trans (Nat.le_of_lt ht.nonempty) (h.behind u hu)
  · exact List.forall_mem_cons.mpr ⟨ht, h.stands⟩
  · rw [List.forall_mem_cons]
    by_cases hcovers : t.Covers i
    · -- the place is inside the token, where no white space is
      simp [ht.isBlank_of_covers hcovers hc, hcovers]
    · have hbehind : t.ending ≤ i := Nat.not_lt.mp fun hlt => hcovers ⟨hi, hlt⟩
      rw [h.blank i c hbehind hc]
      exact ⟨fun hts => ⟨hcovers, hts⟩, fun hts => hts.2⟩

/-- Tokens that the text spells from an offset on cut it from there. -/
theorem of_spells {ds : List Char} (h : Spells o ds ts) (hds : cs.drop o = ds)
    (ho : o ≤ cs.length) :
    ∃ us, ts = us ++ [⟨.stop, "", cs.length⟩] ∧ Cuts cs o us := by
  -- by induction on what is spelled, each case being a step of the scanner
  induction h with
  | stop =>
    obtain rfl := Nat.le_antisymm ho (List.drop_eq_nil_iff.mp hds)
    exact ⟨[], rfl, nil⟩
  | @blank o c ds ts hblank _ ih =>
    have hc : cs[o]? = some c := by rw [← List.head?_drop, hds, List.head?_cons]
    have hrest : cs.drop (o + 1) = ds := by rw [← List.tail_drop, hds, List.tail_cons]
    obtain ⟨us, hus, hcuts⟩ := ih hrest (List.getElem?_eq_some_iff.mp hc).1
    exact ⟨us, hus, hcuts.of_blank hc hblank⟩
  | @name o name ds ts hname hend _ ih =>
    have ht := standsIn_name hname hend hds
    obtain ⟨us, rfl, hcuts⟩ := ih (slice_of_drop_eq hds).2 ht.ending_le
    exact ⟨_ :: us, rfl, hcuts.cons ht⟩
  | @sign o s kind ds ts hs _ ih =>
    have ht := standsIn_sign hs hds
    obtain ⟨us, rfl, hcuts⟩ := ih (slice_of_drop_eq hds).2 ht.ending_le
    exact ⟨_ :: us, rfl, hcuts.cons ht⟩

/-! ## What is left no choice -/

/-- At the end of the text nothing can be cut. -/
theorem eq_nil (h : Cuts cs cs.length ts) : ts = [] := by
  rw [List.eq_nil_iff_forall_not_mem]
  intro t ht
  have hbehind := h.behind t ht
  have hnonempty := (h.stands t ht).nonempty
  have hle := (h.stands t ht).ending_le
  omega

/-- What is cut from white space on is cut from behind it. -/
theorem tail_of_blank (h : Cuts cs o ts) (hc : cs[o]? = some c) (hblank : Text.isBlank c = true) :
    Cuts cs (o + 1) ts := by
  refine ⟨fun t ht => ?_, h.ordered, h.stands, fun i d hi hd => h.blank i d (by omega) hd⟩
  -- a token at `o` would take the place of the white space
  have hcovers := (h.blank o c (Nat.le_refl o) hc).mp hblank t ht
  have hnonempty := (h.stands t ht).nonempty
  apply Nat.lt_of_le_of_ne (h.behind t ht)
  rintro rfl
  exact hcovers ⟨Nat.le_refl _, hnonempty⟩

/-- Where no white space is, the first token stands, and the others are cut from its ending on. -/
theorem exists_cons (h : Cuts cs o ts) (hc : cs[o]? = some c) (hblank : Text.isBlank c = false) :
    ∃ t us, ts = t :: us ∧ t.offset = o ∧ t.StandsIn cs ∧ Cuts cs t.ending us := by
  obtain ⟨u, hu, hle, -⟩ : ∃ u ∈ ts, u.Covers o := by
    apply Classical.byContradiction
    intro hnone
    have hall : ∀ u ∈ ts, ¬u.Covers o := fun u hu hcovers => hnone ⟨u, hu, hcovers⟩
    rw [← h.blank o c (Nat.le_refl o) hc, hblank] at hall
    cases hall
  cases ts with
  | nil => cases hu
  | cons t us =>
    obtain ⟨hbefore, hordered⟩ := List.pairwise_cons.mp h.ordered
    obtain ⟨ht, hus⟩ := List.forall_mem_cons.mp h.stands
    obtain ⟨hto, -⟩ := List.forall_mem_cons.mp h.behind
    have hnonempty := ht.nonempty
    have hoffset : t.offset = o := by
      rcases List.mem_cons.mp hu with rfl | hmem
      · exact Nat.le_antisymm hle hto
      · -- behind the first token it is too late to take the place `o`
        have hfar := hbefore u hmem
        omega
    -- from its own ending on, the first token takes no place
    refine ⟨t, us, rfl, hoffset, ht, hbefore, hordered, hus, fun i d hi hd => ?_⟩
    rw [h.blank i d (by omega) hd, List.forall_mem_cons]
    exact ⟨fun hnone => hnone.2, fun hnone => ⟨fun hcovers => absurd hcovers.2 (by omega), hnone⟩⟩

/-- Tokens that cut the text from an offset on are spelled there. -/
theorem spells (h : Cuts cs o ts) (ho : o ≤ cs.length) :
    Spells o (cs.drop o) (ts ++ [⟨.stop, "", cs.length⟩]) := by
  -- by induction on how much of the text is left
  induction hn : cs.length - o using Nat.strongRecOn generalizing o ts with
  | ind n ih =>
    subst hn
    rcases Nat.eq_or_lt_of_le ho with rfl | hlt
    · obtain rfl := h.eq_nil
      rw [List.drop_length]
      exact .stop
    · have hc : cs[o]? = some cs[o] := List.getElem?_eq_getElem hlt
      cases hblank : Text.isBlank cs[o] with
      | true =>
        rw [List.drop_eq_getElem_cons hlt]
        exact .blank hblank (ih _ (by omega) (h.tail_of_blank hc hblank) hlt rfl)
      | false =>
        obtain ⟨⟨kind, s, _⟩, us, rfl, rfl, ht, hus⟩ := h.exists_cons hc hblank
        have hnonempty := ht.nonempty
        have hrest := ih _ (by omega) hus ht.ending_le rfl
        rw [ht.drop_eq]
        by_cases hvar : kind = .var
        · subst hvar
          obtain ⟨hname, hend⟩ := ht.name rfl
          exact .name hname hend hrest
        · exact .sign (ht.sign hvar) hrest

end Cuts

/-- Scanning loses nothing. It succeeds exactly with the tokens that cut the text, followed by the
end mark at the length of the text: each token is a part of the text and they stand one behind the
other; the places that none of them takes are those of the white space; a name begins as names do,
goes on with what may continue one and is followed by nothing that may; and every other token is a
spelling of its kind. -/
theorem scan_eq_ok_iff_cuts (text : String) (ts : List Token) :
    scan text = .ok ts ↔
      ∃ us, ts = us ++ [⟨.stop, "", text.length⟩] ∧ Cuts text.toList 0 us := by
  rw [scan, scanFrom_eq_ok_iff, ← String.length_toList]
  constructor
  · intro h
    exact Cuts.of_spells h List.drop_zero (Nat.zero_le _)
  · rintro ⟨us, rfl, hcuts⟩
    exact hcuts.spells (Nat.zero_le _)

end Propositional.Token
