import Propositional.Proofs.Parsing

/-!
# Where a text goes wrong

Tokens are viable if they begin some row that the grammar derives, its end mark included. What the
machine has read is always viable: an operand can be supplied and parentheses can be closed. Where
it stops, it does so whatever follows the token it stops at, and with more room as well. If a row
that the grammar derives had this token in this place, the machine would read it to the end. So the
token that is reported is the first with which the tokens so far are no longer viable.

The scanner passes over white space, names and spellings from the left. It reports the index where
none of them begins, and there is only one that can be reached.

Only where the room ends with the tokens is there no position to report. How much room there is
depends on who calls the reader, so a text strains it if that happens for some room that may be
left. Short texts do not.

## Main definitions

* `Viable`: tokens begin a row that the grammar derives
* `OffendsAt`: the token at a place is the first with which a row is not viable
* `Reader.StopsAt`: the machine stops at a token, whatever follows it
* `Token.Reaches`, `Token.StuckAt`: the indices that skipping reaches, and where it ends
* `Formula.Strained`: texts whose tokens may end with the room

## Main results

* `Reader.Holds.viable`: what the machine has read is viable
* `Reader.exists_stopsAt`: the machine stops at a token
* `Reader.exists_offendsAt`: a row is refused at its first offending token
* `Token.stuckAt_iff`: a text is refused where skipping ends
* `Formula.parse_error_position`: the position of a syntax error
* `Formula.strained_of_isPastEnd`: only a text that strains the reader is refused without a position
-/

namespace Propositional

variable {ts us vs : List Token} {t : Token}

/-! ## Viable rows -/

/-- Tokens begin a row that the grammar derives, with its end mark behind it. -/
def Viable (ts : List Token) : Prop :=
  ∃ (us : List Token) (t : Token) (f : Formula),
    Derives 1 us f ∧ t.kind = .stop ∧ ts <+: us ++ [t]

theorem Viable.shorten (h : Viable ts) (hus : us <+: ts) : Viable us := by
  obtain ⟨vs, t, f, hf, ht, hts⟩ := h
  exact ⟨vs, t, f, hf, ht, List.IsPrefix.trans hus hts⟩

theorem viable_of_derives {f : Formula} (h : Derives 1 (ts ++ us) f) : Viable ts := by
  refine ⟨ts ++ us, ⟨.stop, "", 0⟩, f, h, rfl, ?_⟩
  rw [List.append_assoc]
  exact List.prefix_append ..

/-- The token at a place is the first with which the tokens of a row are not viable. -/
def OffendsAt (ts : List Token) (k : Nat) (t : Token) : Prop :=
  ts[k]? = some t ∧ Viable (ts.take k) ∧ ¬Viable (ts.take (k + 1))

theorem offendsAt_append {rest : List Token} (hts : Viable ts) (ht : ¬Viable (ts ++ [t])) :
    OffendsAt (ts ++ t :: rest) ts.length t := by
  refine ⟨by simp, ?_, ?_⟩
  · rwa [List.take_left]
  · rwa [List.append_cons, List.take_left' (by simp)]

/-- At most one token offends, since what comes before viable tokens is viable. -/
theorem OffendsAt.unique {j k : Nat} {s : Token} (h : OffendsAt ts j s) (h' : OffendsAt ts k t) :
    j = k := by
  -- no viable part of the row is longer than one that is not viable
  have hle : ∀ {i l : Nat}, ¬Viable (ts.take (i + 1)) → Viable (ts.take l) → l ≤ i := by
    intro i l hi hl
    apply Nat.le_of_not_lt
    intro hlt
    exact hi (hl.shorten (List.take_prefix_take_left hlt))
  exact Nat.le_antisymm (hle h'.2.2 h.2.1) (hle h.2.2 h'.2.1)

namespace Reader

variable {room level l : Nat} {st : List Frame} {hand : Option Formula} {f : Formula}

/-! ## What is pending can be completed -/

/-- The closing parentheses for all open ones. -/
def closing : List Frame → List Token
  | [] => []
  | .paren :: st => ⟨.rparen, ")", 0⟩ :: closing st
  | .neg :: st => closing st
  | .left _ _ :: st => closing st

/-- A phrase of the awaited level completes what is pending, parentheses apart. -/
theorem Pending.exists_derives (hlevel : 1 ≤ level) (hlevel' : level ≤ 6)
    (hst : Pending level st us) (hf : Derives l vs f) (hl : expected level st ≤ l) :
    ∃ g, Derives level (us ++ (vs ++ closing st)) g := by
  -- the innermost pending part takes the phrase, and what it makes is awaited by the next
  induction hst generalizing l vs f with
  | nil =>
    refine ⟨f, ?_⟩
    simpa [closing] using hf.mono hlevel hl
  | @paren st us o _ ho ih =>
    have hatom := Derives.paren (c := ⟨.rparen, ")", 0⟩) ho (hf.mono (Nat.le_refl 1) hl) rfl
    obtain ⟨g, hg⟩ := ih hatom (expected_le_six hlevel')
    refine ⟨g, ?_⟩
    simpa [closing] using hg
  | @neg st us t _ hst ht ih =>
    have hneg := Derives.neg ht (hf.mono (by decide) hl)
    obtain ⟨g, hg⟩ := ih hneg hst
    refine ⟨g, ?_⟩
    simpa [closing] using hg
  | @left st us ws op e t _ hst he ht ih =>
    have hright := hf.mono (Nat.le_trans op.one_le_rank op.rank_le_rightLevel) hl
    obtain ⟨g, hg⟩ := ih (he.bin ht hright) hst
    refine ⟨g, ?_⟩
    simpa [closing] using hg

/-- What the machine has read can be completed. -/
theorem Holds.viable (h : Holds 1 st hand us) : Viable us := by
  cases hand with
  | none =>
    -- any name will do for the operand that is awaited
    have hvar : Derives 6 [⟨.var, "A", 0⟩] (.var "A") := .var rfl
    obtain ⟨g, hg⟩ := Pending.exists_derives (Nat.le_refl 1) (by decide) h hvar
      (expected_le_six (by decide))
    exact viable_of_derives hg
  | some f =>
    obtain ⟨hst, hf, hl, -⟩ := h none
    obtain ⟨g, hg⟩ := hst.exists_derives (Nat.le_refl 1) (by decide) hf hl
    rw [← List.append_assoc] at hg
    exact viable_of_derives hg

/-! ## What one token does -/

/-- A token takes the machine from one state to another, whatever follows the token, also with more
room. -/
def Passes (room level : Nat) (st : List Frame) (hand : Option Formula) (t : Token)
    (st' : List Frame) (hand' : Option Formula) : Prop :=
  ∀ room' rest, room ≤ room' →
    run room' level st hand (t :: rest) = run room' level st' hand' rest

/-- The machine stops at a token behind others with a formula or an error, whatever follows the
token, also with more room. -/
def StopsAt (room level : Nat) (st : List Frame) (hand : Option Formula) (us : List Token)
    (t : Token) (v : Except SyntaxError Formula) : Prop :=
  ∀ room' rest, room ≤ room' →
    run room' level st hand (us ++ t :: rest) = v.map fun f => (f, t :: rest)

theorem Passes.stopsAt {s : Token} {st' : List Frame} {hand' : Option Formula}
    {v : Except SyntaxError Formula} (h : Passes room level st hand s st' hand')
    (h' : StopsAt room level st' hand' us t v) : StopsAt room level st hand (s :: us) t v := by
  intro room' rest hroom
  rw [List.cons_append, h room' _ hroom]
  exact h' room' rest hroom

/-- What one token does to the machine after it has read some tokens. -/
inductive Step (room level : Nat) (st : List Frame) (hand : Option Formula) (us : List Token)
    (t : Token) : Prop
  /-- It is read. -/
  | pass {st' : List Frame} {hand' : Option Formula} (ht : t.kind ≠ .stop)
      (h : Passes room level st hand t st' hand') (hread : Holds level st' hand' (us ++ [t]))
  /-- It ends the reading, perhaps with an error that names its place. -/
  | stop {v : Except SyntaxError Formula} (h : StopsAt room level st hand [] t v)
      (hv : ∀ e, v = .error e → e.position? = some t.offset)
  /-- There is no room for it. -/
  | lack (h : ∀ rest, LacksRoom (run room level st hand (t :: rest)))

theorem Step.refused {e : SyntaxError} (he : e.position? = some t.offset)
    (h : ∀ room rest, run room level st hand (t :: rest) = .error e) :
    Step room level st hand us t := by
  refine .stop (v := .error e) (fun room' rest _ => h room' rest) ?_
  intro e' he'
  cases he'
  exact he

theorem Step.finished {g : Formula}
    (h : ∀ room rest, run room level st hand (t :: rest) = .ok (g, t :: rest)) :
    Step room level st hand us t := by
  refine .stop (v := .ok g) (fun room' rest _ => h room' rest) ?_
  intro e he
  cases he

theorem not_overfull_of_le {room' : Nat} (h : ¬overfull room st = true) (hroom : room ≤ room') :
    ¬overfull room' st = true := by
  rw [overfull_iff] at h ⊢
  omega

/-- What a token does where an operand is awaited. -/
theorem step_awaiting (hlevel : level ≤ 6) (hst : Pending level st us) (t : Token) :
    Step room level st none us t := by
  cases ht : t.kind with
  | var =>
    refine .pass (by simp [ht]) (fun room' rest _ => run_var ht) ?_
    exact hst.holds_atom hlevel (.var ht)
  | not =>
    by_cases hempty : (st.isEmpty && level == 6) = true
    · -- an atom is awaited
      apply Step.refused (e := .operandExpected t.text t.offset) rfl
      intro room rest
      simp only [run, ht, if_pos hempty]
    by_cases hfull : overfull room (.neg :: st) = true
    · apply Step.lack
      intro rest
      simp only [run, ht, if_neg hempty, if_pos hfull]
      exact ⟨_, rfl⟩
    · have hread : Holds level (.neg :: st) none (us ++ [t]) := hst.push_neg hlevel hempty ht
      refine .pass (by simp [ht]) ?_ hread
      intro room' rest hroom
      simp only [run, ht, if_neg hempty, if_neg (not_overfull_of_le hfull hroom)]
  | lparen =>
    by_cases hfull : overfull room (.paren :: st) = true
    · apply Step.lack
      intro rest
      simp only [run, ht, if_pos hfull]
      exact ⟨_, rfl⟩
    · have hread : Holds level (.paren :: st) none (us ++ [t]) := Pending.paren hst ht
      refine .pass (by simp [ht]) ?_ hread
      intro room' rest hroom
      simp only [run, ht, if_neg (not_overfull_of_le hfull hroom)]
  | rparen =>
    apply Step.refused (e := .unbalancedClose t.offset) rfl
    intro room rest
    simp only [run, ht]
  | stop =>
    apply Step.refused (e := .unexpectedEnd t.offset) rfl
    intro room rest
    simp only [run, ht]
  | op c =>
    apply Step.refused (e := .operandExpected t.text t.offset) rfl
    intro room rest
    simp only [run, ht]

/-- At an end nothing stays pending but what an open parenthesis holds back. -/
theorem settle_none_cases (st : List Frame) (f : Formula) :
    (∃ g, settle none st f = ([], g)) ∨ ∃ st' g, settle none st f = (.paren :: st', g) := by
  rcases @settle_none st f with h | ⟨st', h⟩
  · exact .inl ⟨_, Prod.ext h rfl⟩
  · exact .inr ⟨st', _, Prod.ext h rfl⟩

/-- What a token does where a connective or an end is awaited. -/
theorem step_holding (hlevel : level ≤ 6) (h : Holds level st (some f) us) (t : Token) :
    Step room level st (some f) us t := by
  cases ht : t.kind with
  | op c =>
    obtain ⟨st', g, hs⟩ : ∃ st' g, settle (some c) st f = (st', g) := ⟨_, _, rfl⟩
    by_cases hend : (st'.isEmpty && decide (c.rank < level)) = true
    · -- the connective is looser than the level
      apply Step.finished (g := g)
      intro room rest
      simp only [run, ht, hs, if_pos hend]
    by_cases hfull : overfull room (.left c g :: st') = true
    · apply Step.lack
      intro rest
      simp only [run, ht, hs, if_neg hend, if_pos hfull]
      exact ⟨_, rfl⟩
    · have hread : Holds level (.left c g :: st') none (us ++ [t]) := h.push_left hs hend ht
      refine .pass (by simp [ht]) ?_ hread
      intro room' rest hroom
      simp only [run, ht, hs, if_neg hend, if_neg (not_overfull_of_le hfull hroom)]
  | rparen =>
    obtain ⟨g, hs⟩ | ⟨st', g, hs⟩ := settle_none_cases st f
    · apply Step.finished (g := g)
      intro room rest
      simp only [run, ht, hs]
    · refine .pass (by simp [ht]) ?_ (h.close hlevel hs ht)
      intro room' rest _
      simp only [run, ht, hs]
  | var | not | lparen | stop =>
    -- none of these goes on with a formula, so they end it or leave a parenthesis open
    obtain ⟨g, hs⟩ | ⟨st', g, hs⟩ := settle_none_cases st f
    · apply Step.finished (g := g)
      intro room rest
      simp only [run, ht, hs]
    · apply Step.refused (e := .unbalancedOpen t.offset) rfl
      intro room rest
      simp only [run, ht, hs]

/-! ## Where the machine stops -/

/-- The machine stops at a token of every row with an end mark, unless it lacks room. What it has
read by then keeps to the grammar, and an error names the place of the token. -/
theorem exists_stopsAt (hlevel : level ≤ 6) (hread : Holds level st hand us)
    (hmark : ∃ s ∈ ts, s.kind = .stop) (hroom : ¬ LacksRoom (run room level st hand ts)) :
    ∃ (vs rest : List Token) (t : Token) (v : Except SyntaxError Formula),
      ts = vs ++ t :: rest ∧ (∃ st' hand', Holds level st' hand' (us ++ vs)) ∧
      StopsAt room level st hand vs t v ∧ ∀ e, v = .error e → e.position? = some t.offset := by
  -- induction on what is left to read; that what was read keeps to the grammar is the invariant
  induction ts generalizing st hand us with
  | nil =>
    obtain ⟨s, hs, -⟩ := hmark
    cases hs
  | cons t ts ih =>
    have hstep : Step room level st hand us t := by
      cases hand with
      | none => exact step_awaiting hlevel hread t
      | some f => exact step_holding hlevel hread t
    cases hstep with
    | @pass st' hand' ht hpass hread' =>
      have hmark' : ∃ s ∈ ts, s.kind = .stop := by
        obtain ⟨s, hs, hstop⟩ := hmark
        rcases List.mem_cons.mp hs with rfl | hs
        · exact absurd hstop ht
        · exact ⟨s, hs, hstop⟩
      rw [hpass room ts (Nat.le_refl room)] at hroom
      obtain ⟨vs, rest, s, v, rfl, hread'', hstop, hv⟩ := ih hread' hmark' hroom
      refine ⟨t :: vs, rest, s, v, rfl, ?_, hpass.stopsAt hstop, hv⟩
      simpa using hread''
    | @stop v hstop hv =>
      refine ⟨[], ts, t, v, rfl, ⟨st, hand, ?_⟩, hstop, hv⟩
      simpa using hread
    | lack hlack => exact absurd (hlack ts) hroom

/-- Where the machine stops, only an end mark behind a formula leaves the tokens viable: a row that
the grammar derives would be read to its end. -/
theorem StopsAt.of_viable {v : Except SyntaxError Formula} (h : StopsAt room 1 [] none us t v)
    (hviable : Viable (us ++ [t])) : t.kind = .stop ∧ ∃ f, v = .ok f := by
  obtain ⟨ws, s, g, hg, hs, rest, hrest⟩ := hviable
  rw [List.append_assoc, List.singleton_append] at hrest
  obtain ⟨n, hn⟩ := hg.exists_takes
  -- with room for the completed row the machine reads it up to the mark, and it still stops at `t`
  have hrun := h (max n room) rest (Nat.le_max_right n room)
  rw [hrest, run_row hn hs (Nat.le_max_left n room)] at hrun
  cases v with
  | error e => cases hrun
  | ok f =>
    cases hrun
    exact ⟨hs, g, rfl⟩

/-- A row that is refused for anything but lack of room is refused at its offending token. -/
theorem exists_offendsAt {e : SyntaxError} (hmark : ∃ s ∈ ts, s.kind = .stop)
    (h : readAll ts = .error e) (hroom : ∀ o, e ≠ .tooNested o) :
    ∃ k t, OffendsAt ts k t ∧ e.position? = some t.offset := by
  have hnil : Holds 1 [] none [] := Pending.nil
  have hrun : ¬ LacksRoom (run capacity 1 [] none ts) := by
    rintro ⟨o, hrun⟩
    simp only [readAll, read, hrun] at h
    cases h
    exact hroom o rfl
  obtain ⟨vs, rest, t, v, rfl, ⟨st, hand, hread⟩, hstop, hv⟩ :=
    exists_stopsAt (by decide) hnil hmark hrun
  have hrun := hstop capacity rest (Nat.le_refl _)
  refine ⟨vs.length, t, offendsAt_append hread.viable ?_, ?_⟩
  · intro hviable
    -- the row would have been read
    obtain ⟨ht, f, rfl⟩ := hstop.of_viable hviable
    simp only [readAll, read, hrun, Except.map, ht] at h
    cases h
  · cases v with
    | error e' =>
      simp only [readAll, read, hrun, Except.map] at h
      cases h
      exact hv e rfl
    | ok f =>
      -- a formula was read, and what stands behind it is reported
      simp only [readAll, read, hrun, Except.map] at h
      split at h <;> cases h
      · rfl
      · rfl

end Reader

/-! ## Where the scanner stops -/

namespace Token

variable {o i : Nat} {cs ds p rest : List Char} {e : SyntaxError}

/-- White space, a whole name or a spelling in front of a text. -/
inductive Piece : List Char → List Char → Prop
  | blank {c : Char} {rest : List Char} (hc : Text.isBlank c = true) : Piece [c] rest
  | name {name : String} {rest : List Char} (hname : isName name = true) (hrest : EndsName rest) :
      Piece name.toList rest
  | sign {s : String} {kind : Kind} {rest : List Char} (hs : (s, kind) ∈ spellings) :
      Piece s.toList rest

/-- An index of a text is reached from the left by skipping white space, names and spellings. -/
inductive Reaches (cs : List Char) : Nat → Prop
  | start : Reaches cs 0
  | skip {i : Nat} {p rest : List Char} (h : Reaches cs i) (hcs : cs.drop i = p ++ rest)
      (hp : Piece p rest) : Reaches cs (i + p.length)

/-- Skipping ends at an index of a text: it is reached, and none of what is skipped begins there. -/
structure StuckAt (cs : List Char) (i : Nat) : Prop where
  lt : i < cs.length
  reaches : Reaches cs i
  begins : ∀ p rest, cs.drop i = p ++ rest → ¬Piece p rest

theorem Piece.length_pos (h : Piece p rest) : 0 < p.length := by
  cases h with
  | blank hc => exact Nat.one_pos
  | name hname hrest =>
    obtain ⟨c, ds, hcs, -⟩ := exists_cons_of_isName hname
    exact List.length_pos_iff.mpr (by simp [hcs])
  | sign hs =>
    obtain ⟨c, ds, hcs, -⟩ := exists_cons_of_mem_spellings hs
    exact List.length_pos_iff.mpr (by simp [hcs])

/-- The scanner passes over what is skipped. -/
theorem Piece.scanFrom_eq_error (hp : Piece p rest) (h : scanFrom o (p ++ rest) = .error e) :
    scanFrom (o + p.length) rest = .error e := by
  cases hp with
  | blank hc =>
    rw [List.singleton_append, scanFrom_blank hc] at h
    exact h
  | name hname hrest =>
    rw [scanFrom_name hname hrest] at h
    rw [String.length_toList]
    exact error_of_map_eq_error h
  | sign hs =>
    rw [scanFrom_sign hs] at h
    rw [String.length_toList]
    exact error_of_map_eq_error h

/-- A text is refused from every index that is reached as it is from the start. -/
theorem Reaches.scanFrom_eq_error (hi : Reaches cs i) (h : scanFrom 0 cs = .error e) :
    scanFrom i (cs.drop i) = .error e := by
  induction hi with
  | start => exact h
  | skip _ hcs hp ih =>
    rw [drop_add_of_eq_append hcs]
    rw [hcs] at ih
    exact hp.scanFrom_eq_error ih

/-- A character that begins nothing is a misfit. -/
theorem scanFrom_eq_misfit {c : Char} (h : ∀ p rest, c :: cs = p ++ rest → ¬Piece p rest) :
    scanFrom o (c :: cs) = .error (misfit c cs o) := by
  have hblank : ¬Text.isBlank c = true := fun hc => h [c] cs rfl (.blank hc)
  have hname : ¬isNameStart c = true := by
    intro hc
    apply h (c :: cs.takeWhile isNamePart) (cs.dropWhile isNamePart)
    · rw [List.cons_append, List.takeWhile_append_dropWhile]
    · have hpiece := Piece.name (isName_takeWhile hc cs) (endsName_dropWhile cs)
      rwa [String.toList_ofList] at hpiece
  have hsign : spelling? (c :: cs) = none := by
    cases hs : spelling? (c :: cs) with
    | none => rfl
    | some p =>
      obtain ⟨hmem, hcs⟩ := mem_spellings_of_spelling? hs
      exact absurd (.sign hmem) (h _ _ hcs.symm)
  rw [scanFrom, if_neg hblank, if_neg hname, hsign]

theorem position?_misfit (c : Char) (cs : List Char) (o : Nat) :
    (misfit c cs o).position? = some o := by
  unfold misfit
  split <;> rfl

/-- Where skipping ends the text is refused. -/
theorem StuckAt.position?_eq (hi : StuckAt cs i) (h : scanFrom 0 cs = .error e) :
    e.position? = some i := by
  have hscan := hi.reaches.scanFrom_eq_error h
  cases hcs : cs.drop i with
  | nil =>
    have hle := List.drop_eq_nil_iff.mp hcs
    exact absurd hi.lt (Nat.not_lt.mpr hle)
  | cons c ds =>
    rw [hcs, scanFrom_eq_misfit fun p rest hp => hi.begins p rest (hcs.trans hp)] at hscan
    cases hscan
    exact position?_misfit c ds i

/-- Skipping ends in every text that is refused. -/
theorem exists_stuckAt (h : scanFrom 0 cs = .error e) (hi : Reaches cs i) : ∃ k, StuckAt cs k := by
  -- by induction on how much of the text is left
  induction hn : cs.length - i using Nat.strongRecOn generalizing i with
  | ind n ih =>
    have hscan := hi.scanFrom_eq_error h
    have hlt : i < cs.length := by
      apply Nat.lt_of_not_le
      intro hle
      rw [List.drop_eq_nil_of_le hle, scanFrom] at hscan
      cases hscan
    by_cases hpiece : ∃ p rest, cs.drop i = p ++ rest ∧ Piece p rest
    · obtain ⟨p, rest, hcs, hp⟩ := hpiece
      have hpos := hp.length_pos
      exact ih (cs.length - (i + p.length)) (by omega) (.skip hi hcs hp) rfl
    · refine ⟨i, hlt, hi, ?_⟩
      intro p rest hcs hp
      exact hpiece ⟨p, rest, hcs, hp⟩

/-- A text that is refused is refused at the one index where skipping ends. -/
theorem stuckAt_iff (h : scanFrom 0 cs = .error e) : StuckAt cs i ↔ e.position? = some i := by
  constructor
  · intro hi
    exact hi.position?_eq h
  · intro hi
    obtain ⟨k, hk⟩ := exists_stuckAt h .start
    have hpos := hk.position?_eq h
    rw [hi] at hpos
    cases hpos
    exact hk

/-- Tokens begin within the text or at its end. -/
theorem Spells.offset_le {ts : List Token} (h : Spells o cs ts) :
    ∀ t ∈ ts, t.offset ≤ o + cs.length := by
  induction h with
  | stop => simp
  | blank _ _ ih =>
    intro t ht
    have hle := ih t ht
    rw [List.length_cons]
    omega
  | name _ _ _ ih | sign _ _ ih =>
    intro t ht
    rw [List.length_append, String.length_toList]
    rcases List.mem_cons.mp ht with rfl | ht
    · exact Nat.le_add_right ..
    · have hle := ih t ht
      omega

/-- A token takes no more than the room of a parenthesis for each of its characters. -/
theorem Spells.weight_le {ts : List Token} (h : Spells o cs ts) :
    Reader.tokensWeight ts ≤ 6 * cs.length := by
  induction h with
  | stop => exact Nat.le_refl 0
  | blank _ _ ih =>
    rw [List.length_cons]
    omega
  | name _ _ _ ih =>
    rw [List.length_append]
    simp only [Reader.tokensWeight, Reader.tokenWeight]
    omega
  | @sign o s kind cs ts hs _ ih =>
    obtain ⟨c, ds, hds, -⟩ := exists_cons_of_mem_spellings hs
    have htoken : Reader.tokenWeight ⟨kind, s, o⟩ ≤ 6 := by
      unfold Reader.tokenWeight
      split
      · exact Nat.le_refl 6
      · decide
      · split <;> decide
      · decide
    rw [List.length_append, hds, List.length_cons, Reader.tokensWeight]
    omega

end Token

/-! ## The position of a syntax error -/

namespace Formula

variable {maxDepth : Int} {text : String} {e : SyntaxError}

theorem parse_eq_scan_error {e' : SyntaxError} (h : parse maxDepth text = .error e)
    (hscan : Token.scan text = .error e') : e' = e := by
  rw [parse, hscan] at h
  cases h
  rfl

/-- Tokens are refused by the reader, unless their tree is too high. -/
theorem readAll_of_ofTokens {ts : List Token} (h : ofTokens maxDepth ts = .error e)
    (hdepth : e ≠ .tooDeep) : Reader.readAll ts = .error e := by
  unfold ofTokens at h
  split at h
  · next hread =>
    cases h
    exact hread
  · split at h <;> cases h
    exact absurd rfl hdepth

theorem readAll_of_parse {ts : List Token} (h : parse maxDepth text = .error e)
    (hscan : Token.scan text = .ok ts) (hdepth : e ≠ .tooDeep) :
    Reader.readAll ts = .error e := by
  rw [parse, hscan] at h
  exact readAll_of_ofTokens h hdepth

/-- A text that spells tokens and is refused for anything but its nesting is refused at the
offending token. -/
theorem exists_offendsAt_of_parse {ts : List Token} (h : parse maxDepth text = .error e)
    (hscan : Token.scan text = .ok ts) (hroom : ∀ o, e ≠ .tooNested o) (hdepth : e ≠ .tooDeep) :
    ∃ k t, OffendsAt ts k t ∧ e.position? = some t.offset := by
  have hread := readAll_of_parse h hscan hdepth
  obtain ⟨us, rfl, -⟩ := exists_unmarked_of_scan hscan
  apply Reader.exists_offendsAt _ hread hroom
  exact ⟨_, List.mem_append_right us List.mem_cons_self, rfl⟩

/-- A position in a text that spells tokens is that of a token, or the beginning of the text. -/
theorem exists_mem_of_position {ts : List Token} {n : Nat} (h : parse maxDepth text = .error e)
    (hscan : Token.scan text = .ok ts) (hn : e.position? = some n) :
    n = 0 ∨ ∃ t ∈ ts, t.offset = n := by
  by_cases hdepth : e = .tooDeep
  · subst hdepth
    exact .inl (Option.some.inj hn).symm
  by_cases hroom : e = .tooNested (some n)
  · subst hroom
    exact .inr (Reader.exists_mem_of_readAll_tooNested (readAll_of_parse h hscan hdepth))
  · have hroom' : ∀ o, e ≠ .tooNested o := by
      rintro o rfl
      exact hroom (congrArg SyntaxError.tooNested hn)
    obtain ⟨k, t, hk, ht⟩ := exists_offendsAt_of_parse h hscan hroom' hdepth
    rw [hn] at ht
    exact .inr ⟨t, List.mem_of_getElem? hk.1, (Option.some.inj ht).symm⟩

/-- Every position lies within the text or at its end. -/
theorem position_le_of_parse {n : Nat} (h : parse maxDepth text = .error e)
    (hn : e.position? = some n) : n ≤ text.length := by
  cases hscan : Token.scan text with
  | error e' =>
    obtain rfl := parse_eq_scan_error h hscan
    have hstuck := (Token.stuckAt_iff hscan).mpr hn
    rw [← String.length_toList]
    exact Nat.le_of_lt hstuck.lt
  | ok ts =>
    rcases exists_mem_of_position h hscan hn with rfl | ⟨t, ht, rfl⟩
    · exact Nat.zero_le _
    · have hle := (Token.spells_of_scanFrom hscan).offset_le t ht
      rwa [Nat.zero_add, String.length_toList] at hle

/-- A text that spells tokens and is refused for anything but its nesting is refused at the one
token with which the tokens so far stop being viable; the end mark at the length of the text counts
as a token. A text that spells no tokens is refused at the one index that is reached from the left
by skipping white space, names and spellings and where none of them begins. All positions lie within
the text or at its end. -/
theorem parse_error_position (maxDepth : Int) (text : String) (e : SyntaxError)
    (h : parse maxDepth text = .error e) :
    (∀ ts, Token.scan text = .ok ts →
      ts.getLast? = some ⟨.stop, "", text.length⟩ ∧
      (e.message ≠ SyntaxError.tooDeep.message →
        ∃ k t, OffendsAt ts k t ∧ (∀ j s, OffendsAt ts j s → j = k) ∧
          e.position? = some t.offset)) ∧
    (∀ e', Token.scan text = .error e' →
      ∃ i, Token.StuckAt text.toList i ∧ (∀ j, Token.StuckAt text.toList j → j = i) ∧
        e.position? = some i) ∧
    ∀ n, e.position? = some n → n ≤ text.length := by
  refine ⟨?_, ?_, fun n => position_le_of_parse h⟩
  · intro ts hscan
    obtain ⟨us, hus, -⟩ := exists_unmarked_of_scan hscan
    refine ⟨by simp [hus], fun he => ?_⟩
    obtain ⟨k, t, hk, ht⟩ := exists_offendsAt_of_parse h hscan
      (fun o hroom => he (by rw [hroom]; rfl)) (fun hdepth => he (by rw [hdepth]))
    exact ⟨k, t, hk, fun j s hj => hj.unique hk, ht⟩
  · intro e' hscan
    obtain rfl := parse_eq_scan_error h hscan
    obtain ⟨i, hi⟩ := Token.exists_stuckAt hscan .start
    have hpos := hi.position?_eq hscan
    refine ⟨i, hi, fun j hj => ?_, hpos⟩
    rw [hj.position?_eq hscan] at hpos
    exact Option.some.inj hpos

/-- A text with an operand where a connective or a closing parenthesis is due. -/
def unclosedText : String := "(A -> B C"

/-- The tokens of `unclosedText`. -/
def unclosedTokens : List Token :=
  [⟨.lparen, "(", 0⟩, ⟨.var, "A", 1⟩, ⟨.op .imp, "->", 3⟩, ⟨.var, "B", 6⟩, ⟨.var, "C", 8⟩,
    ⟨.stop, "", 9⟩]

theorem parse_error_position_samples :
    (∃ k t, OffendsAt unclosedTokens k t ∧ t.offset = 8) ∧
    ∃ i, Token.StuckAt "A1 ∧ b".toList i ∧ i ≤ 6 := by
  constructor
  · have hscan : Token.scan unclosedText = .ok unclosedTokens :=
      Token.eq_ok_of_toOption (by decide +kernel)
    have hparse : parse 100 unclosedText = .error (.unbalancedOpen 8) := by
      rw [parse, hscan]
      rfl
    obtain ⟨hspelled, -, -⟩ := parse_error_position 100 unclosedText _ hparse
    obtain ⟨k, t, hk, -, ht⟩ := (hspelled _ hscan).2 (by decide)
    exact ⟨k, t, hk, (Option.some.inj ht).symm⟩
  · cases hscan : Token.scan "A1 ∧ b" with
    | ok ts =>
      have hnone : (Token.scan "A1 ∧ b").toOption = none := by decide +kernel
      rw [hscan] at hnone
      cases hnone
    | error e =>
      have hparse : parse 100 "A1 ∧ b" = .error e := by rw [parse, hscan]
      obtain ⟨-, hunspelled, hle⟩ := parse_error_position 100 "A1 ∧ b" e hparse
      obtain ⟨i, hi, -, hpos⟩ := hunspelled e hscan
      exact ⟨i, hi, hle i hpos⟩

/-! ## Reading past the end -/

/-- With some room that may be left, the room ends where the tokens of a text do. -/
def Strained (text : String) : Prop :=
  ∃ ts room, Token.scan text = .ok ts ∧ Reader.assured ≤ room ∧ room ≤ Reader.capacity ∧
    Reader.run room 1 [] none ts = .error (.tooNested none)

theorem position?_of_isPastEnd (he : e.isPastEnd = true) : e.position? = none := by
  unfold SyntaxError.isPastEnd at he
  split at he
  · rfl
  · rfl
  · cases he

/-- Tokens are refused without a position only if the room ends where they do. -/
theorem run_of_isPastEnd {ts : List Token} (hmark : ∃ t ∈ ts, t.kind = .stop)
    (h : ofTokens maxDepth ts = .error e) (he : e.isPastEnd = true) :
    Reader.run Reader.capacity 1 [] none ts = .error (.tooNested none) := by
  have hposition := position?_of_isPastEnd he
  have hdepth : e ≠ .tooDeep := by
    rintro rfl
    cases he
  have hread := readAll_of_ofTokens h hdepth
  by_cases hroom : ∃ o, e = .tooNested o
  · obtain ⟨o, rfl⟩ := hroom
    obtain rfl : o = none := hposition
    exact Reader.run_of_readAll_tooNested hread
  · -- any other refusal is at a token
    obtain ⟨k, t, -, ht⟩ := Reader.exists_offendsAt hmark hread fun o ho => hroom ⟨o, ho⟩
    rw [hposition] at ht
    cases ht

/-- Only a text that strains the reader is refused without a position. -/
theorem strained_of_isPastEnd (h : parse maxDepth text = .error e) (he : e.isPastEnd = true) :
    Strained text := by
  cases hscan : Token.scan text with
  | error e' =>
    -- the scanner reports where it is stuck
    have hposition := position?_of_isPastEnd he
    obtain rfl := parse_eq_scan_error h hscan
    obtain ⟨i, hi⟩ := Token.exists_stuckAt hscan .start
    rw [hi.position?_eq hscan] at hposition
    cases hposition
  | ok ts =>
    obtain ⟨us, hus, -⟩ := exists_unmarked_of_scan hscan
    have hmark : ∃ t ∈ ts, t.kind = .stop := by
      rw [hus]
      exact ⟨_, List.mem_append_right us List.mem_cons_self, rfl⟩
    rw [parse, hscan] at h
    exact ⟨ts, Reader.capacity, hscan, by decide, Nat.le_refl _, run_of_isPastEnd hmark h he⟩

/-- A text that the grammar derives does not strain the reader if it takes no more room than is left
for sure. -/
theorem not_strained_of_takes {ts : List Token} {t : Token} {f : Formula} {n : Nat}
    (hscan : Token.scan text = .ok (ts ++ [t])) (ht : t.kind = .stop) (h : Takes 1 ts f n)
    (hn : n ≤ Reader.assured) : ¬Strained text := by
  rintro ⟨us, room, hus, hroom, -, hrun⟩
  rw [hscan] at hus
  cases hus
  rw [Reader.run_row h ht (Nat.le_trans hn hroom)] at hrun
  cases hrun

/-- A short text does not strain the reader. -/
theorem not_strained_of_length_le (h : 6 * text.length ≤ Reader.assured) : ¬Strained text := by
  rintro ⟨ts, room, hscan, hroom, -, hrun⟩
  have hlt := Reader.lt_of_run_tooNested hrun
  have hweight := (Token.spells_of_scanFrom hscan).weight_le
  simp only [Reader.demand, Reader.weight, String.length_toList] at hlt hweight
  omega

end Formula

end Propositional
