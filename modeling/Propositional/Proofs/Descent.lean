import Propositional.Proofs.Reading

/-!
# Reading by recursive descent

The machine that reads formulas keeps what is pending on a stack. The grammar can also be followed
by one procedure for each of its levels, with a cursor that goes through the tokens. The procedure
of a connective's level calls that of the next tighter level for the first operand, and goes on as
long as the connective follows; an open parenthesis calls the procedure of the loosest level again.

Nothing in the shape of these procedures says that they end. From the loosest level down to the
atoms they call each other with the cursor where it is, and rows of operands are read in a loop. So
they are run to a depth of calls, beyond which there is no outcome, and that some depth is enough is
a theorem: with each call the cursor moves forward, or the level gets tighter. Every token is looked
up by its place, which may be out of range; the end mark prevents it, since no procedure goes past
it. And the machine reads what the descent reads, to the same errors, unless it lacks room.

## Main definitions

* `Reader.procedure`: the procedures of the levels
* `Reader.descend`: the procedures, run to a depth of calls
* `Reader.EndsAt`: a row of tokens ends in its only end mark
* `Reader.Follows`: the machine runs to an outcome
* `Reader.IsReading`: what is promised of an outcome

## Main results

* `Reader.readsAt_six`, `Reader.readsAt_five`, `Reader.readsAt_rank`: what each procedure keeps
* `Reader.readsAt`: all procedures end, in range, and as the machine does
* `Reader.descend_total`: the descent is total and stays inside its row of tokens
-/

namespace Propositional

namespace Reader

variable {toks : List Token} {t : Token} {f g : Formula} {op : Connective}
  {i j l lo n room level : Nat} {st st' : List Frame} {hand : Option Formula} {e : SyntaxError}
  {r : Except SyntaxError (Formula × Nat)}

/-! ## One procedure for each level -/

/-- The token at a place, where there has to be one. -/
def tokenAt (toks : List Token) (i : Nat) : ExceptT SyntaxError Option Token :=
  match toks[i]? with
  | none => throw .endless
  | some t => return t

/-- Why a token begins no atom. -/
def refusal (t : Token) : SyntaxError :=
  match t.kind with
  | .stop => .unexpectedEnd t.offset
  | .rparen => .unbalancedClose t.offset
  | _ => .operandExpected t.text t.offset

/-- What a procedure is called for: a phrase of a level, or what follows a left operand of a
connective. -/
inductive Task where
  | phrase (level : Nat)
  | behind (op : Connective) (f : Formula)

/-- The outcome of a procedure, if there is one: what was read, and the place behind it. -/
abbrev Reading := ExceptT SyntaxError Option (Formula × Nat)

section Procedures

variable (toks : List Token) (call : Task → Nat → Reading)

/-- Reads operands of a connective, from the first on. -/
def operands (op : Connective) (i : Nat) : Reading := do
  let p ← call (.phrase (op.rank + 1)) i
  call (.behind op p.1) p.2

/-- Reads on behind a left operand of a connective. What nests to the left goes on in a loop. -/
def behind (op : Connective) (f : Formula) (i : Nat) : Reading := do
  let t ← tokenAt toks i
  if t.kind = .op op then
    let p ← call (.phrase op.rightLevel) (i + 1)
    if op.isRightAssociative then return (.bin op f p.1, p.2)
    else call (.behind op (.bin op f p.1)) p.2
  else return (f, i)

/-- Reads negations and the atom behind them. -/
def negation (i : Nat) : Reading := do
  let t ← tokenAt toks i
  if t.kind = .not then
    let p ← call (.phrase 5) (i + 1)
    return (.neg p.1, p.2)
  else call (.phrase 6) i

/-- Reads a variable, or a phrase in parentheses. -/
def atom (i : Nat) : Reading := do
  let t ← tokenAt toks i
  if t.kind = .var then return (.var t.text, i + 1)
  else if t.kind = .lparen then
    let p ← call (.phrase 1) (i + 1)
    let c ← tokenAt toks p.2
    if c.kind = .rparen then return (p.1, p.2 + 1) else throw (.unbalancedOpen c.offset)
  else throw (refusal t)

/-- The procedure for a task, with `call` for what it calls. -/
def procedure : Task → Nat → Reading
  | .phrase 1 => operands call .iff
  | .phrase 2 => operands call .imp
  | .phrase 3 => operands call .or
  | .phrase 4 => operands call .and
  | .phrase 5 => negation toks call
  | .phrase _ => atom toks call
  | .behind op f => behind toks call op f

end Procedures

/-- The procedures call each other, from a place on and to a depth of calls. Where this is not
enough, there is no outcome. -/
def descend (toks : List Token) : Nat → Task → Nat → Reading
  | 0, _, _ => ExceptT.mk none
  | depth + 1, task, i => procedure toks (descend toks depth) task i

theorem procedure_rank (call : Task → Nat → Reading) (op : Connective) :
    procedure toks call (.phrase op.rank) = operands call op := by
  cases op <;> rfl

/-- A task is done with an outcome at a depth of calls, and at every greater one. -/
def EndsWithin (toks : List Token) (bound : Nat) (task : Task) (i : Nat)
    (r : Except SyntaxError (Formula × Nat)) : Prop :=
  ∀ depth, bound ≤ depth → (descend toks depth task i).run = some r

theorem EndsWithin.of_procedure {bound : Nat} {task : Task} (hbound : 0 < bound)
    (h : ∀ depth, bound ≤ depth + 1 → (procedure toks (descend toks depth) task i).run = some r) :
    EndsWithin toks bound task i r := by
  intro depth hdepth
  cases depth with
  | zero => exact absurd hbound (Nat.not_lt_of_le hdepth)
  | succ depth => exact h depth hdepth

/-- The depth of calls that is enough for a phrase of a level from a place on, where the end mark is
at `n`. -/
def callsAt (n l i : Nat) : Nat :=
  -- lexicographic in the tokens ahead and the level; with the loop there are seven steps to a token
  7 * (n - i) + (7 - l)

theorem callsAt_pos (hl : l ≤ 6) : 0 < callsAt n l i := by
  unfold callsAt
  omega

/-- Further right fewer calls are enough, whatever the level. -/
theorem callsAt_lt_of_lt {k : Nat} (hij : i < j) (hj : j ≤ n) (hk : 1 ≤ k) :
    callsAt n k j < callsAt n l i := by
  unfold callsAt
  omega

/-- At a tighter level fewer calls are enough. -/
theorem callsAt_succ_lt (hl : l ≤ 6) : callsAt n (l + 1) i < callsAt n l i := by
  unfold callsAt
  omega

/-- What ends within fewer calls has its outcome when it is called. -/
theorem EndsWithin.run_call {bound depth k : Nat} {task : Task} (h : EndsWithin toks bound task i r)
    (hlt : bound < k) (hdepth : k ≤ depth + 1) : (descend toks depth task i).run = some r :=
  h depth (Nat.le_of_lt_succ (Nat.lt_of_lt_of_le hlt hdepth))

/-! ### Outcomes of computations -/

section Outcome

variable {α β : Type} {x : ExceptT SyntaxError Option α}

theorem run_bind_ok {a : α} (h : x.run = some (.ok a)) (k : α → ExceptT SyntaxError Option β) :
    (x >>= k).run = (k a).run := by
  rw [ExceptT.run_bind, h]
  rfl

theorem run_bind_error (h : x.run = some (.error e)) (k : α → ExceptT SyntaxError Option β) :
    (x >>= k).run = some (.error e) := by
  rw [ExceptT.run_bind, h]
  rfl

theorem run_tokenAt (ht : toks[i]? = some t) : (tokenAt toks i).run = some (.ok t) := by
  rw [tokenAt, ht]
  rfl

end Outcome

/-! ## Rows with an end mark -/

/-- A row of tokens has its only end mark at a place, and nothing behind it. -/
structure EndsAt (toks : List Token) (n : Nat) : Prop where
  length_eq : toks.length = n + 1
  stop_iff : ∀ {i t}, toks[i]? = some t → (t.kind = .stop ↔ i = n)

theorem EndsAt.exists_token (h : EndsAt toks n) (hi : i ≤ n) : ∃ t, toks[i]? = some t :=
  ⟨_, List.getElem?_eq_getElem (by rw [h.length_eq]; omega)⟩

/-- A token other than the end mark has another one behind it. -/
theorem EndsAt.lt (h : EndsAt toks n) (ht : toks[i]? = some t) (hkind : t.kind ≠ .stop) :
    i < n := by
  have hlt := (List.getElem?_eq_some_iff.mp ht).1
  have hne : i ≠ n := fun hi => hkind ((h.stop_iff ht).mpr hi)
  rw [h.length_eq] at hlt
  omega

theorem drop_eq_cons (ht : toks[i]? = some t) : toks.drop i = t :: toks.drop (i + 1) := by
  obtain ⟨hlt, rfl⟩ := List.getElem?_eq_some_iff.mp ht
  exact List.drop_eq_getElem_cons hlt

/-! ## The machine beside the descent -/

/-- From a place on, with something in hand or nothing, the machine runs to the outcome of a
reading: to its error, or to the place behind what was read, with that in hand above `st'`. It may
lack the room for it. -/
def Follows (toks : List Token) (room level : Nat) (st st' : List Frame) (hand : Option Formula)
    (i : Nat) (r : Except SyntaxError (Formula × Nat)) : Prop :=
  LacksRoom (run room level st hand (toks.drop i)) ∨
    run room level st hand (toks.drop i) =
      r.bind fun p => run room level st' (some p.1) (toks.drop p.2)

/-- What is read from the place where a reading ended is read on. -/
theorem Follows.trans {st'' : List Frame}
    (h : Follows toks room level st st' hand i (.ok (f, j)))
    (h' : Follows toks room level st' st'' (some f) j r) :
    Follows toks room level st st'' hand i r := by
  rcases h with hfull | hrun
  · exact .inl hfull
  · refine h'.imp (fun hlacks => ?_) hrun.trans
    obtain ⟨o, ho⟩ := hlacks
    exact ⟨o, hrun.trans ho⟩

/-- The machine awaits a phrase of the level, or of a looser level that the phrase may begin. With a
negation no atom begins, so that then nothing but an atom must be awaited. -/
structure Awaits (toks : List Token) (i l level : Nat) (st : List Frame) : Prop where
  le : expected level st ≤ l
  atom : l = 6 → ∀ t, toks[i]? = some t → t.kind = .not → expected level st = 6

theorem Awaits.of_le_five (hl : l ≤ 5) (h : expected level st ≤ l) : Awaits toks i l level st :=
  ⟨h, fun heq => by omega⟩

/-- No connective stands at a place that could be part of a phrase of the level. -/
def StopsBefore (toks : List Token) (l i : Nat) : Prop :=
  ∀ t c, toks[i]? = some t → t.kind = .op c → c.rank < l

theorem stopsBefore_of_five_le (hl : 5 ≤ l) : StopsBefore toks l i := by
  intro t c _ _
  exact Nat.lt_of_le_of_lt c.rank_le_four hl

/-- A pending connective takes a right operand that was read to its end. -/
theorem StopsBefore.takesBefore (h : StopsBefore toks op.rightLevel i) (ht : toks[i]? = some t) :
    takesBefore op (connective? t) = true := by
  unfold connective?
  split
  · next c hc =>
    rw [← Bool.not_eq_false]
    intro hop
    exact Nat.not_lt_of_le (rightLevel_le_rank hop) (h t c ht hc)
  · rfl

/-- What is promised of the outcome of a reading that starts at `i`, with something in hand or
nothing: no token was looked for out of range, what was read ends at `lo` or behind it but not
behind the end mark, and before no connective of the level, and it is what the machine reads. -/
structure IsReading (toks : List Token) (n l lo : Nat) (hand : Option Formula) (i : Nat)
    (r : Except SyntaxError (Formula × Nat)) : Prop where
  inRange : r ≠ .error .endless
  place : ∀ {f j}, r = .ok (f, j) → lo ≤ j ∧ j ≤ n ∧ StopsBefore toks l j
  follows : ∀ {room level st}, Awaits toks i l level st →
    Follows toks room level st st hand i r

namespace IsReading

theorem of_error (he : e ≠ .endless)
    (h : ∀ {room level st}, Awaits toks i l level st →
      Follows toks room level st st hand i (.error e)) :
    IsReading toks n l lo hand i (.error e) := by
  refine ⟨fun heq => he (Except.error.inj heq), fun heq => ?_, h⟩
  cases heq

theorem of_ok (hlo : lo ≤ j) (hj : j ≤ n) (hstop : StopsBefore toks l j)
    (h : ∀ {room level st}, Awaits toks i l level st →
      Follows toks room level st st hand i (.ok (f, j))) :
    IsReading toks n l lo hand i (.ok (f, j)) := by
  refine ⟨fun heq => ?_, fun heq => ?_, h⟩
  · cases heq
  · cases heq
    exact ⟨hlo, hj, hstop⟩

theorem ne_endless (h : IsReading toks n l lo hand i (.error e)) : e ≠ .endless :=
  fun he => h.inRange (congrArg Except.error he)

/-- A reading goes on where another one has ended, if the machine gets there. -/
theorem of_follows {lo' : Nat} (h : IsReading toks n l lo' (some f) j r) (hlo : lo ≤ lo')
    (hl : l ≤ 5)
    (hstart : ∀ {room level st}, Awaits toks i l level st →
      Follows toks room level st st hand i (.ok (f, j))) :
    IsReading toks n l lo hand i r := by
  refine ⟨h.inRange, fun heq => ?_, fun hawaits => ?_⟩
  · obtain ⟨hle, hrest⟩ := h.place heq
    exact ⟨Nat.le_trans hlo hle, hrest⟩
  · exact (hstart hawaits).trans (h.follows (.of_le_five hl hawaits.le))

/-- A token that becomes pending has what it awaits read behind it. -/
theorem follows_push (fr : Frame) (h : IsReading toks n fr.awaits lo none (i + 1) r)
    (hpush : run room level st hand (toks.drop i) =
      if room < weight (fr :: st) then .error (lack room (fr :: st) (toks.drop (i + 1)))
      else run room level (fr :: st) none (toks.drop (i + 1))) :
    Follows toks room level st (fr :: st) hand i r := by
  unfold Follows
  rw [hpush]
  split
  · exact .inl ⟨_, rfl⟩
  · exact h.follows (.of_le_five fr.awaits_le_five (Nat.le_refl _))

end IsReading

/-- The procedure of a level ends from a place on, and its outcome is as promised. The cursor has
moved. -/
def ReadsAt (toks : List Token) (n l i : Nat) : Prop :=
  ∃ r, EndsWithin toks (callsAt n l i) (.phrase l) i r ∧ IsReading toks n l (i + 1) none i r

/-! ## Atoms -/

theorem refusal_ne_endless (t : Token) : refusal t ≠ .endless := by
  unfold refusal
  split <;> simp

/-- The machine refuses what begins no atom, unless it awaits a negation and gets one. -/
theorem run_refusal {ts : List Token} (hvar : t.kind ≠ .var) (hparen : t.kind ≠ .lparen)
    (hnot : t.kind = .not → expected level st = 6) :
    run room level st none (t :: ts) = .error (refusal t) := by
  cases hkind : t.kind with
  | var => exact absurd hkind hvar
  | lparen => exact absurd hkind hparen
  | not =>
    cases st with
    | nil =>
      have hlevel : level = 6 := hnot hkind
      simp [run, refusal, hkind, hlevel]
    | cons fr st =>
      -- no pending part awaits an atom
      have hle := fr.awaits_le_five
      have heq : fr.awaits = 6 := hnot hkind
      omega
  | op c => simp [run, refusal, hkind]
  | rparen => simp [run, refusal, hkind]
  | stop => simp [run, refusal, hkind]

/-- The machine refuses what ends a parenthesis and does not close it. -/
theorem run_unclosed {ts : List Token} (hclose : t.kind ≠ .rparen) (hop : ∀ c, t.kind ≠ .op c) :
    run room level (.paren :: st) (some f) (t :: ts) = .error (.unbalancedOpen t.offset) := by
  cases hkind : t.kind with
  | rparen => exact absurd hkind hclose
  | op c => exact absurd hkind (hop c)
  | var => simp [run, hkind, settle]
  | not => simp [run, hkind, settle]
  | lparen => simp [run, hkind, settle]
  | stop => simp [run, hkind, settle]

theorem readsAt_six_of_lparen (hn : EndsAt toks n) (ht : toks[i]? = some t)
    (hkind : t.kind = .lparen) (hi : i < n) (hinner : ReadsAt toks n 1 (i + 1)) :
    ReadsAt toks n 6 i := by
  obtain ⟨r, hr, hreading⟩ := hinner
  -- in the machine the parenthesis is pending while the phrase in it is read
  have hpush : ∀ {room level st}, Follows toks room level st (.paren :: st) none i r := by
    intro room level st
    refine IsReading.follows_push .paren hreading ?_
    rw [drop_eq_cons ht, run_lparen hkind]
  have hvar : t.kind ≠ .var := by simp [hkind]
  have hfewer : callsAt n 1 (i + 1) < callsAt n 6 i :=
    callsAt_lt_of_lt (Nat.lt_succ_self i) hi (Nat.le_refl 1)
  cases r with
  | error e =>
    refine ⟨.error e, .of_procedure (callsAt_pos (Nat.le_refl 6)) fun depth hdepth => ?_,
      .of_error hreading.ne_endless fun _ => hpush⟩
    show (atom toks (descend toks depth) i).run = _
    rw [atom, run_bind_ok (run_tokenAt ht), if_neg hvar, if_pos hkind,
      run_bind_error (hr.run_call hfewer hdepth)]
  | ok p =>
    obtain ⟨f, j⟩ := p
    obtain ⟨hlt, hle, hstop⟩ := hreading.place rfl
    obtain ⟨c, hc⟩ := hn.exists_token hle
    have hinner : ∀ depth, callsAt n 6 i ≤ depth + 1 → (atom toks (descend toks depth) i).run =
        (if c.kind = .rparen then return (f, j + 1)
          else throw (.unbalancedOpen c.offset) : Reading).run := by
      intro depth hdepth
      rw [atom, run_bind_ok (run_tokenAt ht), if_neg hvar, if_pos hkind,
        run_bind_ok (hr.run_call hfewer hdepth), run_bind_ok (run_tokenAt hc)]
    by_cases hclose : c.kind = .rparen
    · have hj : j < n := hn.lt hc (by simp [hclose])
      refine ⟨.ok (f, j + 1), .of_procedure (callsAt_pos (Nat.le_refl 6)) fun depth hdepth => ?_,
        .of_ok (by omega) hj (stopsBefore_of_five_le (by decide)) fun _ => hpush.trans (.inr ?_)⟩
      · exact (hinner depth hdepth).trans (by rw [if_pos hclose]; rfl)
      · rw [drop_eq_cons hc]
        exact run_rparen hclose
    · -- a connective would have been part of the phrase
      have hop : ∀ o, c.kind ≠ .op o := fun o ho =>
        Nat.not_lt_of_le o.one_le_rank (hstop c o hc ho)
      refine ⟨.error (.unbalancedOpen c.offset),
        .of_procedure (callsAt_pos (Nat.le_refl 6)) fun depth hdepth => ?_,
        .of_error (by simp) fun _ => hpush.trans (.inr ?_)⟩
      · exact (hinner depth hdepth).trans (by rw [if_neg hclose]; rfl)
      · rw [drop_eq_cons hc]
        exact run_unclosed hclose hop

theorem readsAt_six (hn : EndsAt toks n) (hi : i ≤ n)
    (hlater : ∀ j, i < j → j ≤ n → ReadsAt toks n 1 j) : ReadsAt toks n 6 i := by
  obtain ⟨t, ht⟩ := hn.exists_token hi
  by_cases hparen : t.kind = .lparen
  · have hlt : i < n := hn.lt ht (by simp [hparen])
    exact readsAt_six_of_lparen hn ht hparen hlt (hlater (i + 1) (Nat.lt_succ_self i) hlt)
  by_cases hvar : t.kind = .var
  · have hlt : i < n := hn.lt ht (by simp [hvar])
    refine ⟨.ok (.var t.text, i + 1), .of_procedure (callsAt_pos (Nat.le_refl 6)) fun depth _ => ?_,
      .of_ok (Nat.le_refl _) hlt (stopsBefore_of_five_le (by decide)) fun _ => .inr ?_⟩
    · show (atom toks (descend toks depth) i).run = _
      rw [atom, run_bind_ok (run_tokenAt ht), if_pos hvar]
      rfl
    · rw [drop_eq_cons ht]
      exact run_var hvar
  · refine ⟨.error (refusal t), .of_procedure (callsAt_pos (Nat.le_refl 6)) fun depth _ => ?_,
      .of_error (refusal_ne_endless t) fun hawaits => .inr ?_⟩
    · show (atom toks (descend toks depth) i).run = _
      rw [atom, run_bind_ok (run_tokenAt ht), if_neg hvar, if_neg hparen]
      rfl
    · rw [drop_eq_cons ht]
      exact run_refusal hvar hparen (hawaits.atom rfl t ht)

/-! ## Negations -/

theorem readsAt_five_of_not (hn : EndsAt toks n) (ht : toks[i]? = some t) (hkind : t.kind = .not)
    (hi : i < n) (hinner : ReadsAt toks n 5 (i + 1)) : ReadsAt toks n 5 i := by
  obtain ⟨r, hr, hreading⟩ := hinner
  have hpush : ∀ {room level st}, Awaits toks i 5 level st →
      Follows toks room level st (.neg :: st) none i r := by
    intro room level st hawaits
    refine IsReading.follows_push .neg hreading ?_
    rw [drop_eq_cons ht, run_not hkind hawaits.le]
  have hfewer : callsAt n 5 (i + 1) < callsAt n 5 i :=
    callsAt_lt_of_lt (Nat.lt_succ_self i) hi (by decide)
  cases r with
  | error e =>
    refine ⟨.error e, .of_procedure (callsAt_pos (by decide)) fun depth hdepth => ?_,
      .of_error hreading.ne_endless hpush⟩
    show (negation toks (descend toks depth) i).run = _
    rw [negation, run_bind_ok (run_tokenAt ht), if_pos hkind,
      run_bind_error (hr.run_call hfewer hdepth)]
  | ok p =>
    obtain ⟨f, j⟩ := p
    obtain ⟨hlt, hle, hstop⟩ := hreading.place rfl
    obtain ⟨c, hc⟩ := hn.exists_token hle
    refine ⟨.ok (.neg f, j), .of_procedure (callsAt_pos (by decide)) fun depth hdepth => ?_,
      .of_ok (by omega) hle hstop fun hawaits => (hpush hawaits).trans (.inr ?_)⟩
    · show (negation toks (descend toks depth) i).run = _
      rw [negation, run_bind_ok (run_tokenAt ht), if_pos hkind,
        run_bind_ok (hr.run_call hfewer hdepth)]
      rfl
    · show run _ _ (.neg :: _) (some f) (toks.drop j) = run _ _ _ (some (.neg f)) (toks.drop j)
      rw [drop_eq_cons hc]
      -- a pending negation settles before whatever token comes next
      exact run_congr rfl

theorem readsAt_five (hn : EndsAt toks n) (hi : i ≤ n) (hatom : ReadsAt toks n 6 i)
    (hlater : ∀ j, i < j → j ≤ n → ReadsAt toks n 5 j) : ReadsAt toks n 5 i := by
  obtain ⟨t, ht⟩ := hn.exists_token hi
  by_cases hnot : t.kind = .not
  · have hlt : i < n := hn.lt ht (by simp [hnot])
    exact readsAt_five_of_not hn ht hnot hlt (hlater (i + 1) (Nat.lt_succ_self i) hlt)
  obtain ⟨r, hr, hreading⟩ := hatom
  refine ⟨r, .of_procedure (callsAt_pos (by decide)) fun depth hdepth => ?_, hreading.inRange,
    fun heq => ?_, fun hawaits => hreading.follows ?_⟩
  · show (negation toks (descend toks depth) i).run = _
    rw [negation, run_bind_ok (run_tokenAt ht), if_neg hnot]
    exact hr.run_call (callsAt_succ_lt (by decide)) hdepth
  · obtain ⟨hlt, hle, -⟩ := hreading.place heq
    exact ⟨hlt, hle, stopsBefore_of_five_le (Nat.le_refl 5)⟩
  · -- the machine may await a negation here, but none comes
    refine ⟨Nat.le_succ_of_le hawaits.le, fun _ t' ht' hnot' => ?_⟩
    obtain rfl : t = t' := Option.some.inj (ht.symm.trans ht')
    exact absurd hnot' hnot

/-! ## Operands of connectives -/

/-- Behind a left operand the machine reads the connective and its right operand. -/
theorem follows_operand (hn : EndsAt toks n)
    (hreading : IsReading toks n op.rightLevel lo none (i + 1) (.ok (g, j)))
    (hpush : Follows toks room level st (.left op f :: st) (some f) i (.ok (g, j))) :
    Follows toks room level st st (some f) i (.ok (.bin op f g, j)) := by
  obtain ⟨-, hle, hstop⟩ := hreading.place rfl
  obtain ⟨c, hc⟩ := hn.exists_token hle
  refine hpush.trans (.inr ?_)
  show run _ _ (.left op f :: _) (some g) (toks.drop j) =
    run _ _ _ (some (.bin op f g)) (toks.drop j)
  rw [drop_eq_cons hc]
  apply run_congr
  simp [settle, hstop.takesBefore hc]

/-- What follows a left operand is read, within no more calls than an atom there would need. -/
theorem exists_behind (hn : EndsAt toks n) (op : Connective) (f : Formula) (i : Nat) (hi : i ≤ n)
    (hstop : StopsBefore toks (op.rank + 1) i)
    (hlater : ∀ j, i < j → j ≤ n → ReadsAt toks n op.rightLevel j) :
    ∃ r, EndsWithin toks (callsAt n 6 i) (.behind op f) i r ∧
      IsReading toks n op.rank i (some f) i r := by
  obtain ⟨t, ht⟩ := hn.exists_token hi
  by_cases hkind : t.kind = .op op
  · have hlt : i < n := hn.lt ht (by simp [hkind])
    obtain ⟨r, hr, hreading⟩ := hlater (i + 1) (Nat.lt_succ_self i) hlt
    have hpush : ∀ {room level st}, Awaits toks i op.rank level st →
        Follows toks room level st (.left op f :: st) (some f) i r := by
      intro room level st hawaits
      refine IsReading.follows_push (.left op f) hreading ?_
      rw [drop_eq_cons ht, run_op hkind hawaits.le]
    have hfewer : callsAt n op.rightLevel (i + 1) < callsAt n 6 i :=
      callsAt_lt_of_lt (Nat.lt_succ_self i) hlt
        (Nat.le_trans op.one_le_rank op.rank_le_rightLevel)
    cases r with
    | error e =>
      refine ⟨.error e, .of_procedure (callsAt_pos (Nat.le_refl 6)) fun depth hdepth => ?_,
        .of_error hreading.ne_endless hpush⟩
      show (behind toks (descend toks depth) op f i).run = _
      rw [behind, run_bind_ok (run_tokenAt ht), if_pos hkind,
        run_bind_error (hr.run_call hfewer hdepth)]
    | ok p =>
      obtain ⟨g, j⟩ := p
      obtain ⟨hij, hjn, hstop'⟩ := hreading.place rfl
      have hinner : ∀ depth, callsAt n 6 i ≤ depth + 1 →
          (behind toks (descend toks depth) op f i).run =
            (if op.isRightAssociative then return (.bin op f g, j)
              else descend toks depth (.behind op (.bin op f g)) j : Reading).run := by
        intro depth hdepth
        rw [behind, run_bind_ok (run_tokenAt ht), if_pos hkind,
          run_bind_ok (hr.run_call hfewer hdepth)]
      cases hop : op.isRightAssociative with
      | true =>
        refine ⟨.ok (.bin op f g, j), .of_procedure (callsAt_pos (Nat.le_refl 6))
          fun depth hdepth => ?_, .of_ok (by omega) hjn ?_ fun hawaits =>
          follows_operand hn hreading (hpush hawaits)⟩
        · exact (hinner depth hdepth).trans (by rw [if_pos hop]; rfl)
        · simpa [Connective.rightLevel, hop] using hstop'
      | false =>
        -- the loop goes on from a place further right
        have hnext : StopsBefore toks (op.rank + 1) j := by
          simpa [Connective.rightLevel, hop] using hstop'
        obtain ⟨r, hr, hrest⟩ := exists_behind hn op (.bin op f g) j hjn hnext
          fun k hjk => hlater k (by omega)
        refine ⟨r, .of_procedure (callsAt_pos (Nat.le_refl 6)) fun depth hdepth => ?_,
          hrest.of_follows (by omega) (Nat.le_succ_of_le op.rank_le_four)
            fun hawaits => follows_operand hn hreading (hpush hawaits)⟩
        refine (hinner depth hdepth).trans ?_
        rw [hop, if_neg Bool.false_ne_true]
        exact hr.run_call (callsAt_lt_of_lt (by omega) hjn (by decide)) hdepth
  · refine ⟨.ok (f, i), .of_procedure (callsAt_pos (Nat.le_refl 6)) fun depth hdepth => ?_,
      .of_ok (Nat.le_refl i) hi (fun t' c ht' hc => ?_) fun _ => .inr rfl⟩
    · show (behind toks (descend toks depth) op f i).run = _
      rw [behind, run_bind_ok (run_tokenAt ht), if_neg hkind]
      rfl
    · -- the operand has ended before this token, and it is another connective
      obtain rfl : t = t' := Option.some.inj (ht.symm.trans ht')
      have hne : c.rank ≠ op.rank := fun heq => hkind (Connective.rank_injective heq ▸ hc)
      have hlt := hstop t c ht hc
      omega
termination_by n - i

theorem readsAt_rank (hn : EndsAt toks n) (op : Connective)
    (hoperand : ReadsAt toks n (op.rank + 1) i)
    (hlater : ∀ j, i < j → j ≤ n → ReadsAt toks n op.rightLevel j) : ReadsAt toks n op.rank i := by
  obtain ⟨r, hr, hreading⟩ := hoperand
  have hle := op.rank_le_four
  -- the machine does not know yet that an operand is being read, and need not know
  have hfollows : ∀ {room level st}, Awaits toks i op.rank level st →
      Follows toks room level st st none i r := by
    intro room level st hawaits
    exact hreading.follows (.of_le_five (by omega) (Nat.le_succ_of_le hawaits.le))
  have hfewer : callsAt n (op.rank + 1) i < callsAt n op.rank i := callsAt_succ_lt (by omega)
  cases r with
  | error e =>
    refine ⟨.error e, .of_procedure (callsAt_pos (by omega)) fun depth hdepth => ?_,
      .of_error hreading.ne_endless hfollows⟩
    rw [procedure_rank, operands, run_bind_error (hr.run_call hfewer hdepth)]
  | ok p =>
    obtain ⟨f, j⟩ := p
    obtain ⟨hij, hjn, hstop⟩ := hreading.place rfl
    obtain ⟨r, hr', hrest⟩ := exists_behind hn op f j hjn hstop fun k hjk => hlater k (by omega)
    refine ⟨r, .of_procedure (callsAt_pos (by omega)) fun depth hdepth => ?_,
      hrest.of_follows hij (by omega) hfollows⟩
    rw [procedure_rank, operands, run_bind_ok (hr.run_call hfewer hdepth)]
    exact hr'.run_call (callsAt_lt_of_lt hij hjn (by decide)) hdepth

/-! ## All levels -/

/-- All procedures end, with what is promised of them. -/
theorem readsAt (hn : EndsAt toks n) (i : Nat) (hi : i ≤ n) (l : Nat) (hl : 1 ≤ l) (hl' : l ≤ 6) :
    ReadsAt toks n l i := by
  -- at every place the levels come in turn, from the tightest on, and further right all of them
  have hlater : ∀ k, 1 ≤ k → k ≤ 6 → ∀ j, i < j → j ≤ n → ReadsAt toks n k j :=
    fun k hk hk' j hij hjn => readsAt hn j hjn k hk hk'
  have hright : ∀ op : Connective, ∀ j, i < j → j ≤ n → ReadsAt toks n op.rightLevel j :=
    fun op => hlater _ (Nat.le_trans op.one_le_rank op.rank_le_rightLevel)
      (Nat.le_succ_of_le op.rightLevel_le_five)
  have hatom : ReadsAt toks n 6 i := readsAt_six hn hi (hlater 1 (by decide) (by decide))
  have hneg : ReadsAt toks n 5 i := readsAt_five hn hi hatom (hlater 5 (by decide) (by decide))
  have hand : ReadsAt toks n 4 i := readsAt_rank hn .and hneg (hright .and)
  have hor : ReadsAt toks n 3 i := readsAt_rank hn .or hand (hright .or)
  have himp : ReadsAt toks n 2 i := readsAt_rank hn .imp hor (hright .imp)
  have hiff : ReadsAt toks n 1 i := readsAt_rank hn .iff himp (hright .iff)
  obtain rfl | rfl | rfl | rfl | rfl | rfl :
    l = 1 ∨ l = 2 ∨ l = 3 ∨ l = 4 ∨ l = 5 ∨ l = 6 := by omega
  · exact hiff
  · exact himp
  · exact hor
  · exact hand
  · exact hneg
  · exact hatom
termination_by n - i

/-- With nothing pending the machine ends where the phrase does. -/
theorem run_ended (ht : toks[j]? = some t) (hstop : StopsBefore toks level j) :
    run room level [] (some f) (toks.drop j) = .ok (f, toks.drop j) := by
  rw [drop_eq_cons ht]
  cases hkind : t.kind with
  | op c =>
    have hlt := hstop t c ht hkind
    simp [run, hkind, settle, hlt]
  | var => simp [run, hkind, settle]
  | not => simp [run, hkind, settle]
  | lparen => simp [run, hkind, settle]
  | rparen => simp [run, hkind, settle]
  | stop => simp [run, hkind, settle]

/-- The machine reads what the descent reads, if there is room for it. -/
theorem read_eq_of_isReading (hn : EndsAt toks n) (h : IsReading toks n l lo none i r) :
    LacksRoom (read l (toks.drop i)) ∨
      read l (toks.drop i) = r.map fun p => (p.1, toks.drop p.2) := by
  have hawaits : Awaits toks i l l [] := ⟨Nat.le_refl l, fun heq _ _ _ => heq⟩
  have hfollows : Follows toks capacity l [] [] none i r := h.follows hawaits
  refine hfollows.imp_right fun hrun => hrun.trans ?_
  cases r with
  | error e => rfl
  | ok p =>
    obtain ⟨f, j⟩ := p
    obtain ⟨-, hle, hstop⟩ := h.place rfl
    obtain ⟨t, ht⟩ := hn.exists_token hle
    exact run_ended ht hstop

section Agreement

variable {ts rest : List Token} (h : LacksRoom (read l ts) ∨
  read l ts = r.map fun p => (p.1, toks.drop p.2))
include h

/-- What the machine has read was read by the descent. -/
theorem exists_eq_ok_of_read (hok : read l ts = .ok (f, rest)) :
    ∃ j, r = .ok (f, j) ∧ rest = toks.drop j := by
  rcases h with ⟨o, hfull⟩ | hsame
  · cases hfull.symm.trans hok
  · cases r with
    | error e => cases hsame.symm.trans hok
    | ok p =>
      cases hsame.symm.trans hok
      exact ⟨p.2, rfl, rfl⟩

/-- An error of the machine is an error of the descent, unless it is about room. -/
theorem eq_error_of_read (he : ∀ o, e ≠ .tooNested o) (herror : read l ts = .error e) :
    r = .error e := by
  rcases h with ⟨o, hfull⟩ | hsame
  · exact absurd (Except.error.inj (herror.symm.trans hfull)) (he o)
  · cases r with
    | error e' => exact congrArg Except.error (Except.error.inj (hsame.symm.trans herror))
    | ok p => cases hsame.symm.trans herror

end Agreement

/-- On a row of tokens that ends in its only end mark, the procedure of every level ends, from every
place on that is not behind the end mark, within a depth of calls that is linear in the tokens
ahead. No token is looked for out of range on the way. If a phrase is read, the cursor has moved,
and not behind the end mark. The machine that reads the level does the same, unless it lacks the
room: it never misses a token, and it hands back the tokens from a place further right on, the end
mark among them. -/
theorem descend_total (toks : List Token) (n : Nat) (hn : EndsAt toks n) (level : Nat)
    (hlevel : 1 ≤ level) (hlevel' : level ≤ 6) (start : Nat) (hstart : start ≤ n) :
    (∃ r, (∀ depth, 7 * (n - start) + (7 - level) ≤ depth →
        (descend toks depth (.phrase level) start).run = some r) ∧
      r ≠ .error .endless ∧
      (∀ f j, r = .ok (f, j) → start < j ∧ j ≤ n) ∧
      (LacksRoom (read level (toks.drop start)) ∨
        read level (toks.drop start) = r.map fun p => (p.1, toks.drop p.2))) ∧
    read level (toks.drop start) ≠ .error .endless ∧
    ∀ f rest, read level (toks.drop start) = .ok (f, rest) →
      ∃ j, start < j ∧ j ≤ n ∧ rest = toks.drop j := by
  obtain ⟨r, hr, hreading⟩ := readsAt hn start hstart level hlevel hlevel'
  have hplace : ∀ f j, r = .ok (f, j) → start < j ∧ j ≤ n := by
    intro f j heq
    obtain ⟨hlt, hle, -⟩ := hreading.place heq
    exact ⟨hlt, hle⟩
  have hread := read_eq_of_isReading hn hreading
  refine ⟨⟨r, hr, hreading.inRange, hplace, hread⟩, fun hendless => ?_, fun f rest hok => ?_⟩
  · exact hreading.inRange (eq_error_of_read hread (by simp) hendless)
  · obtain ⟨j, hj, hrest⟩ := exists_eq_ok_of_read hread hok
    obtain ⟨hlt, hle⟩ := hplace f j hj
    exact ⟨j, hlt, hle, hrest⟩

/-- The tokens of an implication from a negated conjunction. -/
def negatedTokens : List Token :=
  [⟨.not, "¬", 0⟩, ⟨.lparen, "(", 1⟩, ⟨.var, "A", 2⟩, ⟨.op .and, "∧", 3⟩, ⟨.var, "B", 4⟩,
    ⟨.rparen, ")", 5⟩, ⟨.op .imp, "->", 6⟩, ⟨.var, "C", 8⟩, ⟨.stop, "", 9⟩]

theorem endsAt_negatedTokens : EndsAt negatedTokens 8 := by
  refine ⟨rfl, fun {i t} ht => ?_⟩
  obtain ⟨hlt, rfl⟩ := List.getElem?_eq_some_iff.mp ht
  revert i
  decide

/-- The parenthesis in it is an atom, and at the end mark nothing begins. -/
theorem descend_total_samples :
    (∀ depth, 50 ≤ depth → (descend negatedTokens depth (.phrase 6) 1).run =
      some (.ok (.and (.var "A") (.var "B"), 6))) ∧
    (∀ depth, 6 ≤ depth → (descend negatedTokens depth (.phrase 1) 8).run =
      some (.error (.unexpectedEnd 9))) := by
  constructor
  · obtain ⟨⟨r, hr, -, hplace, hread⟩, -⟩ := descend_total negatedTokens 8 endsAt_negatedTokens 6
      (by decide) (by decide) 1 (by decide)
    have hmachine : read 6 (negatedTokens.drop 1) =
        .ok (.and (.var "A") (.var "B"), negatedTokens.drop 6) := rfl
    obtain ⟨j, rfl, hdrop⟩ := exists_eq_ok_of_read hread hmachine
    -- a place in the row is known by the number of tokens from there on
    have hlength : 9 - 6 = 9 - j := by simpa [negatedTokens] using congrArg List.length hdrop
    have hle := (hplace _ j rfl).2
    obtain rfl : j = 6 := by omega
    exact hr
  · obtain ⟨⟨r, hr, -, -, hread⟩, -⟩ := descend_total negatedTokens 8 endsAt_negatedTokens 1
      (by decide) (by decide) 8 (by decide)
    have hmachine : read 1 (negatedTokens.drop 8) = .error (.unexpectedEnd 9) := rfl
    obtain rfl := eq_error_of_read hread (by simp) hmachine
    exact hr

end Reader

end Propositional
