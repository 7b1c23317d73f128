import Propositional.Proofs.Refusals
import Propositional.Proofs.Scripts
import Propositional.Proofs.Solutions

/-!
# Legible exercises

The givens and the goal of an exercise may be any documents, and nobody looks at them before a
solution is checked. Whatever is neither a text nor a list of signs ends the check there: an object
with a report, everything else without one. A list of signs writes a variable whose name is the
list, and such a name can be shown alone but not be joined to another one. The only rule that joins
lines is adjunction. So there are three ways for a check to end without a report: a given that can
not be read stands before all objects, the goal can not be read, or adjunction is allowed and a
given is a variable that was written as a list.

## Main definitions

* `Value.isLegible`: a document can be read as a formula, or is refused with a report
* `Exercise.IsLegible`: no solution of the exercise ends its check without a report

## Main results

* `Formula.exists_var_of_ofSigns`: what lists of signs write
* `Justification.isWritable_of_validate`: the right conclusion in a refusal can be written
* `Exercise.verify_of_isLegible`: solutions of a legible exercise have a verdict or a report
* `Exercise.exists_breach_of_not_isLegible`: some solution of any other exercise has neither
-/

namespace Propositional

/-! ## Formulas that can be written -/

namespace Formula

variable {f l r : Formula}

theorem isWritable_of_isNamed (h : f.IsNamed) : f.isWritable = true := by
  cases f with
  | var x => rfl
  | neg f => exact List.all_eq_true.mpr h
  | bin op l r => exact List.all_eq_true.mpr h

theorem isNamed_of_isWritable_bin {op : Connective} (h : (bin op l r).isWritable = true) :
    l.IsNamed ∧ r.IsNamed := by
  have hnames : ∀ x ∈ (bin op l r).leaves, Token.isName x = true := List.all_eq_true.mp h
  exact ⟨fun x hx => hnames x (List.mem_append_left _ hx),
    fun x hx => hnames x (List.mem_append_right _ hx)⟩

theorem inherited_isWritable : Inherited fun f => f.isWritable = true := by
  intro op l r h
  obtain ⟨hl, hr⟩ := isNamed_of_isWritable_bin h
  exact ⟨isWritable_of_isNamed hl, isWritable_of_isNamed hr⟩

theorem isNamed_bin {op : Connective} (hl : l.IsNamed) (hr : r.IsNamed) : (bin op l r).IsNamed := by
  intro x hx
  rcases List.mem_append.mp hx with hx | hx
  · exact hl x hx
  · exact hr x hx

end Formula

/-- A conclusion has well-formed names if the lines can be written, unless it adjoins them: every
other rule takes it from cited lines with a connective. -/
theorem Follows.isNamed {lines : Lines} {j : Justification} {F : Formula} (h : Follows lines j F)
    (hax : ∀ n, j ≠ .ax n) (hadj : ∀ a b, j ≠ .adj a b)
    (hlines : lines.Have fun f => f.isWritable = true) : F.IsNamed := by
  have hsides {n : Value} {op : Connective} {l r : Formula} (hn : lines.Cites n (.bin op l r)) :
      l.IsNamed ∧ r.IsNamed := Formula.isNamed_of_isWritable_bin (hlines.of_cites hn)
  cases h with
  | ax => exact absurd rfl (hax _)
  | adj => exact absurd rfl (hadj _ _)
  | mp _ hb => exact (hsides hb).2
  | mt ha _ => exact (hsides ha).1
  | hs h =>
    obtain ⟨m, -, hXY⟩ := h.exists_left
    obtain ⟨n, -, hYZ⟩ := h.exists_right
    exact Formula.isNamed_bin (hsides hXY).1 (hsides hYZ).2
  | dsRight h =>
    obtain ⟨n, -, hXY⟩ := h.exists_left
    exact (hsides hXY).2
  | dsLeft h =>
    obtain ⟨n, -, hXY⟩ := h.exists_left
    exact (hsides hXY).1
  | simpLeft h => exact (hsides h).1
  | simpRight h => exact (hsides h).2
  | iffForth h => exact Formula.isNamed_bin (hsides h).1 (hsides h).2
  | iffBack h => exact Formula.isNamed_bin (hsides h).2 (hsides h).1

/-- The conclusion that a refusal names instead can be written, if the lines can and either have
well-formed names or are not adjoined. -/
theorem Justification.isWritable_of_validate {lines : Lines} {j : Justification}
    {F claimed expected : Formula} {rule : String}
    (hlines : lines.Have fun f => f.isWritable = true)
    (hadj : (∀ a b, j ≠ .adj a b) ∨ lines.Have Formula.IsNamed)
    (h : j.validate lines F = .error (.wrongConclusion rule claimed expected)) :
    expected.isWritable = true := by
  rcases validate_eq_error_cases h with ⟨n, rfl, hn⟩ | ⟨hax, hc | ⟨c, hc, ho⟩⟩
  · rcases validateInstance_eq_error_cases hn with ⟨-, ho⟩ | ho | ⟨S, -, ho⟩ <;> cases ho
  · exact objectsWith_conclusions Formula.inherited_isWritable hlines j _ hc expected
      (List.mem_cons_of_mem _ List.mem_cons_self)
  · cases ho
    have hfollows : Follows lines j c.preferred :=
      (mem_conclusions_iff hax).mp ⟨c, hc, List.mem_cons_self⟩
    apply Formula.isWritable_of_isNamed
    rcases hadj with hadj | hnamed
    · exact hfollows.isNamed hax hadj hlines
    · intro x hx
      obtain ⟨n, -, g, hg, hxg⟩ := hfollows.exists_mem_leaves hax x hx
      exact hnamed.of_cites hg x hxg

/-! ## Lists of signs -/

namespace Signs

/-- A list of signs is scanned to names, each the text of a list, and an end mark behind them. -/
theorem exists_names_of_scanFrom {offset : Nat} {name : Option (Nat × List Value)}
    {vs : List Value} {ts : List Token} (h : scanFrom offset name vs = .ok ts) :
    ∃ us t, ts = us ++ [t] ∧ t.kind = .stop ∧
      ∀ u ∈ us, u.kind = .var ∧ ∃ items, u.text = (Value.list items).display := by
  have hname (name : Option (Nat × List Value)) :
      ∀ u ∈ (name.map fun n => nameToken n.1 n.2).toList,
        u.kind = .var ∧ ∃ items, u.text = (Value.list items).display := by
    intro u hu
    obtain ⟨n, -, rfl⟩ := Option.map_eq_some_iff.mp (Option.mem_toList.mp hu)
    exact ⟨rfl, n.2.reverse, rfl⟩
  induction vs generalizing offset name ts with
  | nil =>
    cases h
    exact ⟨_, _, rfl, rfl, hname name⟩
  | cons v vs ih =>
    unfold scanFrom at h
    split at h
    · split at h
      · exact ih h
      · split at h
        · cases hrest : scanFrom (offset + 1) none vs with
          | error b =>
            rw [hrest] at h
            cases h
          | ok ts' =>
            rw [hrest] at h
            cases h
            obtain ⟨us, t, rfl, ht, hus⟩ := ih hrest
            refine ⟨_ ++ us, t, (List.append_assoc ..).symm, ht, fun u hu => ?_⟩
            rcases List.mem_append.mp hu with hu | hu
            · exact hname _ u hu
            · exact hus u hu
        · cases h
    · split at h
      · exact ih h
      · split at h
        · exact ih h
        · cases h
    · cases h
    · cases h

end Signs

/-- Names and end marks take no room while they are read. -/
theorem Reader.tokensWeight_eq_zero {ts : List Token}
    (h : ∀ t ∈ ts, t.kind = .var ∨ t.kind = .stop) : tokensWeight ts = 0 := by
  induction ts with
  | nil => rfl
  | cons t ts ih =>
    obtain ⟨ht, hts⟩ := List.forall_mem_cons.mp h
    have hzero : tokenWeight t = 0 := by
      rcases ht with ht | ht <;> simp [tokenWeight, ht]
    rw [tokensWeight, hzero, ih hts]

/-- Names alone write no more than a variable. -/
theorem Takes.exists_var {l n : Nat} {ts : List Token} {f : Formula} (h : Takes l ts f n)
    (hts : ∀ t ∈ ts, t.kind = .var) : ∃ t ∈ ts, f = .var t.text := by
  induction h with
  | @var t ht => exact ⟨t, List.mem_singleton.mpr rfl, rfl⟩
  | paren ho _ _ =>
    have hvar := hts _ List.mem_cons_self
    rw [ho] at hvar
    cases hvar
  | atom _ ih | operand _ ih => exact ih hts
  | neg ht _ =>
    have hvar := hts _ List.mem_cons_self
    rw [ht] at hvar
    cases hvar
  | bin _ ht _ =>
    have hvar := hts _ (List.mem_append_right _ List.mem_cons_self)
    rw [ht] at hvar
    cases hvar

namespace Formula

variable {maxDepth : Int} {signs : List Value} {f : Formula}

/-- A list of signs writes at most a variable, whose name is the text of a list. -/
theorem exists_var_of_ofSigns (h : ofSigns maxDepth signs = .ok (.ok f)) :
    (∃ items, f = .var (Value.list items).display) ∧ 1 ≤ maxDepth := by
  unfold ofSigns at h
  split at h
  · cases h
  next ts hts =>
  obtain ⟨hread, hheight⟩ := ofTokens_eq_ok_iff.mp (Except.ok.inj h)
  obtain ⟨us, t, rfl, ht, hus⟩ := Signs.exists_names_of_scanFrom hts
  have hunmarked : Reader.Unmarked us := by
    intro u hu hstop
    rw [(hus u hu).1] at hstop
    cases hstop
  obtain ⟨n, hn⟩ := (Reader.derives_of_readAll hunmarked hread).exists_takes
  obtain ⟨u, hu, rfl⟩ := hn.exists_var fun u hu => (hus u hu).1
  obtain ⟨items, hitems⟩ := (hus u hu).2
  refine ⟨⟨items, by rw [hitems]⟩, ?_⟩
  rw [height] at hheight
  omega

/-- A list of signs is never read past its end. -/
theorem isPastEnd_of_ofSigns {e : SyntaxError} (h : ofSigns maxDepth signs = .ok (.error e)) :
    e.isPastEnd = false := by
  unfold ofSigns at h
  split at h
  · cases h
  next ts hts =>
  obtain ⟨us, t, rfl, ht, hus⟩ := Signs.exists_names_of_scanFrom hts
  have hweight : Reader.tokensWeight (us ++ [t]) = 0 :=
    Reader.tokensWeight_eq_zero fun u hu => by
      rcases List.mem_append.mp hu with hu | hu
      · exact .inl (hus u hu).1
      · rw [List.mem_singleton.mp hu]
        exact .inr ht
  rw [← Bool.not_eq_true]
  intro hpast
  have hmark : ∃ u ∈ us ++ [t], u.kind = .stop :=
    ⟨t, List.mem_append_right us List.mem_cons_self, ht⟩
  have hlt := Reader.lt_of_run_tooNested (run_of_isPastEnd hmark (Except.ok.inj h) hpast)
  rw [Reader.demand, hweight] at hlt
  cases hlt

/-- The text of a list is no name: it begins with a bracket. -/
theorem isName_display_list (items : List Value) :
    Token.isName (Value.list items).display = false := by
  have hdisplay : (Value.list items).display.toList =
      '[' :: (String.intercalate ", " (Value.displayItems items) ++ "]").toList := by
    rw [Value.display, String.append_assoc, String.toList_append]
    rfl
  rw [Token.isName, hdisplay]
  rfl

/-- A document writes the formula of a text, or a variable as a list of signs. -/
theorem ofValue_eq_ok_cases {v : Value} (h : ofValue maxDepth v = .ok (.ok f)) :
    (∃ text, parse maxDepth text = .ok f) ∨
      ∃ signs, v = .list signs ∧ ofSigns maxDepth signs = .ok (.ok f) := by
  unfold ofValue at h
  split at h
  · next text => exact .inl ⟨text, Except.ok.inj h⟩
  · next signs => exact .inr ⟨signs, rfl, h⟩
  · exact .inl ⟨"", Except.ok.inj h⟩
  · cases h
  · cases h

/-- What a document writes keeps to the limit on heights. -/
theorem height_le_of_ofValue {v : Value} (h : ofValue maxDepth v = .ok (.ok f)) :
    (f.height : Int) ≤ maxDepth := by
  rcases ofValue_eq_ok_cases h with ⟨text, htext⟩ | ⟨signs, -, hsigns⟩
  · exact height_le_of_parse htext
  · obtain ⟨⟨items, rfl⟩, hmax⟩ := exists_var_of_ofSigns hsigns
    rw [height]
    omega

/-- What a document writes can be written. -/
theorem isWritable_of_ofValue {v : Value} (h : ofValue maxDepth v = .ok (.ok f)) :
    f.isWritable = true := by
  rcases ofValue_eq_ok_cases h with ⟨text, htext⟩ | ⟨signs, -, hsigns⟩
  · exact isWritable_of_isNamed (isNamed_of_parse htext)
  · obtain ⟨⟨items, rfl⟩, -⟩ := exists_var_of_ofSigns hsigns
    rfl

/-- A document is read past its end only if it is a text that strains the reader. -/
theorem isPastEnd_of_ofValue {v : Value} {e : SyntaxError}
    (hv : ∀ text, v = .text text → ¬Strained text) (h : ofValue maxDepth v = .ok (.error e)) :
    e.isPastEnd = false := by
  unfold ofValue at h
  split at h
  · next text => exact Proof.isPastEnd_eq_false (hv text rfl) (Except.ok.inj h)
  · exact isPastEnd_of_ofSigns h
  · exact Proof.isPastEnd_eq_false (not_strained_of_length_le (Nat.zero_le _)) (Except.ok.inj h)
  · cases h
  · cases h

end Formula

/-! ## Legible documents -/

namespace Value

/-- Whether a document is an object with fields. -/
def isFilled : Value → Bool
  | .object (_ :: _) => true
  | _ => false

/-- Whether a document is read as a formula or refused with a report: a text, an object, or a list
that holds nothing but signs of names and white space. -/
def isLegible : Value → Bool
  | .text _ => true
  | .list signs => (Signs.scan signs).toOption.isSome
  | .object _ => true
  | _ => false

theorem isLegible_of_isFilled {v : Value} (h : v.isFilled = true) : v.isLegible = true := by
  unfold isFilled at h
  split at h
  · rfl
  · cases h

end Value

namespace Formula

/-- A document is read, or it is an object with fields, or it is not legible. -/
theorem ofValue_cases (maxDepth : Int) (v : Value) :
    (v.isFilled = false ∧ v.isLegible = true ∧ ∃ r, ofValue maxDepth v = .ok r) ∨
      (v.isFilled = true ∧ ofValue maxDepth v = .error (.notFound (.int 0))) ∨
      (v.isFilled = false ∧ v.isLegible = false ∧
        ∃ b, ofValue maxDepth v = .error (.breach b)) := by
  cases v with
  | text text => exact .inl ⟨rfl, rfl, _, rfl⟩
  | list signs =>
    cases hscan : Signs.scan signs with
    | ok ts =>
      refine .inl ⟨rfl, ?_, ofTokens maxDepth ts, ?_⟩
      · rw [Value.isLegible, hscan]
        rfl
      · rw [ofValue, ofSigns, hscan]
    | error b =>
      refine .inr (.inr ⟨rfl, ?_, b, ?_⟩)
      · rw [Value.isLegible, hscan]
        rfl
      · rw [ofValue, ofSigns, hscan]
  | object fields =>
    cases fields with
    | nil => exact .inl ⟨rfl, rfl, _, rfl⟩
    | cons field fields => exact .inr (.inl ⟨rfl, rfl⟩)
  | null | bool | int | real => exact .inr (.inr ⟨rfl, rfl, _, rfl⟩)

end Formula

namespace Exercise

/-- Whether documents are legible up to the first object with fields. -/
def areLegible : List Value → Bool
  | [] => true
  | v :: vs => v.isFilled || v.isLegible && areLegible vs

/-- The givens are legible up to the first object with fields. If there is none, the goal is
legible, too, where one is asked for, and if adjunction is allowed, no given is a variable that was
written as a list of signs. -/
def IsLegible (maxDepth : Int) (e : Exercise) : Prop :=
  areLegible e.given = true ∧
    (e.given.any Value.isFilled = false →
      (e.isRefutation = false → e.goal = .null ∨ e.goal.isLegible = true) ∧
      ("ADJ" ∈ e.rules → ∀ signs f, .list signs ∈ e.given →
        Formula.ofSigns maxDepth signs ≠ .ok (.ok f)))

/-- No text among the givens and the goal strains the reader. -/
def IsUnstrained (e : Exercise) : Prop :=
  ∀ text, .text text ∈ e.goal :: e.given → ¬Formula.Strained text

variable {maxDepth : Int} {vs : List Value} {rs : List Reading}

/-- The givens are read up to the first object with fields, or up to the first that is not
legible. -/
theorem readings_cases (maxDepth : Int) (vs : List Value) :
    (vs.any Value.isFilled = false ∧ areLegible vs = true ∧
        ∃ rs, readings maxDepth vs = (rs, none)) ∨
      (vs.any Value.isFilled = true ∧ areLegible vs = true ∧
        ∃ rs, readings maxDepth vs = (rs, some (.notFound (.int 0)))) ∨
      (areLegible vs = false ∧ ∃ rs b, readings maxDepth vs = (rs, some (.breach b))) := by
  induction vs with
  | nil => exact .inl ⟨rfl, rfl, [], rfl⟩
  | cons v vs ih =>
    rw [List.any_cons, areLegible, readings]
    rcases Formula.ofValue_cases maxDepth v with
      ⟨hfilled, hlegible, r, hr⟩ | ⟨hfilled, hf⟩ | ⟨hfilled, hlegible, b, hb⟩
    · rw [hfilled, hlegible, hr]
      rcases ih with ⟨hany, hall, rs, hrs⟩ | ⟨hany, hall, rs, hrs⟩ | ⟨hall, rs, b, hrs⟩
      · rw [hany, hall, hrs]
        exact .inl ⟨rfl, rfl, r :: rs, rfl⟩
      · rw [hany, hall, hrs]
        exact .inr (.inl ⟨rfl, rfl, r :: rs, rfl⟩)
      · rw [hall, hrs]
        exact .inr (.inr ⟨rfl, r :: rs, b, rfl⟩)
    · rw [hfilled, hf]
      exact .inr (.inl ⟨rfl, rfl, [], rfl⟩)
    · rw [hfilled, hlegible, hb]
      exact .inr (.inr ⟨rfl, [], b, rfl⟩)

/-- Every reading is that of one of the givens. -/
theorem exists_ofValue_of_mem_readings {failure : Option Failure} {r : Reading}
    (h : readings maxDepth vs = (rs, failure)) (hr : r ∈ rs) :
    ∃ v ∈ vs, Formula.ofValue maxDepth v = .ok r := by
  induction vs generalizing rs with
  | nil =>
    cases h
    cases hr
  | cons v vs ih =>
    unfold readings at h
    split at h
    · cases h
      cases hr
    next r' hv =>
    cases h
    rcases List.mem_cons.mp hr with rfl | hr
    · exact ⟨v, List.mem_cons_self, hv⟩
    · obtain ⟨w, hw, hwr⟩ := ih rfl hr
      exact ⟨w, List.mem_cons_of_mem v hw, hwr⟩

theorem IsUnstrained.of_given {e : Exercise} (h : e.IsUnstrained) {text : String}
    (htext : .text text ∈ e.given) : ¬Formula.Strained text :=
  h text (List.mem_cons_of_mem e.goal htext)

theorem IsUnstrained.of_goal {e : Exercise} (h : e.IsUnstrained) {text : String}
    (htext : e.goal = .text text) : ¬Formula.Strained text :=
  h text (htext ▸ List.mem_cons_self)

theorem height_le_of_mem_readings {failure : Option Failure} {f : Formula}
    (h : readings maxDepth vs = (rs, failure)) (hf : .ok f ∈ rs) :
    (f.height : Int) ≤ maxDepth := by
  obtain ⟨v, -, hv⟩ := exists_ofValue_of_mem_readings h hf
  exact Formula.height_le_of_ofValue hv

theorem isPastEnd_of_mem_readings {failure : Option Failure} {e : SyntaxError}
    (hvs : ∀ text, .text text ∈ vs → ¬Formula.Strained text)
    (h : readings maxDepth vs = (rs, failure)) (he : .error e ∈ rs) : e.isPastEnd = false := by
  obtain ⟨v, hmem, hv⟩ := exists_ofValue_of_mem_readings h he
  exact Formula.isPastEnd_of_ofValue (fun text htext => hvs text (htext ▸ hmem)) hv

/-! ## Lines that end a check -/

section Lines

variable {s : Settings} {a : Attempt} {c : Checked}

/-- A check of givens alone ends at none of them that is read or reported. -/
theorem breach?_of_steps_eq_nil (ha : a.steps = [])
    (hreads : ∀ e, .error e ∈ a.given → e.isPastEnd = false) (hc : c ∈ a.derive s.maxDepth) :
    breach? c = none := by
  obtain ⟨k, hk⟩ := List.mem_iff_getElem?.mp hc
  rcases Attempt.getElem?_derive_cases hk with ⟨r, hr, rfl⟩ | ⟨i, t, -, hi, -⟩
  · cases r with
    | ok f => rfl
    | error e =>
      have hreported := Breach.ofSyntaxError?_eq_none (hreads e (List.mem_of_getElem? hr))
      simp [breach?, Attempt.checkGiven, Outcome.lineBreach?, Breach.ofFault?, hreported]
  · rw [ha] at hi
    cases hi

/-- The conclusion that is named instead of a wrong one can be written, if the givens can and either
have well-formed names or are not adjoined. -/
theorem isWritable_of_mem_derive (hwritable : ∀ f, .ok f ∈ a.given → f.isWritable = true)
    (hadj : (∀ t ∈ a.steps, ∀ m n, t.justification ≠ .adj m n) ∨
      ∀ f, .ok f ∈ a.given → f.IsNamed)
    (hc : c ∈ a.derive s.maxDepth) {rule : String} {claimed expected : Formula}
    (hfault : c.fault = some (.step (.wrongConclusion rule claimed expected))) :
    expected.isWritable = true := by
  have hdiagnostic : c.diagnostic? =
      some { line := c.label, fault := .step (.wrongConclusion rule claimed expected) } := by
    rw [Checked.diagnostic?, hfault, Option.map_some]
  obtain ⟨k, hk⟩ := List.mem_iff_getElem?.mp hc
  rcases Attempt.getElem?_derive_cases hk with ⟨r, -, rfl⟩ | ⟨i, t, -, hi, rfl⟩
  · obtain ⟨e, -, he⟩ := Attempt.checkGiven_diagnostic?_eq_some_iff.mp hdiagnostic
    cases congrArg Diagnostic.fault he
  rcases Attempt.checkStep_diagnostic?_eq_some_iff.mp hdiagnostic with
    ⟨e, -, he⟩ | ⟨F, o, -, ho, he⟩
  · cases congrArg Diagnostic.fault he
  cases congrArg Diagnostic.fault he
  -- the steps were parsed, so they have well-formed names whatever the givens have
  refine Justification.isWritable_of_validate (fun f hf => ?_) ?_ ho
  · exact Attempt.have_written hwritable
      (fun _ _ h => Formula.isWritable_of_isNamed (Formula.isNamed_of_parse h)) f
      (List.mem_of_mem_take hf)
  · rcases hadj with hadj | hnamed
    · exact .inl (hadj t (List.mem_of_getElem? hi))
    · exact .inr fun f hf => Attempt.have_written hnamed
        (fun _ _ => Formula.isNamed_of_parse) f (List.mem_of_mem_take hf)

/-- If there is room, no line of a fair solution ends its check, unless lines are adjoined that have
no well-formed names. -/
theorem breach?_eq_none (hroom : 3 * (s.maxDepth + 1) ≤ Reader.capacity)
    (hkeeps : a.KeepsTo s.maxDepth) (hreads : a.ReadsWithin)
    (hwritable : ∀ f, .ok f ∈ a.given → f.isWritable = true) (hsteps : Step.AreFair a.steps)
    (hadj : (∀ t ∈ a.steps, ∀ m n, t.justification ≠ .adj m n) ∨
      ∀ f, .ok f ∈ a.given → f.IsNamed)
    (hc : c ∈ a.derive s.maxDepth) : breach? c = none := by
  have hline : Outcome.lineBreach? c = none :=
    Outcome.lineBreach?_eq_none hroom hkeeps (fun _ => Attempt.ofFault?_eq_none hreads hsteps) hc
  unfold breach?
  split
  · next hfault => rw [if_pos (isWritable_of_mem_derive hwritable hadj hc hfault), hline]
  · exact hline

end Lines

/-! ## Verdicts -/

section Verdicts

variable {s : Settings} {e : Exercise} {steps : List Step}

/-- A given that is not read ends the check with its failure, if no given does before. -/
theorem verify_of_readings {f : Failure} (hallowed : e.forbidden steps = [])
    (h : readings s.maxDepth e.given = (rs, some f)) :
    e.verify s steps = (do
      let _ ← Outcome.linesOf breach? s { given := rs, steps := [] }
      .fail f) := by
  unfold verify
  simp only [hallowed, h]

theorem verify_eq (hallowed : e.forbidden steps = [])
    (h : readings s.maxDepth e.given = (rs, none)) :
    e.verify s steps =
      if e.isRefutation then Outcome.refuteOf breach? s { given := rs, steps }
      else e.verifyGoal s rs steps := by
  unfold verify
  simp only [hallowed, h]

theorem verifyGoal_null (h : e.goal = .null) :
    e.verifyGoal s rs steps = Outcome.checkOf breach? s { given := rs, steps } := by
  rw [verifyGoal, h]

theorem verifyGoal_of_ok {r : Reading} (h : Formula.ofValue s.maxDepth e.goal = .ok r) :
    e.verifyGoal s rs steps =
      Outcome.checkOf breach? s { given := rs, steps, goal := some r } := by
  unfold verifyGoal
  split
  · next hgoal =>
    rw [hgoal] at h
    cases h
  · rw [h]

/-- A goal that is not read ends the check with its failure, if no line does before. -/
theorem verifyGoal_of_error {f : Failure} (hgoal : e.goal ≠ .null)
    (h : Formula.ofValue s.maxDepth e.goal = .error f) :
    e.verifyGoal s rs steps = (do
      let _ ← Outcome.linesOf breach? s { given := rs, steps }
      .fail f) := by
  unfold verifyGoal
  split
  · next hnull => exact absurd hnull hgoal
  · rw [h]

section Legible

variable (hroom : 3 * (s.maxDepth + 1) ≤ Reader.capacity) (hsteps : Step.AreFair steps)
  (htexts : e.IsUnstrained)

include hroom htexts

include hsteps in
/-- No line of an allowed solution ends the check, if no variable written as a list of signs can be
adjoined. -/
theorem breach?_of_readings (hrs : readings s.maxDepth e.given = (rs, none))
    (hallowed : e.forbidden steps = [])
    (hadj : "ADJ" ∈ e.rules → ∀ signs f, .list signs ∈ e.given →
      Formula.ofSigns s.maxDepth signs ≠ .ok (.ok f)) (goal : Option Reading) :
    ∀ c ∈ Attempt.derive s.maxDepth ⟨rs, steps, goal⟩, breach? c = none := by
  have hkeeps : Attempt.KeepsTo s.maxDepth ⟨rs, steps, none⟩ :=
    ⟨fun _ => height_le_of_mem_readings hrs, fun _ h => by cases h⟩
  have hreads : Attempt.ReadsWithin ⟨rs, steps, none⟩ :=
    ⟨fun _ => isPastEnd_of_mem_readings (fun _ => htexts.of_given) hrs, fun _ h => by cases h⟩
  have hwritable : ∀ f, .ok f ∈ rs → f.isWritable = true := by
    intro f hf
    obtain ⟨v, -, hv⟩ := exists_ofValue_of_mem_readings hrs hf
    exact Formula.isWritable_of_ofValue hv
  intro c hc
  apply breach?_eq_none (a := ⟨rs, steps, none⟩) hroom hkeeps hreads hwritable hsteps ?_ hc
  by_cases hrule : "ADJ" ∈ e.rules
  · refine .inr fun f hf => ?_
    obtain ⟨v, hv, hvf⟩ := exists_ofValue_of_mem_readings hrs hf
    rcases Formula.ofValue_eq_ok_cases hvf with ⟨text, htext⟩ | ⟨signs, rfl, hsigns⟩
    · exact Formula.isNamed_of_parse htext
    · exact absurd hsigns (hadj hrule signs f hv)
  · -- a step that adjoins lines would not be allowed
    refine .inl fun t ht m n hj => hrule ?_
    have hallows := forbidden_eq_nil_iff.mp hallowed t ht
    rw [Allows, hj] at hallows
    exact hallows

/-- A goal that is legible, or none, leads to a verdict, or the object in its place is reported. -/
theorem verifyGoal_of_isLegible (hrs : readings s.maxDepth e.given = (rs, none))
    (hbreach : ∀ goal, ∀ c ∈ Attempt.derive s.maxDepth ⟨rs, steps, goal⟩, breach? c = none)
    (hgoal : e.goal = .null ∨ e.goal.isLegible = true) :
    (∃ v, (e.verifyGoal s rs steps).result = .ok v) ∨
      (e.verifyGoal s rs steps).result = .error (.notFound (.int 0)) := by
  have hkeeps {goal : Option Reading}
      (h : ∀ f, goal = some (.ok f) → (f.height : Int) ≤ s.maxDepth) :
      Attempt.KeepsTo s.maxDepth ⟨rs, steps, goal⟩ :=
    ⟨fun _ => height_le_of_mem_readings hrs, h⟩
  by_cases hnull : e.goal = .null
  · rw [verifyGoal_null hnull]
    exact .inl ⟨_, Outcome.checkOf_result (hbreach none) hroom (hkeeps fun _ h => by cases h)
      fun _ h => by cases h⟩
  rcases Formula.ofValue_cases s.maxDepth e.goal with
    ⟨-, -, r, hr⟩ | ⟨-, hf⟩ | ⟨-, hillegible, -⟩
  · rw [verifyGoal_of_ok hr]
    refine .inl ⟨_, Outcome.checkOf_result (hbreach (some r)) hroom (hkeeps fun f hf => ?_) ?_⟩
    · cases hf
      exact Formula.height_le_of_ofValue hr
    · intro e' he'
      cases he'
      exact Formula.isPastEnd_of_ofValue (fun _ => htexts.of_goal) hr
  · rw [verifyGoal_of_error hnull hf]
    exact .inr (Outcome.result_bind_of_ok (Outcome.linesOf_result (hbreach none)))
  · rw [hgoal.resolve_left hnull] at hillegible
    cases hillegible

include hsteps

/-- If there is room, a fair solution of a legible exercise has a verdict, or an object is
reported. -/
theorem verify_of_isLegible (hlegible : e.IsLegible s.maxDepth) :
    (∃ v, (e.verify s steps).result = .ok v) ∨
      (e.verify s steps).result = .error (.notFound (.int 0)) := by
  by_cases hallowed : e.forbidden steps = []
  · rcases readings_cases s.maxDepth e.given with
      ⟨hany, -, rs, hrs⟩ | ⟨-, -, rs, hrs⟩ | ⟨hall, -⟩
    · obtain ⟨hgoal, hadj⟩ := hlegible.2 hany
      have hbreach := breach?_of_readings hroom hsteps htexts hrs hallowed hadj
      rw [verify_eq hallowed hrs]
      by_cases hmode : e.isRefutation = true
      · rw [if_pos hmode]
        refine .inl ⟨_, Outcome.refuteOf_result (hbreach none) hroom ?_⟩
        exact ⟨fun _ => height_le_of_mem_readings hrs, fun _ h => by cases h⟩
      · rw [if_neg hmode]
        exact verifyGoal_of_isLegible hroom htexts hrs hbreach (hgoal (by simpa using hmode))
    · rw [verify_of_readings hallowed hrs]
      refine .inr (Outcome.result_bind_of_ok (Outcome.linesOf_result fun c hc => ?_))
      exact breach?_of_steps_eq_nil rfl
        (fun _ => isPastEnd_of_mem_readings (fun _ => htexts.of_given) hrs) hc
    · rw [hlegible.1] at hall
      cases hall
  · -- what is not allowed is listed without a look at the givens
    rw [forbidden_eq_nil_iff] at hallowed
    push Not at hallowed
    refine .inl ⟨_, verify_of_named hallowed fun t ht => ?_⟩
    rintro ⟨n, hn, -, hlong⟩
    have hshort := hsteps.short t ht
    rw [hn] at hshort
    simp [Justification.isShort, Justification.numbers, hlong] at hshort

end Legible

/-! ## Checks that end without a report -/

/-- A line that ends the check does so in every exercise. -/
theorem exists_breach_of_mem_derive (hallowed : e.forbidden steps = [])
    (hrs : readings s.maxDepth e.given = (rs, none)) {c : Checked}
    (hc : c ∈ Attempt.derive s.maxDepth ⟨rs, steps, none⟩) (h : breach? c ≠ none) :
    ∃ b, (e.verify s steps).result = .error (.breach b) := by
  rw [verify_eq hallowed hrs]
  by_cases hmode : e.isRefutation = true
  · rw [if_pos hmode]
    exact Outcome.exists_breach_of_mem hc h
  rw [if_neg hmode]
  by_cases hnull : e.goal = .null
  · rw [verifyGoal_null hnull]
    exact Outcome.exists_breach_of_mem hc h
  cases hgoal : Formula.ofValue s.maxDepth e.goal with
  | ok r =>
    rw [verifyGoal_of_ok hgoal]
    exact Outcome.exists_breach_of_mem hc h
  | error f =>
    rw [verifyGoal_of_error hnull hgoal]
    obtain ⟨b, hb⟩ := Outcome.exists_breach_of_mem hc h
    exact ⟨b, Outcome.result_bind_of_error hb⟩

/-- What fails after a check of lines fails without a report, whether the check ends or not. -/
theorem exists_breach_of_linesOf {α : Type} (a : Attempt) (b : Breach) :
    ∃ b', (Outcome.linesOf breach? s a >>= fun _ =>
      (Outcome.fail (.breach b) : Outcome α)).result = .error (.breach b') := by
  cases hlines : (Outcome.linesOf breach? s a).result with
  | ok lines => exact ⟨b, Outcome.result_bind_of_ok hlines⟩
  | error f =>
    obtain ⟨b', rfl⟩ : ∃ b', f = .breach b' := by
      unfold Outcome.linesOf Outcome.whenCheckable at hlines
      dsimp only at hlines
      split at hlines
      · cases hlines
      · cases hlines
        exact ⟨_, rfl⟩
    exact ⟨b', Outcome.result_bind_of_error hlines⟩

/-- A document of a step that claims of a variable that it adjoins a line to itself. -/
def adjoiningItem (k : Nat) : Value :=
  .object [("formula", .text "A"), ("rule", .text "ADJ"),
    ("refs", .list [.int (k + 1), .int (k + 1)])]

/-- The step of the document behind a number of givens. -/
def adjoining (givens k : Nat) : Step :=
  { line := givens + 1, formula := "A", justification := .adj (.int (k + 1)) (.int (k + 1)) }

theorem listOfValue_adjoiningItem (givens k : Nat) :
    Step.listOfValue givens (.list [adjoiningItem k]) = .ok [adjoining givens k] := by
  have hrule : (adjoiningItem k).field? "rule" = some (.text "ADJ") := rfl
  have hrefs : (adjoiningItem k).field? "refs" =
      some (.list [.int (k + 1), .int (k + 1)]) := rfl
  have hj : Justification.ofValue (adjoiningItem k) =
      .ok (.adj (.int (k + 1)) (.int (k + 1))) :=
    Justification.ofValue_of_references rfl hrule hrefs (by simp) rfl
  have hstep : Step.ofValue (givens + 1) (adjoiningItem k) = .ok (adjoining givens k) :=
    Step.ofValue_of_fields rfl rfl rfl hj
  rw [Step.listOfValue, Step.ofValues, hstep, Step.ofValues]

/-- The step ends the check if the line that it cites, adjoined to itself, can not be written. -/
theorem breach?_adjoining {lines : Lines} {givens k : Nat} {f : Formula} (hmax : 1 ≤ s.maxDepth)
    (hcites : lines.Cites (.int (k + 1)) f) (hf : (Formula.and f f).isWritable = false) :
    breach? (Attempt.checkStep s.maxDepth lines (adjoining givens k)) ≠ none := by
  have hparse : Formula.parse s.maxDepth "A" = .ok (.var "A") :=
    Formula.parse_negatedText (n := 0) (Nat.zero_le _) (by omega)
  have hadjoin : Rule.adjoin lines (.int (k + 1)) (.int (k + 1)) = .ok (.and f f) :=
    Rule.adjoin_eq_ok_iff.mpr ⟨f, f, hcites, hcites, rfl⟩
  have hvalidate : (Justification.adj (.int (k + 1)) (.int (k + 1))).validate lines (.var "A") =
      .error (.wrongConclusion "ADJ" (.var "A") (.and f f)) := by
    simp [Justification.validate, Justification.conclusions, Rule.eitherOrder, hadjoin,
      Conclusions.toList, Justification.rule]
  simp [breach?, Attempt.checkStep, adjoining, hparse, hvalidate, hf]

/-- A given is cited by its place. -/
theorem cites_of_readings (hrs : readings s.maxDepth e.given = (rs, none)) {k : Nat} {v : Value}
    {f : Formula} (hk : e.given[k]? = some v) (hv : Formula.ofValue s.maxDepth v = .ok (.ok f)) :
    Lines.Cites ((Attempt.written s.maxDepth ⟨rs, steps, none⟩).take rs.length) (.int (k + 1))
      f := by
  have hlength : rs.length = e.given.length := by
    simpa using congrArg List.length (map_toOption_of_readings hrs)
  have hlt : k < e.given.length := (List.getElem?_eq_some_iff.mp hk).1
  have hreading : reading s.maxDepth v = some f := by
    rw [reading, hv]
    rfl
  refine ⟨k, rfl, ?_⟩
  rw [List.getElem?_take_of_lt (by rwa [hlength]), attempt_written hrs none, written,
    List.getElem?_append_left (by rwa [List.length_map]), List.getElem?_map, hk,
    Option.map_some, hreading]

/-- A claim that is answered with a conclusion that can not be written ends the check. -/
theorem exists_breach_of_adjoining (hrs : readings s.maxDepth e.given = (rs, none))
    (hrule : "ADJ" ∈ e.rules) {signs : List Value} {f : Formula} (hmem : .list signs ∈ e.given)
    (hsigns : Formula.ofSigns s.maxDepth signs = .ok (.ok f)) :
    ∃ k b, (e.verify s [adjoining e.given.length k]).result = .error (.breach b) := by
  obtain ⟨k, hk⟩ := List.mem_iff_getElem?.mp hmem
  obtain ⟨⟨items, hf⟩, hmax⟩ := Formula.exists_var_of_ofSigns hsigns
  have hunwritable : (Formula.and f f).isWritable = false := by
    rw [hf]
    simp [Formula.isWritable, Formula.leaves, Formula.isName_display_list]
  let a : Attempt := ⟨rs, [adjoining e.given.length k], none⟩
  have hc : Attempt.checkStep s.maxDepth ((a.written s.maxDepth).take rs.length)
      (adjoining e.given.length k) ∈ a.derive s.maxDepth :=
    List.mem_of_getElem? (Attempt.getElem?_derive_step (a := a) 0)
  have hallowed : e.forbidden a.steps = [] :=
    forbidden_eq_nil_iff.mpr (List.forall_mem_singleton.mpr hrule)
  exact ⟨k, exists_breach_of_mem_derive hallowed hrs hc
    (breach?_adjoining hmax (cites_of_readings hrs hk hsigns) hunwritable)⟩

/-- If an exercise is not legible, the check of some solution from a document ends without a
report. -/
theorem exists_breach_of_not_isLegible (h : ¬ e.IsLegible s.maxDepth) :
    ∃ data steps b, Step.listOfValue e.given.length data = .ok steps ∧
      (e.verify s steps).result = .error (.breach b) := by
  rcases readings_cases s.maxDepth e.given with
    ⟨hany, hall, rs, hrs⟩ | ⟨hany, hall, -⟩ | ⟨-, rs, b, hrs⟩
  · by_cases hgoal : e.isRefutation = false → e.goal = .null ∨ e.goal.isLegible = true
    · have hadj : ¬ ("ADJ" ∈ e.rules → ∀ signs f, .list signs ∈ e.given →
          Formula.ofSigns s.maxDepth signs ≠ .ok (.ok f)) :=
        fun hadj => h ⟨hall, fun _ => ⟨hgoal, hadj⟩⟩
      push Not at hadj
      obtain ⟨hrule, signs, f, hmem, hsigns⟩ := hadj
      obtain ⟨k, b, hb⟩ := exists_breach_of_adjoining hrs hrule hmem hsigns
      exact ⟨.list [adjoiningItem k], _, b, listOfValue_adjoiningItem _ k, hb⟩
    · push Not at hgoal
      obtain ⟨hmode, hnull, hillegible⟩ := hgoal
      refine ⟨.list [], [], ?_⟩
      rcases Formula.ofValue_cases s.maxDepth e.goal with
        ⟨-, hlegible, -⟩ | ⟨hfilled, -⟩ | ⟨-, -, b, hb⟩
      · exact absurd hlegible hillegible
      · exact absurd (Value.isLegible_of_isFilled hfilled) hillegible
      · rw [verify_eq rfl hrs, if_neg (by simp [hmode]), verifyGoal_of_error hnull hb]
        obtain ⟨b', hb'⟩ := exists_breach_of_linesOf ⟨rs, [], none⟩ b
        exact ⟨b', rfl, hb'⟩
  · exact absurd ⟨hall, fun hnone => by simp [hany] at hnone⟩ h
  · obtain ⟨b', hb'⟩ := exists_breach_of_linesOf ⟨rs, [], none⟩ b
    exact ⟨.list [], [], b', rfl, by rw [verify_of_readings rfl hrs, hb']⟩

end Verdicts

end Exercise

end Propositional
