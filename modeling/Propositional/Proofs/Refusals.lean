import Propositional.Exchange.ProofForm
import Propositional.Proofs.Diagnosis
import Propositional.Proofs.Numbers

/-!
# Refusals

A proof is read from a text or from a document. Whatever is wrong with either is reported, unless a
number in a text has more digits than are read. Numbers are rows of digits in the text, so a text
without overlong rows of digits is read or refused with a report. The justifications of a proof that
was read come from documents, also where the proof was written as text: a tag is read as the
document that it abbreviates. And where the document is short, so are the justifications.

## Main definitions

* `Outcome.Reports`: all failures are reported, overlong numbers apart
* `Text.HasShortNumbers`: no row of digits in a text is too long

## Main results

* `Proof.reports_ofText`, `Proof.reports_ofValue`: what is no proof is refused with a report
* `Proof.isDocumented_of_ofText`, `Proof.isDocumented_of_ofValue`: what is read is documented
* `Proof.isShort_of_ofText`, `Proof.isShort_of_ofValue`: no number in it is too long
-/

namespace Propositional

/-! ## Reported failures -/

namespace Outcome

variable {α β : Type} {overlong : Prop}

theorem result_bind (x : Outcome α) (k : α → Outcome β) :
    (x >>= k).result = x.result.bind fun a => (k a).result := by
  change (Outcome.bind x k).result = _
  unfold Outcome.bind
  cases x.result with
  | error f => rfl
  | ok a => rfl

theorem result_ofExcept_bind (r : Except Failure α) (k : α → Outcome β) :
    (ofExcept r >>= k).result = r >>= fun a => (k a).result :=
  result_bind _ _

theorem result_bind_pure (x : Outcome α) (g : α → β) :
    (x >>= fun a => Pure.pure (g a)).result = g <$> x.result := by
  rw [result_bind]
  cases x.result <;> rfl

theorem result_bind_eq_ok_iff {x : Outcome α} {k : α → Outcome β} {b : β} :
    (x >>= k).result = .ok b ↔ ∃ a, x.result = .ok a ∧ (k a).result = .ok b := by
  rw [result_bind]
  cases x.result with
  | error f => simp [Except.bind]
  | ok a => simp [Except.bind]

theorem result_bind_of_ok {x : Outcome α} {k : α → Outcome β} {a : α} (h : x.result = .ok a) :
    (x >>= k).result = (k a).result := by
  rw [result_bind, h]
  rfl

theorem result_bind_of_error {x : Outcome α} {k : α → Outcome β} {f : Failure}
    (h : x.result = .error f) : (x >>= k).result = .error f := by
  rw [result_bind, h]
  rfl

/-- Whatever failure there is, it is reported, or else it is that of an overlong number, of which
there is one. -/
def Reports (x : Outcome α) (overlong : Prop) : Prop :=
  ∀ f, x.result = .error f → f.isReported = true ∨ overlong ∧ f = .breach .oversized

theorem Reports.mono {x : Outcome α} {overlong' : Prop} (hx : x.Reports overlong)
    (h : overlong → overlong') : x.Reports overlong' := by
  intro f hf
  rcases hx f hf with hreported | ⟨hlong, hbreach⟩
  · exact .inl hreported
  · exact .inr ⟨h hlong, hbreach⟩

theorem reports_of_result_ok {x : Outcome α} {a : α} (h : x.result = .ok a) :
    x.Reports overlong := by
  intro f hf
  rw [h] at hf
  cases hf

theorem reports_pure (a : α) : (Outcome.pure a).Reports overlong :=
  reports_of_result_ok rfl

theorem reports_fail {f : Failure} (h : f.isReported = true) :
    (Outcome.fail f : Outcome α).Reports overlong := by
  intro f' hf'
  cases hf'
  exact .inl h

/-- What follows a computation is only asked for where the computation has a result. -/
theorem Reports.bind {x : Outcome α} {k : α → Outcome β} (hx : x.Reports overlong)
    (hk : ∀ a, x.result = .ok a → (k a).Reports overlong) : (x >>= k).Reports overlong := by
  intro f hf
  rw [result_bind] at hf
  cases hresult : x.result with
  | error f' =>
    rw [hresult] at hf
    cases hf
    exact hx f hresult
  | ok a =>
    rw [hresult] at hf
    exact hk a hresult f hf

/-- A failure that is only reworded into a reported one. -/
theorem reports_mapError {ε : Type} {r : Except ε α} {report : ε → Failure}
    (h : ∀ e, r = .error e → (report e).isReported = true) :
    (ofExcept (r.mapError report)).Reports overlong := by
  intro f hf
  obtain ⟨e, he, rfl⟩ := mapError_eq_error_iff.mp hf
  exact .inl (h e he)

theorem reports_malformed (r : Except Malformed α) :
    (ofExcept (r.mapError .malformed)).Reports overlong :=
  reports_mapError fun _ _ => rfl

end Outcome

/-! ## Rows of digits -/

namespace Text

variable {cs ds l : List Char}

/-- No row of digits in a text is too long to be read. -/
def HasShortNumbers (cs : List Char) : Prop :=
  ∀ ds, ds <:+: cs → (∀ c ∈ ds, isDecimal c = true) → ds.length ≤ digitLimit

theorem HasShortNumbers.mono (h : HasShortNumbers cs) (hds : ds <:+: cs) : HasShortNumbers ds :=
  fun es hes => h es (hes.trans hds)

theorem hasShortNumbers_of_length_le (h : cs.length ≤ digitLimit) : HasShortNumbers cs :=
  fun _ hds _ => Nat.le_trans hds.length_le h

theorem isInfix_dropWhile (p : Char → Bool) (cs : List Char) : cs.dropWhile p <:+: cs :=
  List.IsSuffix.isInfix (List.dropWhile_suffix p)

theorem isInfix_takeWhile (p : Char → Bool) (cs : List Char) : cs.takeWhile p <:+: cs :=
  List.IsPrefix.isInfix ( List.takeWhile_prefix p)

theorem isInfix_cons (c : Char) (cs : List Char) : cs <:+: c :: cs :=
  List.IsSuffix.isInfix (List.suffix_cons c cs)

theorem isInfix_trim (cs : List Char) : trim cs <:+: cs := by
  have hback : ((cs.dropWhile isBlank).reverse.dropWhile isBlank).reverse <:+:
      (cs.dropWhile isBlank).reverse.reverse :=
    List.reverse_infix.mpr (isInfix_dropWhile _ _)
  rw [List.reverse_reverse] at hback
  exact hback.trans (isInfix_dropWhile _ _)

/-- The first line of a text begins it. -/
theorem exists_eq_append_of_lines {ls : List (List Char)} (h : lines cs = l :: ls) :
    ∃ rest, cs = l ++ rest := by
  fun_induction lines cs generalizing l ls with
  | case1 => cases h
  | case2 | case3 =>
    cases h
    exact ⟨_, rfl⟩
  | case4 =>
    cases h
    exact ⟨_, rfl⟩
  | case5 c cs _ _ l' ls' hlines ih =>
    cases h
    obtain ⟨rest, rfl⟩ := ih hlines
    exact ⟨rest, rfl⟩

/-- A line of a text is a part of it. -/
theorem isInfix_of_mem_lines (h : l ∈ lines cs) : l <:+: cs := by
  fun_induction lines cs with
  | case1 => cases h
  | case2 cs ih =>
    rcases List.mem_cons.mp h with rfl | h
    · exact List.nil_infix
    · exact (ih h).trans ((isInfix_cons _ _).trans (isInfix_cons _ _))
  | case3 c cs _ _ ih =>
    rcases List.mem_cons.mp h with rfl | h
    · exact List.nil_infix
    · exact (ih h).trans (isInfix_cons _ _)
  | case4 c cs =>
    obtain rfl := List.mem_singleton.mp h
    exact ⟨[], cs, rfl⟩
  | case5 c cs _ _ l' ls hlines ih =>
    rcases List.mem_cons.mp h with rfl | h
    · -- the first line goes on from the first line of the rest
      obtain ⟨rest, rfl⟩ := exists_eq_append_of_lines hlines
      exact ⟨[], rest, rfl⟩
    · have hmem : l ∈ lines cs := by
        rw [hlines]
        exact List.mem_cons_of_mem l' h
      exact (ih hmem).trans (isInfix_cons _ _)

end Text

/-! ## Numbers of tags -/

namespace Tag

variable {cs ds rest : List Char} {t : Tag}

theorem isInfix_of_pastBlank? (h : pastBlank? cs = some rest) : rest <:+: cs := by
  unfold pastBlank? at h
  split at h
  · cases h
  · split at h <;> cases h
    exact (Text.isInfix_dropWhile _ _).trans (Text.isInfix_cons _ _)

theorem isInfix_of_pastDivider? {mark : Char} (h : pastDivider? mark cs = some rest) :
    rest <:+: cs := by
  unfold pastDivider? at h
  split at h
  · cases h
  · next c tail htail =>
    split at h
    · cases h
      have hcons : c :: tail <:+: cs := by
        rw [← htail]
        exact Text.isInfix_dropWhile _ _
      exact ((Text.isInfix_dropWhile _ _).trans (Text.isInfix_cons c tail)).trans hcons
    · exact isInfix_of_pastBlank? h

/-- A number is a row of digits in the text, and what follows it a part of the text. -/
theorem isInfix_of_digits? (h : digits? cs = some (ds, rest)) :
    ds <:+: cs ∧ (∀ c ∈ ds, Text.isDecimal c = true) ∧ rest <:+: cs := by
  unfold digits? at h
  split at h
  · cases h
  · cases h
    refine ⟨Text.isInfix_takeWhile _ _, fun c hc => ?_, Text.isInfix_dropWhile _ _⟩
    exact List.all_eq_true.mp List.all_takeWhile c hc

theorem isInfix_firstNumber (cs : List Char) :
    (∀ ds, (firstNumber cs).1 = some ds → ds <:+: cs ∧ ∀ c ∈ ds, Text.isDecimal c = true) ∧
      (firstNumber cs).2 <:+: cs := by
  unfold firstNumber
  split
  · refine ⟨fun ds h => ?_, List.infix_refl _⟩
    cases h
  · next ds rest h =>
    obtain ⟨hds, hdecimal, hrest⟩ := isInfix_of_digits? h
    refine ⟨fun es hes => ?_, hrest.trans (Text.isInfix_dropWhile _ _)⟩
    cases hes
    exact ⟨hds.trans (Text.isInfix_dropWhile _ _), hdecimal⟩

theorem isInfix_secondNumber (cs : List Char) :
    ∀ ds, (secondNumber cs).1 = some ds → ds <:+: cs ∧ ∀ c ∈ ds, Text.isDecimal c = true := by
  unfold secondNumber
  split
  · intro ds h
    cases h
  · next ds rest h =>
    intro es hes
    cases hes
    obtain ⟨past, hpast, hdigits⟩ := Option.bind_eq_some_iff.mp h
    obtain ⟨hds, hdecimal, -⟩ := isInfix_of_digits? hdigits
    exact ⟨hds.trans (isInfix_of_pastDivider? hpast), hdecimal⟩

/-- The numbers of a tag are rows of digits in its text. -/
theorem isInfix_of_split? (h : split? cs = some t) :
    ∀ ds, t.first = some ds ∨ t.second = some ds →
      ds <:+: cs ∧ ∀ c ∈ ds, Text.isDecimal c = true := by
  unfold split? at h
  split at h
  · cases h
  · dsimp only at h
    split at h
    · cases h
    · cases h
      have hrest := Text.isInfix_dropWhile isLetter cs
      obtain ⟨hfirst, hpast⟩ := isInfix_firstNumber (cs.dropWhile isLetter)
      intro ds hds
      rcases hds with hds | hds
      · obtain ⟨hpart, hdecimal⟩ := hfirst ds hds
        exact ⟨hpart.trans hrest, hdecimal⟩
      · obtain ⟨hpart, hdecimal⟩ := isInfix_secondNumber _ ds hds
        exact ⟨hpart.trans (hpast.trans hrest), hdecimal⟩

/-- Only a number that is too long is not read. -/
theorem numbers?_ne_none (h : ∀ ds, t.first = some ds ∨ t.second = some ds →
    ds.length ≤ Text.digitLimit) : t.numbers? ≠ none := by
  unfold numbers?
  cases hfirst : t.first with
  | none =>
    cases hsecond : t.second with
    | none => simp
    | some b => simp [Text.naturalWithin?, h b (.inr hsecond)]
  | some a =>
    cases hsecond : t.second with
    | none => simp [Text.naturalWithin?, h a (.inl hfirst)]
    | some b => simp [Text.naturalWithin?, h a (.inl hfirst), h b (.inr hsecond)]

end Tag

/-- A tag without overlong numbers is read or refused with a report. -/
theorem Justification.reports_ofTag (tag : String) :
    (Outcome.ofExcept (ofTag tag)).Reports (¬ Text.HasShortNumbers tag.toList) := by
  unfold ofTag
  split
  · exact Outcome.reports_fail rfl
  · next t ht =>
    split
    · next hnone =>
      intro f hf
      cases hf
      refine .inr ⟨fun h => Tag.numbers?_ne_none (fun ds hds => ?_) hnone, rfl⟩
      obtain ⟨hpart, hdecimal⟩ := Tag.isInfix_of_split? ht ds hds
      exact h ds (hpart.trans (Text.isInfix_trim _)) hdecimal
    · exact Outcome.reports_malformed _

/-- The numbers of a tag are short: they were read from rows of digits. -/
theorem Tag.lt_of_mem_numbers? {t : Tag} {numbers : List Nat} (h : t.numbers? = some numbers) :
    ∀ n ∈ numbers, n < Text.numberLimit := by
  unfold numbers? at h
  generalize [t.first, t.second].filterMap id = rows at h
  induction rows generalizing numbers with
  | nil =>
    cases h
    exact List.forall_mem_nil _
  | cons ds rows ih =>
    rw [List.mapM_cons] at h
    obtain ⟨n, hn, h⟩ := Option.bind_eq_some_iff.mp h
    obtain ⟨ns, hns, h⟩ := Option.bind_eq_some_iff.mp h
    cases h
    exact List.forall_mem_cons.mpr ⟨Text.lt_numberLimit_of_naturalWithin? hn, ih hns⟩

theorem Tag.isShort_toValue {t : Tag} {numbers : List Nat}
    (h : ∀ n ∈ numbers, n < Text.numberLimit) : (t.toValue numbers).isShort = true := by
  have hrefs : Value.areShort (numbers.map fun (n : Nat) => Value.int n) = true := by
    rw [Value.areShort_iff, List.forall_mem_map]
    intro n hn
    rw [Value.isShort_natCast, decide_eq_true_eq]
    exact h n hn
  rw [toValue, Value.isShort, Value.haveShort_iff]
  intro p hp
  rcases List.mem_append.mp hp with hp | hp
  · rcases List.mem_append.mp hp with hp | hp
    · rcases List.mem_pair.mp hp with rfl | rfl
      · rfl
      · exact hrefs
    · obtain ⟨c, -, rfl⟩ := Option.map_eq_some_iff.mp (Option.mem_toList.mp hp)
      rfl
  · obtain ⟨d, -, rfl⟩ := Option.map_eq_some_iff.mp (Option.mem_toList.mp hp)
    rfl

/-- A tag is read as a document, in which no number is too long. -/
theorem Justification.exists_ofValue_of_ofTag {tag : String} {j : Justification}
    (h : ofTag tag = .ok j) : ∃ v, v.isShort = true ∧ ofValue v = .ok j := by
  unfold ofTag at h
  split at h
  · cases h
  · next t ht =>
    split at h
    · cases h
    · next hnumbers =>
      exact ⟨_, Tag.isShort_toValue (Tag.lt_of_mem_numbers? hnumbers), mapError_eq_ok_iff.mp h⟩

/-! ## Lines of text -/

namespace PlainText

variable {cs formula tag : List Char} {label : Option (List Char)}

theorem isInfix_of_bracketed? (h : bracketed? cs = some tag) : tag <:+: cs := by
  unfold bracketed? at h
  split at h
  · next body hbody =>
    have hrest : body <:+: cs := by
      have hcons : '[' :: body <:+: cs := by
        rw [← hbody]
        exact Text.isInfix_dropWhile _ _
      exact (Text.isInfix_cons _ _).trans hcons
    split at h
    · cases h
    · split at h <;> cases h
      exact (Text.isInfix_takeWhile _ _).trans hrest
    · cases h
  · cases h

theorem isInfix_of_cut? (h : cut? cs = some (formula, tag)) : tag <:+: cs := by
  induction cs generalizing formula with
  | nil => cases h
  | cons c cs ih =>
    unfold cut? at h
    split at h
    · next tag' htag =>
      cases h
      exact (isInfix_of_bracketed? htag).trans (Text.isInfix_cons c cs)
    · obtain ⟨r, hr, heq⟩ := Option.map_eq_some_iff.mp h
      cases heq
      exact (ih hr).trans (Text.isInfix_cons c cs)

theorem isInfix_of_cutBehindLabel? (h : cutBehindLabel? cs = some (formula, tag)) :
    tag <:+: cs := by
  obtain ⟨k, -, hk⟩ := List.exists_of_findSome?_eq_some h
  exact (isInfix_of_cut? hk).trans (List.IsSuffix.isInfix (List.drop_suffix k cs))

theorem isInfix_of_label? {ds rest : List Char} (h : label? cs = some (ds, rest)) :
    ds <:+: cs ∧ (∀ c ∈ ds, Text.isDecimal c = true) ∧ rest <:+: cs := by
  unfold label? at h
  split at h
  · cases h
  · next hrest _ =>
    cases h
    have hcons : '.' :: rest <:+: cs := by
      rw [← hrest]
      exact Text.isInfix_dropWhile _ _
    refine ⟨Text.isInfix_takeWhile _ _, fun c hc => ?_, (Text.isInfix_cons _ _).trans hcons⟩
    exact List.all_eq_true.mp List.all_takeWhile c hc
  · cases h

/-- The label of a step line is a row of digits in it, and the tag a part of it. -/
theorem isInfix_of_step? (h : step? cs = some (.step label formula tag)) :
    (∀ ds, label = some ds → ds <:+: cs ∧ ∀ c ∈ ds, Text.isDecimal c = true) ∧ tag <:+: cs := by
  unfold step? at h
  dsimp only at h
  split at h
  · next hlabelled =>
    cases h
    obtain ⟨⟨ds, rest⟩, hlabel, hcut⟩ := Option.bind_eq_some_iff.mp hlabelled
    obtain ⟨r, hr, heq⟩ := Option.map_eq_some_iff.mp hcut
    cases heq
    obtain ⟨hds, hdecimal, hrest⟩ := isInfix_of_label? hlabel
    refine ⟨fun es hes => ?_, (isInfix_of_cutBehindLabel? hr).trans hrest⟩
    cases hes
    exact ⟨hds, hdecimal⟩
  · obtain ⟨r, hr, heq⟩ := Option.map_eq_some_iff.mp h
    cases heq
    refine ⟨fun es hes => ?_, isInfix_of_cut? hr⟩
    cases hes

/-- No header is a step. -/
theorem header?_ne_step : header? cs ≠ some (.step label formula tag) := by
  intro h
  unfold header? at h
  split at h
  · cases h
  · split at h
    · cases h
    · obtain ⟨text, -, heq⟩ := Option.map_eq_some_iff.mp h
      cases heq

/-- No number that a line gives is too long to be read. -/
def Line.HasShortNumbers : Line → Prop
  | .step label _ tag =>
    (∀ ds, label = some ds → ds.length ≤ Text.digitLimit) ∧ Text.HasShortNumbers tag
  | _ => True

theorem Line.hasShortNumbers_of_classify {raw : List Char} {line : Line}
    (hraw : Text.HasShortNumbers raw) (h : classify raw = .ok line) : line.HasShortNumbers := by
  cases line with
  | skipped | given | goal => trivial
  | step label formula tag =>
    -- only what is no header is read as a step
    have hstep : step? (Text.trim raw) = some (.step label formula tag) := by
      unfold classify at h
      dsimp only at h
      split at h
      · cases h
      · cases h
      · split at h
        · next hheader =>
          cases h
          exact absurd hheader header?_ne_step
        · split at h
          · next hstep =>
            cases h
            exact hstep
          · cases h
    have htrim := hraw.mono (Text.isInfix_trim raw)
    obtain ⟨hlabel, htag⟩ := isInfix_of_step? hstep
    refine ⟨fun ds hds => ?_, htrim.mono htag⟩
    obtain ⟨hpart, hdecimal⟩ := hlabel ds hds
    exact htrim ds hpart hdecimal

theorem hasShortNumbers_of_classifyAll {raws : List (List Char)} {lines : List Line}
    (hraws : ∀ raw ∈ raws, Text.HasShortNumbers raw) (h : classifyAll raws = .ok lines) :
    ∀ line ∈ lines, line.HasShortNumbers := by
  induction raws generalizing lines with
  | nil =>
    cases h
    exact List.forall_mem_nil _
  | cons raw raws ih =>
    obtain ⟨hraw, hraws⟩ := List.forall_mem_cons.mp hraws
    unfold classifyAll at h
    split at h
    · cases h
    next line hline =>
    split at h
    · cases h
    next rest hrest =>
    cases h
    exact List.forall_mem_cons.mpr
      ⟨Line.hasShortNumbers_of_classify hraw hline, ih hraws hrest⟩

theorem reports_labelOf (line : Int) (label : Option (List Char)) :
    (Outcome.ofExcept (labelOf line label)).Reports
      (∃ ds, label = some ds ∧ Text.digitLimit < ds.length) := by
  cases label with
  | none => exact Outcome.reports_pure line
  | some ds =>
    rw [labelOf, Text.naturalWithin?]
    by_cases hds : ds.length ≤ Text.digitLimit
    · rw [if_pos hds]
      exact Outcome.reports_pure _
    · rw [if_neg hds]
      intro f hf
      cases hf
      exact .inr ⟨⟨ds, rfl, Nat.not_le.mp hds⟩, rfl⟩

/-- The steps of lines without overlong numbers are read or refused with a report. -/
theorem reports_steps (line : Int) (lines : List Line) :
    (Outcome.ofExcept (steps line lines)).Reports (∃ l ∈ lines, ¬ l.HasShortNumbers) := by
  induction lines generalizing line with
  | nil => exact Outcome.reports_pure []
  | cons l rest ih =>
    have hrest : ∀ n, (Outcome.ofExcept (steps n rest)).Reports
        (∃ l' ∈ l :: rest, ¬ l'.HasShortNumbers) := by
      refine fun n => (ih n).mono ?_
      rintro ⟨l', hl', hlong⟩
      exact ⟨l', List.mem_cons_of_mem l hl', hlong⟩
    cases l with
    | skipped | given | goal => exact hrest line
    | step label formula tag =>
      intro f hf
      change steps line (.step label formula tag :: rest) = .error f at hf
      unfold steps at hf
      split at hf
      · next hlabel =>
        cases hf
        refine (reports_labelOf line label).mono ?_ f hlabel
        rintro ⟨ds, hds, hlong⟩
        exact ⟨_, List.mem_cons_self, fun h => absurd (h.1 ds hds) (Nat.not_le.mpr hlong)⟩
      · split at hf
        · next htag =>
          cases hf
          refine (Justification.reports_ofTag _).mono (fun hlong => ?_) f htag
          rw [String.toList_ofList] at hlong
          exact ⟨_, List.mem_cons_self, fun h => hlong h.2⟩
        · split at hf
          · next hsteps =>
            cases hf
            exact hrest (line + 1) f hsteps
          · cases hf

/-- Every step of lines has its justification from a document, in which no number is too long. -/
theorem exists_ofValue_of_steps {line : Int} {lines : List Line} {ss : List Step}
    (h : steps line lines = .ok ss) :
    ∀ s ∈ ss, ∃ v, v.isShort = true ∧ Justification.ofValue v = .ok s.justification := by
  induction lines generalizing line ss with
  | nil =>
    cases h
    exact List.forall_mem_nil _
  | cons l rest ih =>
    cases l with
    | skipped | given | goal => exact ih h
    | step label formula tag =>
      unfold steps at h
      split at h
      · cases h
      split at h
      · cases h
      next j hj =>
      split at h
      · cases h
      next ss' hss =>
      cases h
      exact List.forall_mem_cons.mpr ⟨Justification.exists_ofValue_of_ofTag hj, ih hss⟩

end PlainText

/-! ## Proofs -/

/-- Steps that a document lists have their justifications from documents. -/
theorem Step.exists_ofValue_of_listOfValue {givens : Int} {data : Value} {steps : List Step}
    (h : listOfValue givens data = .ok steps) :
    ∀ s ∈ steps, ∃ v, Justification.ofValue v = .ok s.justification := by
  unfold listOfValue at h
  split at h
  · exact Proof.isDocumented_of_ofValues (p := ⟨[], steps, none⟩) h
  · cases h

/-- Steps that a short document lists are short. -/
theorem Step.isShort_of_listOfValue {givens : Int} {data : Value} {steps : List Step}
    (hdata : data.isShort = true) (h : listOfValue givens data = .ok steps) :
    ∀ s ∈ steps, s.justification.isShort = true := by
  unfold listOfValue at h
  split at h
  · intro s hs
    obtain ⟨i, hi⟩ := List.mem_iff_getElem?.mp hs
    obtain ⟨v, hv, hstep⟩ := exists_ofValue_of_ofValues h hi
    exact Justification.isShort_of_ofValue (Value.areShort_iff.mp hdata v hv)
      (ofValue_eq_ok hstep).2
  · cases h

namespace Proof

variable {p : Proof}

/-- A text without overlong numbers is read as a proof or refused with a report. -/
theorem reports_ofText (text : String) :
    (Outcome.ofExcept (ofText text)).Reports (¬ Text.HasShortNumbers text.toList) := by
  intro f hf
  change ofText text = .error f at hf
  unfold ofText at hf
  split at hf
  · cases hf
    exact .inl rfl
  · next lines hlines =>
    dsimp only at hf
    split at hf
    · next hsteps =>
      cases hf
      refine (PlainText.reports_steps _ lines).mono ?_ f hsteps
      rintro ⟨line, hline, hlong⟩ hshort
      have hraws : ∀ raw ∈ Text.lines text.toList, Text.HasShortNumbers raw :=
        fun raw hraw => hshort.mono (Text.isInfix_of_mem_lines hraw)
      exact hlong (PlainText.hasShortNumbers_of_classifyAll hraws hlines line hline)
    · cases hf

/-- A proof from a text is one from documents, in which no number is too long. -/
theorem exists_ofValue_of_ofText {text : String} (h : ofText text = .ok p) :
    ∀ s ∈ p.steps, ∃ v, v.isShort = true ∧ Justification.ofValue v = .ok s.justification := by
  unfold ofText at h
  split at h
  · cases h
  · dsimp only at h
    split at h
    · cases h
    · next hsteps =>
      cases h
      exact PlainText.exists_ofValue_of_steps hsteps

theorem isDocumented_of_ofText {text : String} (h : ofText text = .ok p) : p.IsDocumented := by
  intro s hs
  obtain ⟨v, -, hv⟩ := exists_ofValue_of_ofText h s hs
  exact ⟨v, hv⟩

theorem isShort_of_ofText {text : String} (h : ofText text = .ok p) : p.IsShort := by
  intro s hs
  obtain ⟨v, hshort, hv⟩ := exists_ofValue_of_ofText h s hs
  exact Justification.isShort_of_ofValue hshort hv

/-- An object is read as a proof or refused with a report. -/
theorem reports_ofValue {data : Value} {overlong : Prop} (h : data.isObject = true) :
    (Outcome.ofExcept (ofValue data)).Reports overlong := by
  rw [ofValue, if_pos h]
  exact Outcome.reports_malformed _

/-- The steps of a proof are those that its document lists. -/
theorem exists_listOfValue_of_ofValue {data : Value} (h : ofValue data = .ok p) :
    ∃ givens : Int, Step.listOfValue givens ((data.field? "steps").getD (.list [])) =
      .ok p.steps := by
  unfold ofValue at h
  split at h
  · have h := mapError_eq_ok_iff.mp h
    unfold ofFields at h
    split at h
    · cases h
    split at h
    · cases h
    split at h
    · cases h
    next hsteps =>
    cases h
    exact ⟨_, hsteps⟩
  · cases h

theorem isDocumented_of_ofValue {data : Value} (h : ofValue data = .ok p) :
    p.IsDocumented := by
  obtain ⟨givens, hsteps⟩ := exists_listOfValue_of_ofValue h
  exact Step.exists_ofValue_of_listOfValue hsteps

theorem isShort_of_ofValue {data : Value} (hdata : data.isShort = true)
    (h : ofValue data = .ok p) : p.IsShort := by
  obtain ⟨givens, hsteps⟩ := exists_listOfValue_of_ofValue h
  exact Step.isShort_of_listOfValue (Value.isShort_field?_getD_list hdata) hsteps

end Proof

end Propositional
