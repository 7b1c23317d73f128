import Propositional.Proofs.Editing
import Propositional.Proofs.Enumeration
import Propositional.Proofs.Refusals
import Propositional.Service

/-!
# Answers of the service

Whatever document is posted, the service answers it: with a document, or with the report of a
failure. Every field is looked at before it is used, formulas that were read keep to the limit on
heights, and what is inferred or built from them exceeds it by little. No number in a document that
was read is too long to be named. So nothing is left but a lack of room, which comes from a limit
far above its default or from a text that strains the reader, and numbers with more digits than are
read in the text of a proof.

## Main definitions

* `Service.Reads`: the texts that a question reads as formulas
* `Service.IsAnswered`: a document or a reported failure is sent back
* `Service.PassesOn`: a breach is left to the framework
* `Service.IsOverlong`: the text of a proof with an overlong number

## Main results

* `Service.reports_answer`: all failures are reported if there is room
* `Service.answer_negatedText`, `Service.answer_negations`: failures that are not
* `Service.requests_answered`: when requests are answered
-/

namespace Propositional

/-! ## Room -/

namespace Formula

variable {s : Settings} {f : Formula}

/-- There is room to write a formula that exceeds the limit by less than the height of the
axioms. -/
theorem fitsText_of_height_le (hroom : 3 * (s.maxDepth + 4) ≤ Reader.capacity)
    (hf : f.height ≤ 4 + max 1 s.maxDepth.toNat) : f.fitsText = true := by
  rw [fitsText_iff]
  rw [Reader.capacity] at hroom ⊢
  omega

/-- There is room for a formula that keeps to the limit. -/
theorem fits_of_height_le (hroom : 3 * (s.maxDepth + 4) ≤ Reader.capacity)
    (hf : (f.height : Int) ≤ s.maxDepth) : f.fitsText = true ∧ f.fitsVisit = true := by
  have htext : f.fitsText = true := fitsText_of_height_le hroom (by omega)
  have hheight := fitsText_iff.mp htext
  exact ⟨htext, fitsVisit_iff.mpr (by omega)⟩

end Formula

/-! ## Samples -/

/-- A search breaks off only at a variable without a value, if the counter has a bit. -/
theorem exists_undefined_of_entails {s : Settings} (hlimit : 1 ≤ s.entailmentLimit)
    {premises : List Formula} {conclusion : Formula} {e : SearchError}
    (h : entails s premises conclusion = .error e) : ∃ u, e = .undefined u := by
  unfold entails at h
  dsimp only at h
  split at h
  · next hfound =>
    cases h
    split at hfound
    · obtain ⟨u, -, hu⟩ := mapError_eq_error_iff.mp hfound
      exact ⟨u, hu.symm⟩
    · unfold Entailment.ofSample at hfound
      dsimp only at hfound
      split at hfound
      · cases hfound
      · obtain ⟨bits, hbits⟩ := Valuation.exists_bitsFrom hlimit 0
          (Entailment.vars premises conclusion)
        rw [hbits] at hfound
        obtain ⟨u, -, hu⟩ := mapError_eq_error_iff.mp hfound
        exact ⟨u, hu.symm⟩
  · cases h

/-! ## Passes over formulas -/

namespace Outcome

variable {α β : Type} {overlong : Prop} {s : Settings}

theorem reports_within {fits : Bool} {x : Outcome α} (hfits : fits = true)
    (hx : x.Reports overlong) : (within fits x).Reports overlong := by
  rw [within, if_pos hfits]
  exact hx

theorem isReported_ofSyntaxError {text : String} {e : SyntaxError} (h : ¬Formula.Strained text)
    (he : Formula.parse s.maxDepth text = .error e) :
    (Failure.ofSyntaxError e).isReported = true := by
  rw [Failure.ofSyntaxError, Breach.ofSyntaxError?_eq_none (Proof.isPastEnd_eq_false h he)]
  rfl

theorem reports_parse {text : String} (h : ¬Formula.Strained text) :
    (parse s text).Reports overlong :=
  reports_mapError fun _ => isReported_ofSyntaxError h

theorem reports_write {f : Formula} (hf : f.fitsText = true) : (write f).Reports overlong :=
  reports_within hf (reports_pure f.text)

theorem reports_isTautology {f : Formula} (hf : f.fitsVisit = true) :
    (isTautology s f).Reports overlong := by
  have hresult : (ofExcept ((f.isTautology s).mapError .undefined)).Reports overlong :=
    reports_mapError fun _ _ => rfl
  exact reports_within hf hresult

theorem reports_entails (hlimit : 1 ≤ s.entailmentLimit) {premises : List Formula}
    {conclusion : Formula} (hfits : ∀ f ∈ conclusion :: premises, f.fitsVisit = true) :
    (entails s premises conclusion).Reports overlong := by
  have hresult : (ofExcept ((Propositional.entails s premises conclusion).mapError
      .ofSearchError)).Reports overlong := by
    refine reports_mapError fun e he => ?_
    obtain ⟨u, rfl⟩ := exists_undefined_of_entails hlimit he
    rfl
  exact reports_within (List.all_eq_true.mpr hfits) hresult

theorem reports_truthTable {fs : List Formula} (hfits : ∀ f ∈ fs, f.fitsVisit = true) :
    (truthTable fs).Reports overlong :=
  reports_within (List.all_eq_true.mpr hfits) (reports_mapError fun _ _ => rfl)

/-- A rule is refused with a report if it can name all citations. -/
theorem reports_ofRule {r : Except Objection α}
    (h : ∀ o, r = .error o → Breach.ofObjection? o = none) : (ofRule r).Reports overlong := by
  refine reports_mapError fun o ho => ?_
  rw [Failure.ofObjection, h o ho]
  exact Option.isNone_iff_eq_none.mpr (h o ho)

/-- An inference is refused with a report if there is room for the lines and no number is too
long. -/
theorem reports_infer {lines : Lines} {d : Nat} (hlines : lines.KeepTo d)
    (hroom : 3 * (d + 1) ≤ Reader.capacity) {j : Justification} (hj : j.isShort = true) :
    (infer lines j).Reports overlong := by
  rw [infer_eq hlines hroom]
  refine reports_ofRule fun o ho => ?_
  exact (Justification.warrants_infer lines j o ho).ofObjection?_eq_none
    (Justification.isShort_of_mem_references hj)

end Outcome

/-! ## Instances of axioms -/

namespace Hilbert

variable {n : Value}

/-- There is an axiom of each of the three numbers. -/
theorem exists_schema? (h : (n.equalsInteger 1 || n.equalsInteger 2 || n.equalsInteger 3) = true) :
    ∃ S, schema? n = some S := by
  simp only [Bool.or_eq_true] at h
  rcases h with (h | h) | h
  · exact ⟨first, schema?_eq_some_iff.mpr ⟨1, by simp [numbered], h⟩⟩
  · exact ⟨second, schema?_eq_some_iff.mpr ⟨2, by simp [numbered], h⟩⟩
  · exact ⟨third, schema?_eq_some_iff.mpr ⟨3, by simp [numbered], h⟩⟩

/-- Parts are not read only if the text of one is no formula. -/
theorem exists_of_readParts_eq_error {maxDepth : Int} {parts : Table (Option String)}
    {subst : Substitution} {e : SyntaxError} (h : readParts maxDepth parts subst = .error e) :
    ∃ name text, (name, some text) ∈ parts ∧ Formula.parse maxDepth text = .error e := by
  fun_induction readParts maxDepth parts subst with
  | case1 => cases h
  | case2 parts _ _ ih =>
    obtain ⟨name, text, hmem, he⟩ := ih h
    exact ⟨name, text, List.mem_cons_of_mem _ hmem, he⟩
  | case3 name text _ _ e' he =>
    cases h
    exact ⟨name, text, List.mem_cons_self, he⟩
  | case4 _ _ _ _ _ _ ih =>
    obtain ⟨name, text, hmem, he⟩ := ih h
    exact ⟨name, text, List.mem_cons_of_mem _ hmem, he⟩

/-- If there is an axiom of the number, no instance is built only if a part is no formula or is
missing. -/
theorem build_eq_error_cases {maxDepth : Int} {S : Formula} {parts : Table (Option String)}
    {e : BuildError} (hS : schema? n = some S) (h : build maxDepth n parts = .error e) :
    (∃ name text e', (name, some text) ∈ parts ∧ Formula.parse maxDepth text = .error e' ∧
      e = .badPart e') ∨ ∃ u, e = .missingPart u := by
  obtain ⟨k, -, hk⟩ := schema?_eq_some_iff.mp hS
  have hscalar := Justification.isScalar_of_equalsInteger hk
  unfold build at h
  simp only [hscalar, hS, Bool.not_true, Bool.false_eq_true, if_false] at h
  split at h
  · next e' he' =>
    cases h
    obtain ⟨name, text, hmem, hparse⟩ := exists_of_readParts_eq_error he'
    exact .inl ⟨name, text, e', hmem, hparse, rfl⟩
  · split at h <;> cases h
    exact .inr ⟨_, rfl⟩

end Hilbert

/-! ## Questions -/

namespace Service

/-- The texts that a question reads as formulas. -/
def Reads (route : Route) (data : Value) (text : String) : Prop :=
  match route with
  | .verify => ∃ p, proofOf data = .ok p ∧ text ∈ p.texts
  | .parse | .tautology => data.fieldD "formula" = .text text
  | .infer => ∃ p, Proof.ofValue data = .ok p ∧ text ∈ p.given ++ p.steps.map Step.formula
  | .instantiate => ∃ field ∈ ["alpha", "beta", "gamma"], data.fieldD field = .text text
  | .entails =>
    data.fieldD "conclusion" = .text text ∨
      ∃ items, (data.field? "premises").getD (.list []) = .list items ∧ .text text ∈ items
  | .truthTable =>
    ∃ items, (data.field? "formulas").getD (.list []) = .list items ∧ .text text ∈ items

variable {overlong : Prop} {s : Settings} {data : Value}

theorem reports_formulaOf {field : String} {v : Value}
    (h : ∀ text, v = .text text → ¬Formula.Strained text) :
    (formulaOf s field v).Reports overlong := by
  cases v with
  | text text => exact Outcome.reports_parse (h text rfl)
  | null | bool | int | real | list | object => exact Outcome.reports_fail rfl

/-- A formula from a field was read. -/
theorem height_le_of_formulaOf {field : String} {v : Value} {f : Formula}
    (h : (formulaOf s field v).result = .ok f) : (f.height : Int) ≤ s.maxDepth := by
  cases v with
  | text text => exact Formula.height_le_of_parse (mapError_eq_ok_iff.mp h)
  | null | bool | int | real | list | object => cases h

theorem reports_formulasFrom {field : String} {vs : List Value}
    (h : ∀ text, .text text ∈ vs → ¬Formula.Strained text) :
    (formulasFrom s field vs).Reports overlong := by
  induction vs with
  | nil => exact Outcome.reports_pure []
  | cons v vs ih =>
    have hv : (formulaOf s field v).Reports overlong :=
      reports_formulaOf fun text htext => h text (htext ▸ List.mem_cons_self)
    have hvs := ih fun text htext => h text (List.mem_cons_of_mem v htext)
    exact hv.bind fun f _ => hvs.bind fun fs _ => Outcome.reports_pure _

theorem height_le_of_formulasFrom {field : String} {vs : List Value} {fs : List Formula}
    (h : (formulasFrom s field vs).result = .ok fs) :
    ∀ f ∈ fs, (f.height : Int) ≤ s.maxDepth := by
  induction vs generalizing fs with
  | nil =>
    cases h
    exact List.forall_mem_nil _
  | cons v vs ih =>
    obtain ⟨f, hf, h⟩ := Outcome.result_bind_eq_ok_iff.mp h
    obtain ⟨fs', hfs', h⟩ := Outcome.result_bind_eq_ok_iff.mp h
    cases h
    exact List.forall_mem_cons.mpr ⟨height_le_of_formulaOf hf, ih hfs'⟩

theorem reports_formulasOf {field : String} {v : Value}
    (h : ∀ text items, v = .list items → .text text ∈ items → ¬Formula.Strained text) :
    (formulasOf s field v).Reports overlong := by
  cases v with
  | list items => exact reports_formulasFrom fun text => h text items rfl
  | null | bool | int | real | text | object => exact Outcome.reports_fail rfl

theorem height_le_of_formulasOf {field : String} {v : Value} {fs : List Formula}
    (h : (formulasOf s field v).result = .ok fs) : ∀ f ∈ fs, (f.height : Int) ≤ s.maxDepth := by
  cases v with
  | list items => exact height_le_of_formulasFrom h
  | null | bool | int | real | text | object => cases h

theorem reports_partOf (field : String) (v : Value) :
    (Outcome.ofExcept (partOf field v)).Reports overlong := by
  cases v with
  | null | text => exact Outcome.reports_pure _
  | bool | int | real | list | object => exact Outcome.reports_fail rfl

/-- The text of a part is that of its field. -/
theorem eq_text_of_partOf {field text : String} {v : Value} {part : String × Option String}
    (h : partOf field v = .ok part) (htext : part.2 = some text) : v = .text text := by
  cases v with
  | null =>
    cases h
    cases htext
  | text text' =>
    cases h
    rw [Option.some.inj htext]
  | bool | int | real | list | object => cases h

section Instance

variable {n : Value} {parts : Table (Option String)}

/-- If there is an axiom of the number, no instance is refused without a report. -/
theorem reports_build {S : Formula} (hS : Hilbert.schema? n = some S)
    (hparts : ∀ name text, (name, some text) ∈ parts → ¬Formula.Strained text) :
    (Outcome.ofExcept ((Outcome.build s n parts).result.mapError (withAxiom n))).Reports
      overlong := by
  refine Outcome.reports_mapError fun f hf => ?_
  obtain ⟨e, he, rfl⟩ := mapError_eq_error_iff.mp hf
  rcases Hilbert.build_eq_error_cases hS he with ⟨name, text, e', hmem, he', rfl⟩ | ⟨u, rfl⟩
  · have hreported := Outcome.isReported_ofSyntaxError (hparts name text hmem) he'
    rw [Failure.ofBuildError]
    cases hf' : Failure.ofSyntaxError e' with
    | unassigned u => rfl
    | text | malformed | undefined | objection | request | notFound | noFile | notADocument
    | breach =>
      rw [hf'] at hreported
      exact hreported
  · rfl

theorem height_le_of_build {F : Formula}
    (h : (Outcome.build s n parts).result.mapError (withAxiom n) = .ok F) :
    F.height ≤ 4 + max 1 s.maxDepth.toNat :=
  Hilbert.height_le_of_build (mapError_eq_ok_iff.mp (mapError_eq_ok_iff.mp h))

end Instance

/-- A document holds the text of a proof with an overlong number. -/
def IsOverlong (data : Value) : Prop :=
  ∃ text, data.field? "proof" = some (.text text) ∧ ¬ Text.HasShortNumbers text.toList

/-- What is no proof is refused with a report, overlong numbers in its text apart. -/
theorem reports_proofOf (hdata : data.isObject = true) :
    (Outcome.ofExcept (proofOf data)).Reports (IsOverlong data) := by
  unfold proofOf
  split
  · next v hv =>
    cases v with
    | text text => exact (Proof.reports_ofText text).mono fun hlong => ⟨text, hv, hlong⟩
    | null | bool | int | real | list | object => exact Outcome.reports_fail rfl
  · exact Proof.reports_ofValue hdata

theorem isDocumented_of_proofOf {p : Proof} (h : proofOf data = .ok p) : p.IsDocumented := by
  unfold proofOf at h
  split at h
  · next v hv =>
    cases v with
    | text text => exact Proof.isDocumented_of_ofText h
    | null | bool | int | real | list | object => cases h
  · exact Proof.isDocumented_of_ofValue h

theorem isShort_of_proofOf {p : Proof} (hdata : data.isShort = true) (h : proofOf data = .ok p) :
    p.IsShort := by
  unfold proofOf at h
  split at h
  · next v hv =>
    cases v with
    | text text => exact Proof.isShort_of_ofText h
    | null | bool | int | real | list | object => cases h
  · exact Proof.isShort_of_ofValue hdata h

section Room

variable (hroom : 3 * (s.maxDepth + 4) ≤ Reader.capacity)

include hroom

theorem reports_verify (hobject : data.isObject = true) (hdata : data.isShort = true)
    (htexts : ∀ text, Reads .verify data text → ¬Formula.Strained text) :
    (verify s data).Reports (IsOverlong data) := by
  have hlower : 3 * (s.maxDepth + 1) ≤ Reader.capacity := by omega
  refine (reports_proofOf hobject).bind fun p hp => ?_
  have htexts : ∀ text ∈ p.texts, ¬Formula.Strained text :=
    fun text htext => htexts text ⟨p, hp, htext⟩
  have hreported : ∀ d ∈ (p.attempt s.maxDepth).faults s.maxDepth,
      Breach.ofFault? d.fault = none :=
    Proof.ofFault?_eq_none (isDocumented_of_proofOf hp) (isShort_of_proofOf hdata hp) htexts
  dsimp only
  split
  · have hrefute := Outcome.refute_result hlower hreported
    exact (Outcome.reports_of_result_ok hrefute).bind fun verdict _ => Outcome.reports_pure _
  · have hcheck := Outcome.check_result hlower hreported fun goal hgoal e =>
      Proof.isPastEnd_eq_false (htexts goal (by simp [Proof.texts, Option.mem_def.mp hgoal]))
    exact (Outcome.reports_of_result_ok hcheck).bind fun verdict _ => Outcome.reports_pure _

theorem reports_parse (htexts : ∀ text, Reads .parse data text → ¬Formula.Strained text) :
    (parse s data).Reports overlong := by
  refine (reports_formulaOf htexts).bind fun f hf => ?_
  obtain ⟨htext, -⟩ := Formula.fits_of_height_le hroom (height_le_of_formulaOf hf)
  exact (Outcome.reports_write htext).bind fun text _ => Outcome.reports_pure _

theorem reports_tautology (htexts : ∀ text, Reads .tautology data text → ¬Formula.Strained text) :
    (tautology s data).Reports overlong := by
  refine (reports_formulaOf htexts).bind fun f hf => ?_
  obtain ⟨htext, hvisit⟩ := Formula.fits_of_height_le hroom (height_le_of_formulaOf hf)
  exact (Outcome.reports_write htext).bind fun text _ =>
    (Outcome.reports_isTautology hvisit).bind fun b _ => Outcome.reports_pure _

theorem reports_entails (hlimit : 1 ≤ s.entailmentLimit)
    (htexts : ∀ text, Reads .entails data text → ¬Formula.Strained text) :
    (entails s data).Reports overlong := by
  refine (reports_formulasOf fun text items hitems htext =>
    htexts text (.inr ⟨items, hitems, htext⟩)).bind fun premises hpremises => ?_
  refine (reports_formulaOf fun text htext => htexts text (.inl htext)).bind
    fun conclusion hconclusion => ?_
  have hheights : ∀ f ∈ conclusion :: premises, (f.height : Int) ≤ s.maxDepth :=
    List.forall_mem_cons.mpr
      ⟨height_le_of_formulaOf hconclusion, height_le_of_formulasOf hpremises⟩
  refine (Outcome.reports_entails hlimit fun f hf => ?_).bind fun e _ => Outcome.reports_pure _
  exact (Formula.fits_of_height_le hroom (hheights f hf)).2

theorem reports_truthTable
    (htexts : ∀ text, Reads .truthTable data text → ¬Formula.Strained text) :
    (truthTable s data).Reports overlong := by
  refine (reports_formulasOf fun text items hitems htext =>
    htexts text ⟨items, hitems, htext⟩).bind fun fs hfs => ?_
  refine (Outcome.reports_truthTable fun f hf => ?_).bind fun t _ => Outcome.reports_pure _
  exact (Formula.fits_of_height_le hroom (height_le_of_formulasOf hfs f hf)).2

/-- What is inferred from lines that keep to the limit exceeds it by at most one. -/
theorem reports_infer (hobject : data.isObject = true) (hdata : data.isShort = true)
    (htexts : ∀ text, Reads .infer data text → ¬Formula.Strained text) :
    (infer s data).Reports overlong := by
  refine (Proof.reports_ofValue hobject).bind fun p hp => ?_
  have hdocumented := Proof.isDocumented_of_ofValue hp
  have hproof := Proof.isShort_of_ofValue hdata hp
  -- the goal is not looked at
  have hreported : ∀ d ∈ (p.attempt s.maxDepth).faults s.maxDepth,
      Breach.ofFault? d.fault = none :=
    Proof.ofFault?_eq_none (p := { p with goal := none }) hdocumented hproof
      fun text htext => htexts text ⟨p, hp, by simpa [Proof.texts] using htext⟩
  have hlines := Outcome.lines_result (s := s) (by omega) hreported
  refine (Outcome.reports_of_result_ok hlines).bind fun lines hresult => ?_
  rw [hlines] at hresult
  cases hresult
  have hkeep : (p.lines s.maxDepth).KeepTo s.maxDepth.toNat :=
    Attempt.keepTo_lines (p.keepsTo_attempt s.maxDepth)
  split
  · exact Outcome.reports_fail rfl
  refine (Outcome.reports_malformed _).bind fun j hj => ?_
  have hshort : j.isShort = true := by
    refine Justification.isShort_of_ofValue ?_ (mapError_eq_ok_iff.mp hj)
    split
    · rfl
    · exact Value.isShort_fieldD hdata
  have hlower : 3 * (s.maxDepth.toNat + 1) ≤ Reader.capacity := by
    rw [Reader.capacity] at hroom ⊢
    omega
  refine (Outcome.reports_infer hkeep hlower hshort).bind fun r hr => ?_
  obtain ⟨j', f⟩ := r
  rw [Outcome.infer_eq hkeep hlower, Outcome.result_ofRule_eq_ok_iff] at hr
  obtain ⟨hj', hfollows⟩ := Justification.follows_of_infer hr
  have hheight := hfollows.height_le_succ hj' fun n _ g hg => hkeep.of_cites hg
  have htext : f.fitsText = true := Formula.fitsText_of_height_le hroom (by omega)
  exact (Outcome.reports_write htext).bind fun text _ => Outcome.reports_pure _

/-- What is built from parts that keep to the limit exceeds it by less than the height of the
axioms. -/
theorem reports_instantiate
    (htexts : ∀ text, Reads .instantiate data text → ¬Formula.Strained text) :
    (instantiate s data).Reports overlong := by
  unfold instantiate
  dsimp only
  split
  · next hn =>
    obtain ⟨S, hS⟩ := Hilbert.exists_schema? hn
    refine (reports_partOf _ _).bind fun alpha halpha => (reports_partOf _ _).bind
      fun beta hbeta => (reports_partOf _ _).bind fun gamma hgamma => ?_
    have hpart {field : String} {part : String × Option String}
        (hfield : field ∈ ["alpha", "beta", "gamma"])
        (h : partOf field (data.fieldD field) = .ok part) (text : String)
        (htext : part.2 = some text) : ¬Formula.Strained text :=
      htexts text ⟨field, hfield, eq_text_of_partOf h htext⟩
    have hparts : ∀ name text, (name, some text) ∈ [alpha, beta, gamma] →
        ¬Formula.Strained text := by
      intro name text hmem
      simp only [List.mem_cons, List.not_mem_nil, or_false] at hmem
      rcases hmem with rfl | rfl | rfl
      · exact hpart (by simp) halpha text rfl
      · exact hpart (by simp) hbeta text rfl
      · exact hpart (by simp) hgamma text rfl
    refine (reports_build hS hparts).bind fun f hf => ?_
    have htext := Formula.fitsText_of_height_le hroom (height_le_of_build hf)
    exact (Outcome.reports_write htext).bind fun text _ => Outcome.reports_pure _
  · exact Outcome.reports_fail rfl

/-- If there is room, the counter of samples has a bit and no text strains the reader, all failures
are reported, overlong numbers in the text of a proof apart. -/
theorem reports_answer (hlimit : 1 ≤ s.entailmentLimit) {route : Route}
    (hdata : data.isShort = true)
    (htexts : ∀ text, Reads route data text → ¬Formula.Strained text) :
    (answer s route data).Reports (route = .verify ∧ IsOverlong data) := by
  unfold answer
  cases hobject : data.isObject with
  | false => exact Outcome.reports_fail rfl
  | true =>
    cases route with
    | verify => exact (reports_verify hroom hobject hdata htexts).mono fun hlong => ⟨rfl, hlong⟩
    | parse => exact reports_parse hroom htexts
    | infer => exact reports_infer hroom hobject hdata htexts
    | instantiate => exact reports_instantiate hroom htexts
    | tautology => exact reports_tautology hroom htexts
    | entails => exact reports_entails hroom hlimit htexts
    | truthTable => exact reports_truthTable hroom htexts

end Room

/-! ## Responses -/

variable {route : Route} {body : String}

/-- No integer in the document of a body is too long. -/
theorem isShort_of_bodyValue (h : bodyValue body = .ok data) : data.isShort = true := by
  unfold bodyValue at h
  split at h
  · cases h
    rfl
  · split at h
    · next hread =>
      cases h
      exact Document.isShort_of_read hread
    · cases h
    · cases h
      rfl

/-- A document that is posted to a question is answered as that question. -/
theorem respond_question (hbody : bodyValue body = .ok data) :
    respond s (.question route) body = responseOf (answer s route data) := by
  rw [respond, hbody]
  rfl

/-- A document is sent back, or the report of a failure as a bad request. -/
def IsAnswered (s : Settings) (route : Route) (data : Value) : Prop :=
  (∃ v, (answer s route data).result = .ok v ∧
    ∀ body, bodyValue body = .ok data →
      (respond s (.question route) body).result = .ok { status := 200, body := some v }) ∨
  ∃ f, (answer s route data).result = .error f ∧ f.isReported = true ∧
    ∀ body, bodyValue body = .ok data →
      (respond s (.question route) body).result =
        .ok { status := 400, body := some (failureBody f) }

/-- A breach is left to the framework. -/
def PassesOn (s : Settings) (route : Route) (data : Value) (b : Breach) : Prop :=
  (answer s route data).result = .error (.breach b) ∧
    ∀ body, bodyValue body = .ok data →
      (respond s (.question route) body).result = .error (.breach b)

/-- What has a result or a reported failure is answered. -/
theorem isAnswered_of_forall
    (h : ∀ f, (answer s route data).result = .error f → f.isReported = true) :
    IsAnswered s route data := by
  cases hresult : (answer s route data).result with
  | ok v =>
    refine .inl ⟨v, hresult, fun body hbody => ?_⟩
    rw [respond_question hbody, responseOf, hresult]
  | error f =>
    have hreported := h f hresult
    refine .inr ⟨f, hresult, hreported, fun body hbody => ?_⟩
    rw [respond_question hbody, responseOf, hresult]
    simp only [hreported, if_true]

theorem passesOn_of_result {b : Breach} (h : (answer s route data).result = .error (.breach b)) :
    PassesOn s route data b := by
  refine ⟨h, fun body hbody => ?_⟩
  rw [respond_question hbody, responseOf, h]
  rfl

/-! ## Requests that are not answered -/

/-- A request to read a formula. -/
def parseRequest (text : String) : Value :=
  .object [("formula", .text text)]

theorem reads_parseRequest {text text' : String} :
    Reads .parse (parseRequest text) text' ↔ text' = text := by
  constructor
  · rintro ⟨⟩
    rfl
  · rintro rfl
    rfl

theorem answer_parseRequest (s : Settings) (text : String) :
    (answer s .parse (parseRequest text)).result = (Outcome.parse s text >>= fun f => do
      let text ← Outcome.write f
      return Value.object
        [("formula", .text text), ("ascii", .text (Formula.ascii text))]).result :=
  rfl

/-- A formula that was read may be too high to be written. -/
theorem answer_negatedText {n : Nat} (hn : n ≤ Reader.capacity)
    (hheight : (n : Int) + 1 ≤ s.maxDepth) (hroom : Reader.capacity < 2 * (n + 1)) :
    (answer s .parse (parseRequest (Formula.negatedText n))).result =
      .error (.breach .tooNested) := by
  have hfits : (Formula.negated n).fitsText = false := by
    rwa [Formula.fitsText_eq_false_iff, Formula.height_negated]
  have hwrite : (Outcome.write (.negated n)).result = .error (.breach .tooNested) := by
    rw [Outcome.write, Outcome.within, hfits]
    rfl
  have hread : (Outcome.parse s (Formula.negatedText n)).result = .ok (.negated n) := by
    rw [Outcome.parse, Formula.parse_negatedText hn hheight]
    rfl
  rw [answer_parseRequest, Outcome.result_bind_of_ok hread, Outcome.result_bind_of_error hwrite]

/-- A text may end where the room does. -/
theorem answer_negations (s : Settings) {n : Nat} (hn : n = Reader.capacity + 1) :
    (answer s .parse (parseRequest (Formula.negations n))).result =
      .error (.breach .pastEnd) := by
  have hread : (Outcome.parse s (Formula.negations n)).result = .error (.breach .pastEnd) := by
    rw [Outcome.parse, Formula.parse_negations s.maxDepth hn]
    rfl
  rw [answer_parseRequest, Outcome.result_bind_of_error hread]

/-! ## All requests -/

/-- No number in a document that is posted is too long. If there is room for formulas that exceed
the limit by four levels, the counter of samples has a bit and no text strains the reader, a
document is answered with a document or with the report of a failure, whatever its fields are; only
of the text of a proof that holds an overlong number may there be no answer. If the limit is far
above its default, some formula is read and not answered, and whatever the limit is, some text ends
where the room does. -/
theorem requests_answered (s : Settings) (hlimit : 1 ≤ s.entailmentLimit) :
    (∀ body data, bodyValue body = .ok data → data.isShort = true) ∧
    (3 * (s.maxDepth + 4) ≤ Reader.assured → ∀ route data, data.isShort = true →
      (∀ text, Reads route data text → ¬Formula.Strained text) →
        IsAnswered s route data ∨
          route = .verify ∧ IsOverlong data ∧ PassesOn s route data .oversized) ∧
    (701 ≤ s.maxDepth → ∃ data, data.isShort = true ∧
      (∀ text, Reads .parse data text → ¬Formula.Strained text) ∧
      PassesOn s .parse data .tooNested) ∧
    ∃ data, data.isShort = true ∧ PassesOn s .parse data .pastEnd := by
  refine ⟨fun body data => isShort_of_bodyValue, ?_, ?_, ?_⟩
  · intro hroom route data hdata htexts
    have hroom : 3 * (s.maxDepth + 4) ≤ Reader.capacity := Int.le_trans hroom (by decide)
    by_cases hanswered : ∀ f, (answer s route data).result = .error f → f.isReported = true
    · exact .inl (isAnswered_of_forall hanswered)
    · push Not at hanswered
      obtain ⟨f, hf, hreported⟩ := hanswered
      obtain hreported' | ⟨⟨rfl, hlong⟩, rfl⟩ := reports_answer hroom hlimit hdata htexts f hf
      · exact absurd hreported' hreported
      · exact .inr ⟨rfl, hlong, passesOn_of_result hf⟩
  · intro hmax
    refine ⟨parseRequest (Formula.negatedText 700), rfl, ?_, ?_⟩
    · intro text htext
      rw [reads_parseRequest.mp htext]
      exact Formula.not_strained_negatedText (by decide)
    · exact passesOn_of_result (answer_negatedText (by decide) (by omega) (by decide))
  · exact ⟨parseRequest (Formula.negations _), rfl, passesOn_of_result (answer_negations s rfl)⟩

/-- A request to check the text of a proof. -/
def textRequest : Value :=
  .object [("proof", .text "Given: A\n2. A->B->A  [A1]\nB->A  [MP 1 2]\nB  [MP 9 9]"),
    ("goalMode", .int 7)]

theorem not_isOverlong_textRequest : ¬ IsOverlong textRequest := by
  rintro ⟨text, htext, hlong⟩
  cases htext
  exact hlong (Text.hasShortNumbers_of_length_le (by decide))

/-- The texts of the proof are short. -/
theorem not_strained_textRequest {text : String} (h : Reads .verify textRequest text) :
    ¬Formula.Strained text := by
  obtain ⟨p, hp, htext⟩ := h
  have hproof : (proofOf textRequest).toOption.map Proof.texts =
      some ["A", "A->B->A", "B->A", "B"] := by decide +kernel
  rw [hp] at hproof
  rw [Option.some.inj hproof] at htext
  have hlength : ∀ text ∈ ["A", "A->B->A", "B->A", "B"], 6 * text.length ≤ Reader.assured := by
    decide
  exact Formula.not_strained_of_length_le (hlength text htext)

/-- With the default settings a proof in a text and premises that are no texts are answered. -/
theorem requests_answered_default :
    1 ≤ ({} : Settings).entailmentLimit ∧ 3 * (({} : Settings).maxDepth + 4) ≤ Reader.assured ∧
    IsAnswered {} .verify textRequest ∧
    IsAnswered {} .entails (.object [("premises", .list [.text "A", .null])]) := by
  have hlimit : 1 ≤ ({} : Settings).entailmentLimit := by decide
  have hroom : 3 * (({} : Settings).maxDepth + 4) ≤ Reader.assured := by decide
  have hall := (requests_answered {} hlimit).2.1 hroom
  refine ⟨hlimit, hroom, ?_, ?_⟩
  · rcases hall .verify textRequest (by decide +kernel) (fun _ => not_strained_textRequest) with
      hanswered | ⟨-, hlong, -⟩
    · exact hanswered
    · exact absurd hlong not_isOverlong_textRequest
  · have htexts : ∀ text,
        Reads .entails (.object [("premises", .list [.text "A", .null])]) text →
          ¬Formula.Strained text := by
      rintro text (⟨⟨⟩⟩ | ⟨items, hitems, htext⟩)
      cases hitems
      obtain rfl : text = "A" := by simpa using htext
      exact Formula.not_strained_of_length_le (by decide)
    rcases hall .entails _ rfl htexts with hanswered | ⟨hroute, -⟩
    · exact hanswered
    · cases hroute

/-- A limit far above the default lets a formula through for which there is no room. -/
theorem passesOn_negatedText_tooNested :
    PassesOn { maxDepth := 5000 } .parse (parseRequest (Formula.negatedText 650)) .tooNested :=
  passesOn_of_result (answer_negatedText (by decide) (by decide) (by decide))

end Service

end Propositional
