import Propositional.CommandLine.Command
import Propositional.Proofs.Legibility

/-!
# Exit statuses

A command that checks a proof or a solution ends with the verdict on it: its exit status is zero if
nothing is wrong and one otherwise. A failure that is complained about ends it with status two, and
a breach leaves no status at all. So the status says how the check went exactly where no breach
happens, and a breach has one of few causes. A document that should hold a proof is no object, an
exercise lists an axiom by an infinite number, an exercise is not legible, the verdict quotes what
the output does not take, or there is no room for what is done with a line.

## Main definitions

* `Command.proofVerdict`, `Command.solutionVerdict`: the verdicts on documents
* `Command.IsSettled`: there is a verdict, or a failure that is complained about
* `Command.Tells`: what the report of a command says about a verdict
* `Exercise.ListsInfinity`: an axiom is given by an infinite number

## Main results

* `Exercise.ofValue_eq_error_cases`: why a document is no exercise
* `Arguments.read_of_isPlain`: words without a dash in front are read as they are
* `Command.isSettled_proofVerdict`, `Command.isSettled_solutionVerdict`: verdicts that there are
* `Command.statuses_tell`: the exit statuses of checks
-/

namespace Propositional

/-! ## Passes over documents -/

section Except

variable {ε α β : Type} {f : α → Except ε β} {xs : List α} {e : ε}

theorem bind_eq_error_iff {x : Except ε α} {k : α → Except ε β} :
    x >>= k = .error e ↔ x = .error e ∨ ∃ a, x = .ok a ∧ k a = .error e := by
  cases x with
  | error e' => simp [bind, Except.bind]
  | ok a => simp [bind, Except.bind]

/-- A pass over a list fails at one of its items. -/
theorem exists_of_mapM_eq_error (h : xs.mapM f = .error e) : ∃ x ∈ xs, f x = .error e := by
  induction xs with
  | nil => cases h
  | cons x xs ih =>
    rw [List.mapM_cons] at h
    rcases bind_eq_error_iff.mp h with h | ⟨y, -, h⟩
    · exact ⟨x, List.mem_cons_self, h⟩
    · rcases bind_eq_error_iff.mp h with h | ⟨ys, -, h⟩
      · obtain ⟨z, hz, hfz⟩ := ih h
        exact ⟨z, List.mem_cons_of_mem x hz, hfz⟩
      · cases h

/-- A pass over a list that does not fail fails at none of its items. -/
theorem exists_of_mapM_eq_ok {ys : List β} (h : xs.mapM f = .ok ys) :
    ∀ x ∈ xs, ∃ y, f x = .ok y := by
  induction xs generalizing ys with
  | nil => exact List.forall_mem_nil _
  | cons x xs ih =>
    rw [List.mapM_cons] at h
    cases hx : f x with
    | error e =>
      rw [hx] at h
      cases h
    | ok y =>
      cases hxs : xs.mapM f with
      | error e =>
        rw [hx, hxs] at h
        cases h
      | ok zs => exact List.forall_mem_cons.mpr ⟨⟨y, hx⟩, ih hxs⟩

end Except

/-! ## Documents of exercises -/

namespace Exercise

/-- A document lists an axiom by an infinite number. -/
def ListsInfinity (data : Value) : Prop :=
  ∃ items x, (data.fieldD "allowed").field? "axioms" = some (.list items) ∧ .real x ∈ items ∧
    x.isFinite = false ∧ x.isNaN = false

variable {v data : Value} {f : Failure}

/-- The number of an axiom is read, or malformed, or infinite. -/
theorem axiomNumber_eq_error_cases (h : axiomNumber v = .error f) :
    (∃ m, f = .malformed m) ∨
      f = .breach .infinite ∧ ∃ x, v = .real x ∧ x.isFinite = false ∧ x.isNaN = false := by
  unfold axiomNumber at h
  split at h
  · cases h
  · cases h
  · next x =>
    split at h
    · cases h
    next hx =>
    have hfinite : x.isFinite = false := by
      unfold Binary64.truncate? at hx
      split at hx
      · cases hx
      · next hfinite => simpa using hfinite
    split at h
    · cases h
      exact .inl ⟨_, rfl⟩
    · next hnan =>
      cases h
      exact .inr ⟨rfl, x, rfl, hfinite, by simpa using hnan⟩
  · split at h
    · cases h
    · cases h
      exact .inl ⟨_, rfl⟩
    · cases h
      exact .inl ⟨_, rfl⟩
  · cases h
    exact .inl ⟨_, rfl⟩

theorem listOf_eq_error (h : listOf v = .error f) : ∃ m, f = .malformed m := by
  unfold listOf at h
  split at h <;> cases h
  exact ⟨_, rfl⟩

theorem optionalList_eq_error (h : optionalList v = .error f) : ∃ m, f = .malformed m := by
  unfold optionalList at h
  split at h
  · exact listOf_eq_error h
  · cases h

theorem allowedField_eq_error {field : String} {default : Value}
    (h : allowedField v field default = .error f) : ∃ m, f = .malformed m := by
  unfold allowedField at h
  split at h <;> cases h
  exact ⟨_, rfl⟩

theorem eq_of_allowedField {w default : Value} {field : String}
    (h : allowedField v field default = .ok w) : w = (v.field? field).getD default := by
  unfold allowedField at h
  split at h <;> cases h
  rfl

theorem ruleName_eq_error (h : ruleName v = .error f) : ∃ m, f = .malformed m := by
  unfold ruleName at h
  split at h <;> cases h
  exact ⟨_, rfl⟩

/-- Only a list runs through numbers. -/
theorem eq_list_of_elements? {items : List Value} {x : Binary64} (h : v.elements? = some items)
    (hx : .real x ∈ items) : v = .list items := by
  unfold Value.elements? at h
  split at h <;> cases h
  · rfl
  · obtain ⟨sign, -, hsign⟩ := List.mem_map.mp hx
    cases hsign
  · obtain ⟨field, -, hfield⟩ := List.mem_map.mp hx
    cases hfield

/-- What is allowed has the same fields if a value that counts as missing is replaced by an empty
object. -/
theorem field?_allowed (v : Value) (key : String) :
    (if v.isTruthy then v else .object []).field? key = v.field? key := by
  split
  · rfl
  next htruthy =>
  cases v with
  | object fields =>
    cases fields with
    | nil => rfl
    | cons field fields => exact absurd rfl htruthy
  | null | bool | int | real | text | list => rfl

/-- The field that lists the axioms is the one of the document, or else holds their numbers. -/
theorem listsInfinity_of_allowedField {axioms : Value} {items : List Value} {x : Binary64}
    (haxioms : allowedField
      (if (data.fieldD "allowed").isTruthy then data.fieldD "allowed" else .object []) "axioms"
      (.list [.int 1, .int 2, .int 3]) = .ok axioms)
    (hitems : listOf axioms = .ok items) (hx : .real x ∈ items) (hfinite : x.isFinite = false)
    (hnan : x.isNaN = false) : ListsInfinity data := by
  have hlist : axioms = .list items := by
    unfold listOf at hitems
    split at hitems <;> cases hitems
    next helements => exact eq_list_of_elements? helements hx
  rw [eq_of_allowedField haxioms, field?_allowed] at hlist
  cases hfield : (data.fieldD "allowed").field? "axioms" with
  | none =>
    rw [hfield] at hlist
    cases hlist
    simp at hx
  | some v =>
    rw [hfield] at hlist
    cases hlist
    exact ⟨items, x, hfield, hx, hfinite, hnan⟩

/-- A document that is no exercise is malformed, or lists an axiom by an infinite number. -/
theorem ofValue_eq_error_cases (h : ofValue data = .error f) :
    (∃ m, f = .malformed m) ∨ f = .breach .infinite ∧ ListsInfinity data := by
  unfold ofValue at h
  dsimp only at h
  -- one field after the other, as they are read
  split at h
  · cases h
    exact .inl ⟨_, rfl⟩
  split at h
  · rcases bind_eq_error_iff.mp h with h | ⟨given, -, h⟩
    · exact .inl (optionalList_eq_error h)
    rcases bind_eq_error_iff.mp h with h | ⟨rules, -, h⟩
    · exact .inl (allowedField_eq_error h)
    rcases bind_eq_error_iff.mp h with h | ⟨rules, -, h⟩
    · exact .inl (listOf_eq_error h)
    rcases bind_eq_error_iff.mp h with h | ⟨rules, -, h⟩
    · obtain ⟨v, -, hv⟩ := exists_of_mapM_eq_error h
      exact .inl (ruleName_eq_error hv)
    rcases bind_eq_error_iff.mp h with h | ⟨axioms, haxioms, h⟩
    · exact .inl (allowedField_eq_error h)
    rcases bind_eq_error_iff.mp h with h | ⟨items, hitems, h⟩
    · exact .inl (listOf_eq_error h)
    rcases bind_eq_error_iff.mp h with h | ⟨numbers, -, h⟩
    · obtain ⟨v, hv, hnumber⟩ := exists_of_mapM_eq_error h
      rcases axiomNumber_eq_error_cases hnumber with hm | ⟨rfl, x, rfl, hfinite, hnan⟩
      · exact .inl hm
      · exact .inr ⟨rfl, listsInfinity_of_allowedField haxioms hitems hv hfinite hnan⟩
    rcases bind_eq_error_iff.mp h with h | ⟨hints, -, h⟩
    · exact .inl (optionalList_eq_error h)
    · cases h
  · cases h
    exact .inl ⟨_, rfl⟩

/-- A document that lists an axiom by an infinite number is no exercise. -/
theorem not_listsInfinity_of_ofValue {e : Exercise} (h : ofValue data = .ok e) :
    ¬ ListsInfinity data := by
  rintro ⟨items, x, hfield, hx, hfinite, hnan⟩
  unfold ofValue at h
  dsimp only at h
  split at h
  · cases h
  split at h
  · obtain ⟨given, -, h⟩ := Rule.bind_eq_ok_iff.mp h
    obtain ⟨rules, -, h⟩ := Rule.bind_eq_ok_iff.mp h
    obtain ⟨rules, -, h⟩ := Rule.bind_eq_ok_iff.mp h
    obtain ⟨rules, -, h⟩ := Rule.bind_eq_ok_iff.mp h
    obtain ⟨axioms, haxioms, h⟩ := Rule.bind_eq_ok_iff.mp h
    obtain ⟨items', hitems, h⟩ := Rule.bind_eq_ok_iff.mp h
    obtain ⟨numbers, hnumbers, -⟩ := Rule.bind_eq_ok_iff.mp h
    -- the axioms are read from the field in question, and each of them is a number
    have hlist : axioms = .list items := by
      rw [eq_of_allowedField haxioms, field?_allowed, hfield, Option.getD_some]
    rw [hlist] at hitems
    cases hitems
    obtain ⟨n, hn⟩ := exists_of_mapM_eq_ok hnumbers _ hx
    simp [axiomNumber, Binary64.truncate?, hfinite] at hn
  · cases h

end Exercise

namespace Catalog

/-- One of the exercises that a document lists has an axiom by an infinite number. -/
def ListsInfinity (catalog : Value) : Prop :=
  ∃ items data, catalog = .list items ∧ data ∈ items ∧ Exercise.ListsInfinity data

/-- A document lists an exercise as the first of its name. -/
def Poses (catalog : Value) (id : String) (e : Exercise) : Prop :=
  ∃ exercises, ofValue catalog = .ok exercises ∧ find exercises id = .ok e

variable {catalog : Value} {f : Failure}

theorem ofValue_eq_error_cases (h : ofValue catalog = .error f) :
    (∃ m, f = .malformed m) ∨ f = .breach .infinite ∧ ListsInfinity catalog := by
  unfold ofValue at h
  split at h
  · next items =>
    obtain ⟨data, hdata, herror⟩ := exists_of_mapM_eq_error h
    rcases Exercise.ofValue_eq_error_cases herror with hm | ⟨hf, hinfinity⟩
    · exact .inl hm
    · exact .inr ⟨hf, items, data, rfl, hdata, hinfinity⟩
  · cases h
    exact .inl ⟨_, rfl⟩

theorem exists_error_of_listsInfinity (h : ListsInfinity catalog) :
    ∃ f, ofValue catalog = .error f := by
  obtain ⟨items, data, rfl, hdata, hinfinity⟩ := h
  cases hitems : ofValue (.list items) with
  | error f => exact ⟨f, rfl⟩
  | ok exercises =>
    obtain ⟨e, he⟩ := exists_of_mapM_eq_ok hitems data hdata
    exact absurd hinfinity (Exercise.not_listsInfinity_of_ofValue he)

end Catalog

/-! ## Arguments -/

namespace Arguments

/-- A word without a dash in front. -/
def IsPlain (word : String) : Prop :=
  word.toList.head? ≠ some '-'

instance (word : String) : Decidable (IsPlain word) :=
  inferInstanceAs (Decidable (word.toList.head? ≠ some '-'))

variable {word : String} {args : List String}

theorem classify_of_isPlain (specs : List Spec) (h : IsPlain word) :
    classify specs word = [.word word] := by
  unfold classify
  split
  · next hword =>
    refine absurd ?_ h
    rw [hword]
    rfl
  · rfl

theorem classifyAll_of_isPlain (specs : List Spec) (h : ∀ word ∈ args, IsPlain word) :
    classifyAll specs args = args.map .word := by
  induction args with
  | nil => rfl
  | cons word args ih =>
    obtain ⟨hword, hargs⟩ := List.forall_mem_cons.mp h
    have hdash : ¬ (word == "--") = true := by
      intro heq
      rw [eq_of_beq heq] at hword
      exact hword rfl
    rw [classifyAll, if_neg hdash, classify_of_isPlain specs hword, ih hargs]
    rfl

theorem attach_map_word (settled : Bool) (args : List String) :
    attach (fun _ => true) settled (args.map .word) = .ok (args.map .word) := by
  induction args generalizing settled with
  | nil => rfl
  | cons word args ih =>
    rw [List.map_cons, attach, if_pos (by simp), ih]
    rfl

/-- Words without a dash in front are read as they are. -/
theorem read_of_isPlain (h : ∀ word ∈ args, IsPlain word) :
    read [] args = .ok (args.map .word) := by
  have hambiguous : (args.map Item.word).contains .ambiguous = false := by
    simp
  unfold read
  dsimp only
  rw [classifyAll_of_isPlain _ h, hambiguous, attach_map_word]
  simp [hasStrayDivider]

end Arguments

/-! ## Commands -/

namespace Command

open Arguments (IsPlain)

theorem ofArguments_check {file : String} (hfile : IsPlain file) (hne : file ≠ "") :
    ofArguments ["check", file] = .ok (.check (some file)) := by
  have hname : Arguments.read [] ["check"] = .ok [.word "check"] :=
    Arguments.read_of_isPlain (by decide)
  have hread : Arguments.read [] [file] = .ok [.word file] :=
    Arguments.read_of_isPlain (List.forall_mem_singleton.mpr hfile)
  rw [ofArguments, hname]
  show ofNamed "check" [file] = _
  rw [ofNamed, hread]
  show Except.ok (check (if (file == "") = true then none else some file)) = _
  rw [if_neg (by simpa using hne)]

theorem ofArguments_exercise {catalog id proof : String} (hcatalog : IsPlain catalog)
    (hid : IsPlain id) (hproof : IsPlain proof) :
    ofArguments ["exercise", catalog, id, proof] =
      .ok (.exercise (some catalog) (some id) (some proof)) := by
  have hname : Arguments.read [] ["exercise"] = .ok [.word "exercise"] :=
    Arguments.read_of_isPlain (by decide)
  have hread : Arguments.read [] [catalog, id, proof] =
      .ok ([catalog, id, proof].map .word) :=
    Arguments.read_of_isPlain (by simp [hcatalog, hid, hproof])
  rw [ofArguments, hname]
  show ofNamed "exercise" [catalog, id, proof] = _
  rw [ofNamed, hread]
  rfl

/-- The verdict on the proof that a document gives. -/
def proofVerdict (s : Settings) (data : Value) : Except Failure Verdict := do
  let p ← Proof.ofValue data
  (Outcome.check s p).result

/-- The verdict on the solution that a document gives of an exercise from a catalog. -/
def solutionVerdict (s : Settings) (catalog : Value) (id : String) (data : Value) :
    Except Failure Verdict := do
  let exercises ← Catalog.ofValue catalog
  let e ← Catalog.find exercises id
  let steps ← (Step.listOfValue e.given.length (stepsOf data)).mapError .malformed
  (e.verify s steps).result

/-- There is a verdict, or a failure that is complained about. -/
def IsSettled (verdict : Except Failure Verdict) : Prop :=
  ∀ f, verdict = .error f → (complaint? f).isSome = true

/-- What is printed about the verdict on a proof. -/
def proofText (v : Verdict) : String :=
  "=== Verification Report ===\n" ++ Document.pretty v.toValue

/-- What is printed about the verdict on a solution. -/
def solutionText (v : Verdict) : String :=
  Document.pretty v.toValue

/-- The report of a command tells a verdict by its exit status: zero if nothing is wrong and one
otherwise, unless the output does not take what is printed. A failure is told by its complaint and
status two, and one without a complaint is not reported at all. -/
def Tells (takes : String → Bool) (text : Verdict → String) (x : Outcome Answer)
    (verdict : Except Failure Verdict) : Prop :=
  match verdict with
  | .ok v =>
    report takes x =
      if takes (text v ++ "\n") then
        .ok { output := text v ++ "\n", complaint := "", status := if v.ok then 0 else 1 }
      else .error (.breach .unencodable)
  | .error f =>
    match complaint? f with
    | some words => report takes x = .ok { output := "", complaint := words ++ "\n", status := 2 }
    | none => report takes x = .error f

/-- A command that prints a line about its verdict tells the verdict. -/
theorem tells_of_result {takes : String → Bool} {x : Outcome Answer}
    {verdict : Except Failure Verdict} {text : Verdict → String}
    (h : x.result = (fun v => line (text v) v.ok) <$> verdict) : Tells takes text x verdict := by
  cases verdict with
  | ok v =>
    have hx : x.result = .ok (line (text v) v.ok) := h
    show report takes x = _
    rw [report, hx]
    rfl
  | error f =>
    have hx : x.result = .error f := h
    unfold Tells
    dsimp only
    cases hcomplaint : complaint? f with
    | some words =>
      show report takes x = .ok { output := "", complaint := words ++ "\n", status := 2 }
      rw [report, hx]
      simp only [hcomplaint]
    | none =>
      show report takes x = .error f
      rw [report, hx]
      simp only [hcomplaint]

/-- A verdict is told if the output takes what is printed. -/
theorem Tells.report_of_takes {takes : String → Bool} {text : Verdict → String}
    {x : Outcome Answer} {v : Verdict} (h : Tells takes text x (.ok v))
    (htaken : takes (text v ++ "\n") = true) :
    report takes x =
      .ok { output := text v ++ "\n", complaint := "", status := if v.ok then 0 else 1 } := by
  simp only [Tells, htaken, if_true] at h
  exact h

/-- What the output does not take is not reported. -/
theorem report_of_not_takes {takes : String → Bool} {x : Outcome Answer}
    (h : (x.result.toOption.map fun a => takes a.output) = some false) :
    report takes x = .error (.breach .unencodable) := by
  unfold report
  cases hx : x.result with
  | error f =>
    rw [hx] at h
    cases h
  | ok a =>
    rw [hx] at h
    have htakes : takes a.output = false := Option.some.inj h
    simp only [htakes, Bool.false_eq_true, if_false]

section Files

variable {s : Settings} {takes : String → Bool} {fileOf : String → Option String}
  {catalogFile id proofFile : String} {catalog data : Value}

/-- A command that checks a proof tells the verdict on the document of its file. -/
theorem tells_check (hdata : fileValue fileOf proofFile = .ok data) :
    Tells takes proofText (run s fileOf (.check (some proofFile))) (proofVerdict s data) := by
  have hresult : (run s fileOf (.check (some proofFile))).result =
      (fun v => line (proofText v) v.ok) <$> proofVerdict s data := by
    rw [run, Outcome.result_bind_of_ok (x := .ofExcept (fileValue fileOf _)) hdata,
      Outcome.result_ofExcept_bind, proofVerdict, map_bind]
    refine bind_congr fun p => ?_
    exact Outcome.result_bind_pure _ _
  exact tells_of_result hresult

theorem exists_text_of_fileValue (h : fileValue fileOf catalogFile = .ok catalog) :
    ∃ text, fileText fileOf catalogFile = .ok text ∧ Document.read text = .ok catalog := by
  obtain ⟨text, htext, hread⟩ := Rule.bind_eq_ok_iff.mp h
  exact ⟨text, htext, mapError_eq_ok_iff.mp hread⟩

/-- No integer in the document of a file is too long. -/
theorem isShort_of_fileValue (h : fileValue fileOf proofFile = .ok data) :
    data.isShort = true := by
  obtain ⟨text, -, hread⟩ := exists_text_of_fileValue h
  exact Document.isShort_of_read hread

/-- A command that checks a solution tells the verdict on the documents of its files. -/
theorem tells_exercise (hcatalog : fileValue fileOf catalogFile = .ok catalog)
    (hdata : fileValue fileOf proofFile = .ok data) :
    Tells takes solutionText
      (run s fileOf (.exercise (some catalogFile) (some id) (some proofFile)))
      (solutionVerdict s catalog id data) := by
  obtain ⟨text, htext, hread⟩ := exists_text_of_fileValue hcatalog
  have hexercises : Catalog.read text = Catalog.ofValue catalog := by
    rw [Catalog.read, hread]
  have hresult : (run s fileOf (.exercise (some catalogFile) (some id) (some proofFile))).result =
      (fun v => line (solutionText v) v.ok) <$> solutionVerdict s catalog id data := by
    rw [run, runExercise, Outcome.result_bind_of_ok (x := .ofExcept (namedFile _)) rfl,
      Outcome.result_bind_of_ok (x := .ofExcept (fileText _ _)) htext, hexercises,
      Outcome.result_ofExcept_bind, solutionVerdict, map_bind]
    refine bind_congr fun exercises => ?_
    rw [Outcome.result_ofExcept_bind, map_bind]
    refine bind_congr fun e => ?_
    rw [Outcome.result_bind_of_ok (x := .ofExcept (namedFile _)) rfl,
      Outcome.result_bind_of_ok (x := .ofExcept (fileValue _ _)) hdata,
      Outcome.result_ofExcept_bind, map_bind]
    refine bind_congr fun steps => ?_
    exact Outcome.result_bind_pure _ _
  exact tells_of_result hresult

end Files

/-! ## Verdicts on proofs -/

section Proofs

variable {s : Settings} {data : Value}

/-- No text of the proof that a document gives strains the reader. -/
def IsUnstrained (data : Value) : Prop :=
  ∀ p, Proof.ofValue data = .ok p → ∀ text ∈ p.texts, ¬Formula.Strained text

/-- If there is room, the proof that an object gives has a verdict, or the object is malformed. -/
theorem isSettled_proofVerdict (hroom : 3 * (s.maxDepth + 1) ≤ Reader.capacity)
    (hobject : data.isObject = true) (hdata : data.isShort = true) (htexts : IsUnstrained data) :
    IsSettled (proofVerdict s data) := by
  intro f hf
  rcases bind_eq_error_iff.mp hf with h | ⟨p, hp, h⟩
  · rw [Proof.ofValue, if_pos hobject] at h
    obtain ⟨m, -, rfl⟩ := mapError_eq_error_iff.mp h
    rfl
  · have htexts := htexts p hp
    have hreported : ∀ d ∈ (p.attempt s.maxDepth).faults s.maxDepth,
        Breach.ofFault? d.fault = none :=
      Proof.ofFault?_eq_none (Proof.isDocumented_of_ofValue hp) (Proof.isShort_of_ofValue hdata hp)
        htexts
    rw [Outcome.check_result hroom hreported fun goal hgoal e =>
      Proof.isPastEnd_eq_false (htexts goal (by simp [Proof.texts, Option.mem_def.mp hgoal]))] at h
    cases h

/-- Only an object is asked for a proof. -/
theorem proofVerdict_of_isObject_eq_false (hdata : data.isObject = false) :
    proofVerdict s data = .error (.breach .noFields) := by
  rw [proofVerdict, Proof.ofValue, if_neg (by simp [hdata])]
  rfl

/-- The document of a proof that adjoins a negated variable to itself. -/
def adjoinedDocument (n : Nat) : Value :=
  .object [("given", .list [.text (Formula.negatedText n)]),
    ("steps", .list [Exercise.adjoiningItem 0])]

theorem ofValue_adjoinedDocument (n : Nat) :
    Proof.ofValue (adjoinedDocument n) = .ok (Proof.adjoined n) := by
  have hgiven : Proof.givenOf (adjoinedDocument n) = .ok [Formula.negatedText n] := rfl
  have hgoal : Proof.goalOf (adjoinedDocument n) = .ok none := rfl
  have hfield : ((adjoinedDocument n).field? "steps").getD (.list []) =
      .list [Exercise.adjoiningItem 0] := rfl
  have hsteps := Exercise.listOfValue_adjoiningItem [Formula.negatedText n].length 0
  have hfields : Proof.ofFields (adjoinedDocument n) = .ok (Proof.adjoined n) := by
    simp only [Proof.ofFields, hgiven, hgoal, hfield, hsteps]
    rfl
  rw [Proof.ofValue, hfields]
  rfl

theorem isShort_adjoinedDocument (n : Nat) : (adjoinedDocument n).isShort = true := by
  have hitem : (Exercise.adjoiningItem 0).isShort = true := by decide +kernel
  simp only [adjoinedDocument, Value.isShort, Value.haveShort, Value.areShort, hitem, Bool.and_self]

theorem proofVerdict_adjoinedDocument (s : Settings) (n : Nat) :
    proofVerdict s (adjoinedDocument n) = (Outcome.check s (Proof.adjoined n)).result := by
  rw [proofVerdict, ofValue_adjoinedDocument]
  rfl

/-- If the limit is far above its default, the proof of some object has no verdict, and nothing is
complained about. -/
theorem exists_proofVerdict_tooNested (h : 701 ≤ s.maxDepth) :
    ∃ data : Value, data.isObject = true ∧ data.isShort = true ∧ IsUnstrained data ∧
      proofVerdict s data = .error (.breach .tooNested) := by
  -- 700 negations keep to the limit, but there is no room for their conjunction
  refine ⟨adjoinedDocument 700, rfl, isShort_adjoinedDocument 700, fun p hp => ?_, ?_⟩
  · rw [ofValue_adjoinedDocument] at hp
    cases hp
    exact Proof.not_strained_adjoined (by decide)
  · rw [proofVerdict_adjoinedDocument]
    exact Proof.check_adjoined (by decide) (by omega) (by decide)

/-- The document of a given of negations alone. -/
def unendedDocument (n : Nat) : Value :=
  .object [("given", .list [.text (Formula.negations n)])]

theorem proofVerdict_unendedDocument (s : Settings) {n : Nat} (hn : n = Reader.capacity + 1) :
    proofVerdict s (unendedDocument n) = .error (.breach .pastEnd) := by
  have hvalue : Proof.ofValue (unendedDocument n) = .ok (Proof.unended n) := rfl
  rw [proofVerdict, hvalue]
  exact Proof.check_unended s hn

/-- Whatever the limit is, some proof has a text that ends where the room does. -/
theorem exists_proofVerdict_pastEnd (s : Settings) :
    ∃ data : Value, data.isObject = true ∧ data.isShort = true ∧
      proofVerdict s data = .error (.breach .pastEnd) := by
  obtain ⟨n, hn⟩ : ∃ n, n = Reader.capacity + 1 := ⟨_, rfl⟩
  exact ⟨unendedDocument n, rfl, rfl, proofVerdict_unendedDocument s hn⟩

end Proofs

/-! ## Verdicts on solutions -/

section Solutions

variable {s : Settings} {catalog : Value} {id : String}

/-- Unless an axiom is given by an infinite number, a failure that is not complained about is that
of an exercise of the catalog. -/
theorem exists_of_solutionVerdict_eq_error (hcatalog : ¬ Catalog.ListsInfinity catalog)
    {data : Value} {f : Failure} (h : solutionVerdict s catalog id data = .error f)
    (hf : complaint? f = none) :
    ∃ e steps, Catalog.Poses catalog id e ∧
      Step.listOfValue e.given.length (stepsOf data) = .ok steps ∧
      (e.verify s steps).result = .error f := by
  rcases bind_eq_error_iff.mp h with h | ⟨exercises, hexercises, h⟩
  · rcases Catalog.ofValue_eq_error_cases h with ⟨m, rfl⟩ | ⟨-, hinfinity⟩
    · cases hf
    · exact absurd hinfinity hcatalog
  rcases bind_eq_error_iff.mp h with h | ⟨e, he, h⟩
  · unfold Catalog.find at h
    split at h <;> cases h
    cases hf
  rcases bind_eq_error_iff.mp h with h | ⟨steps, hsteps, h⟩
  · obtain ⟨m, -, rfl⟩ := mapError_eq_error_iff.mp h
    cases hf
  · exact ⟨e, steps, ⟨exercises, hexercises, he⟩, mapError_eq_ok_iff.mp hsteps, h⟩

theorem solutionVerdict_of_poses {e : Exercise} (he : Catalog.Poses catalog id e) {data : Value}
    {steps : List Step}
    (hsteps : Step.listOfValue e.given.length (stepsOf data) = .ok steps) :
    solutionVerdict s catalog id data = (e.verify s steps).result := by
  obtain ⟨exercises, hexercises, hfind⟩ := he
  simp only [solutionVerdict, hexercises, hfind, hsteps, bind, Except.bind, Except.mapError]

/-- No text of an exercise of that name and of the solution that a document gives strains the
reader. -/
def AreUnstrained (catalog : Value) (id : String) (data : Value) : Prop :=
  ∀ e, Catalog.Poses catalog id e → e.IsUnstrained ∧
    ∀ steps, Step.listOfValue e.given.length (stepsOf data) = .ok steps →
      ∀ t ∈ steps, ¬Formula.Strained t.formula

theorem isShort_stepsOf {data : Value} (h : data.isShort = true) :
    (stepsOf data).isShort = true := by
  unfold stepsOf
  split
  · exact Value.isShort_field?_getD_list h
  · exact h

/-- If there is room and no axiom is given by an infinite number, all solutions of a legible
exercise have a verdict, or else a complaint. -/
theorem isSettled_solutionVerdict (hroom : 3 * (s.maxDepth + 1) ≤ Reader.capacity)
    (hcatalog : ¬ Catalog.ListsInfinity catalog)
    (hlegible : ∀ e, Catalog.Poses catalog id e → e.IsLegible s.maxDepth) {data : Value}
    (hdata : data.isShort = true) (htexts : AreUnstrained catalog id data) :
    IsSettled (solutionVerdict s catalog id data) := by
  intro f hf
  by_cases hcomplaint : complaint? f = none
  · obtain ⟨e, steps, he, hsteps, hverify⟩ :=
      exists_of_solutionVerdict_eq_error hcatalog hf hcomplaint
    have hfair : Step.AreFair steps :=
      { documented := Step.exists_ofValue_of_listOfValue hsteps
        short := Step.isShort_of_listOfValue (isShort_stepsOf hdata) hsteps
        unstrained := (htexts e he).2 steps hsteps }
    rcases Exercise.verify_of_isLegible hroom hfair (htexts e he).1 (hlegible e he) with
      ⟨v, hv⟩ | hnotFound
    · rw [hv] at hverify
      cases hverify
    · rw [hnotFound] at hverify
      cases hverify
      cases hcomplaint
  · exact Option.isSome_iff_ne_none.mpr hcomplaint

/-- Some solution of an exercise that is not legible has neither. -/
theorem exists_not_isSettled {e : Exercise} (he : Catalog.Poses catalog id e)
    (hillegible : ¬ e.IsLegible s.maxDepth) :
    ∃ data, ¬ IsSettled (solutionVerdict s catalog id data) := by
  obtain ⟨data, steps, b, hsteps, hb⟩ := Exercise.exists_breach_of_not_isLegible hillegible
  -- steps are only ever read from a list, which is the document of a solution by itself
  have hdata : stepsOf data = data := by
    cases data with
    | list items => rfl
    | null | bool | int | real | text | object => cases hsteps
  rw [← hdata] at hsteps
  refine ⟨data, fun hsettled => ?_⟩
  cases hsettled (.breach b) (by rw [solutionVerdict_of_poses he hsteps, hb])

/-- A catalog with an axiom that is given by an infinite number is not read. -/
theorem solutionVerdict_of_listsInfinity (hcatalog : Catalog.ListsInfinity catalog)
    (data : Value) :
    solutionVerdict s catalog id data = .error (.breach .infinite) ∨
      ∃ m, solutionVerdict s catalog id data = .error (.malformed m) := by
  obtain ⟨f, hf⟩ := Catalog.exists_error_of_listsInfinity hcatalog
  have hverdict : solutionVerdict s catalog id data = .error f := by
    rw [solutionVerdict, hf]
    rfl
  rcases Catalog.ofValue_eq_error_cases hf with ⟨m, rfl⟩ | ⟨rfl, -⟩
  · exact .inr ⟨m, hverdict⟩
  · exact .inl hverdict

end Solutions

/-! ## Exit statuses -/

/-- The exit status of a command that checks a proof or a solution tells the verdict on the
documents of its files, in which no number is too long, and a failure without a complaint is not
told. If there is room for formulas one level higher than the limit and no text strains the reader,
objects that should give a proof all have a verdict or a complaint, and so have all solutions of a
legible exercise, unless the catalog gives an axiom by an infinite number; such a catalog is not
read. Nothing else than an object has a verdict or a complaint, some solution of an exercise that is
not legible has neither, and so have some objects if the limit is far above its default or a text
ends where the room does. -/
theorem statuses_tell (s : Settings) (takes : String → Bool) :
    (∀ fileOf file data, fileValue fileOf file = .ok data → data.isShort = true ∧
      Tells takes proofText (run s fileOf (.check (some file))) (proofVerdict s data)) ∧
    (∀ file, IsPlain file → file ≠ "" →
      ofArguments ["check", file] = .ok (.check (some file))) ∧
    (3 * (s.maxDepth + 1) ≤ Reader.assured → ∀ data : Value, data.isObject = true →
      data.isShort = true → IsUnstrained data → IsSettled (proofVerdict s data)) ∧
    (701 ≤ s.maxDepth → ∃ data : Value, data.isObject = true ∧ data.isShort = true ∧
      IsUnstrained data ∧ proofVerdict s data = .error (.breach .tooNested)) ∧
    (∃ data : Value, data.isObject = true ∧ data.isShort = true ∧
      proofVerdict s data = .error (.breach .pastEnd)) ∧
    (∀ data : Value, data.isObject = false →
      proofVerdict s data = .error (.breach .noFields)) ∧
    (∀ fileOf catalogFile id proofFile catalog data, fileValue fileOf catalogFile = .ok catalog →
      fileValue fileOf proofFile = .ok data →
        Tells takes solutionText
          (run s fileOf (.exercise (some catalogFile) (some id) (some proofFile)))
          (solutionVerdict s catalog id data)) ∧
    (∀ catalogFile id proofFile, IsPlain catalogFile → IsPlain id → IsPlain proofFile →
      ofArguments ["exercise", catalogFile, id, proofFile] =
        .ok (.exercise (some catalogFile) (some id) (some proofFile))) ∧
    (3 * (s.maxDepth + 1) ≤ Reader.assured → ∀ catalog id, ¬ Catalog.ListsInfinity catalog →
      (∀ e, Catalog.Poses catalog id e → e.IsLegible s.maxDepth) →
        ∀ data : Value, data.isShort = true → AreUnstrained catalog id data →
          IsSettled (solutionVerdict s catalog id data)) ∧
    (∀ catalog id e, Catalog.Poses catalog id e → ¬ e.IsLegible s.maxDepth →
      ∃ data, ¬ IsSettled (solutionVerdict s catalog id data)) ∧
    (∀ catalog id data, Catalog.ListsInfinity catalog →
      solutionVerdict s catalog id data = .error (.breach .infinite) ∨
        ∃ m, solutionVerdict s catalog id data = .error (.malformed m)) := by
  have hcapacity (h : 3 * (s.maxDepth + 1) ≤ Reader.assured) :
      3 * (s.maxDepth + 1) ≤ Reader.capacity := Int.le_trans h (by decide)
  exact ⟨fun fileOf file data hdata => ⟨isShort_of_fileValue hdata, tells_check hdata⟩,
    fun file => ofArguments_check,
    fun hroom data => isSettled_proofVerdict (hcapacity hroom),
    exists_proofVerdict_tooNested, exists_proofVerdict_pastEnd s,
    fun data => proofVerdict_of_isObject_eq_false,
    fun fileOf catalogFile id proofFile catalog data => tells_exercise,
    fun catalogFile id proofFile => ofArguments_exercise,
    fun hroom catalog id hfinite hlegible data =>
      isSettled_solutionVerdict (hcapacity hroom) hfinite hlegible,
    fun catalog id e => exists_not_isSettled,
    fun catalog id data hcatalog => solutionVerdict_of_listsInfinity hcatalog data⟩

/-- A catalog with an exercise to be solved by modus ponens alone. -/
def detachingCatalog : Value :=
  .list [.object [("id", .text "detach"), ("goal", .text "B"),
    ("given", .list [.text "A", .text "A -> B"]), ("allowed", .object [("axioms", .list [])])]]

theorem ofValue_detachingCatalog :
    Catalog.ofValue detachingCatalog = .ok [Exercise.detaching] :=
  rfl

theorem eq_detaching_of_poses {e : Exercise}
    (h : Catalog.Poses detachingCatalog "detach" e) : e = Exercise.detaching := by
  obtain ⟨exercises, hexercises, he⟩ := h
  rw [ofValue_detachingCatalog] at hexercises
  cases hexercises
  cases he
  rfl

/-- By default an empty proof is accepted, givens that are no list are complained about, and every
solution of an exercise with givens and a goal that are texts has a verdict or a complaint, if it
holds no overlong number and no text that strains the reader. -/
theorem statuses_tell_samples :
    (∃ r, report Text.isEncodable
      (run {} (fun _ => some "\x7b\x7d") (.check (some "p.json"))) = .ok r ∧ r.status = 0) ∧
    (∃ r, report Text.isEncodable
      (run {} (fun _ => some "\x7b\"given\": 5\x7d") (.check (some "p.json"))) = .ok r ∧
        r.status = 2) ∧
    ∀ data : Value, data.isShort = true → AreUnstrained detachingCatalog "detach" data →
      IsSettled (solutionVerdict {} detachingCatalog "detach" data) := by
  obtain ⟨hcheck, -, -, -, -, -, -, -, hexercise, -, -⟩ := statuses_tell {} Text.isEncodable
  refine ⟨?_, ?_, ?_⟩
  · obtain ⟨-, htells⟩ := hcheck (fun _ => some "\x7b\x7d") "p.json" (.object []) rfl
    have hverdict : proofVerdict {} (.object []) = .ok { errors := [] } := rfl
    rw [hverdict] at htells
    have htaken : Text.isEncodable (proofText { errors := [] } ++ "\n") = true := by
      decide +kernel
    exact ⟨_, htells.report_of_takes htaken, rfl⟩
  · obtain ⟨-, htells⟩ := hcheck (fun _ => some "\x7b\"given\": 5\x7d") "p.json"
      (.object [("given", .int 5)]) rfl
    have hverdict : proofVerdict {} (.object [("given", .int 5)]) =
        .error (.malformed .given) := rfl
    rw [hverdict] at htells
    exact ⟨_, htells, rfl⟩
  · have hfinite : ¬ Catalog.ListsInfinity detachingCatalog := by
      intro hinfinity
      obtain ⟨f, hf⟩ := Catalog.exists_error_of_listsInfinity hinfinity
      rw [ofValue_detachingCatalog] at hf
      cases hf
    refine hexercise (by decide) detachingCatalog "detach" hfinite fun e he => ?_
    rw [eq_detaching_of_poses he]
    exact ⟨rfl, fun _ => ⟨fun _ => .inr rfl, fun hrule => by simp [Exercise.detaching] at hrule⟩⟩

/-- A list in place of a proof, an axiom by an infinite number and a goal that is a number end their
commands without a report, and so does a given that is half of a surrogate pair, which the verdict
quotes. -/
theorem report_eq_error_samples :
    ofArguments ["check", "p.json"] = .ok (.check (some "p.json")) ∧
    report Text.isEncodable (run {} (fun _ => some "[]") (.check (some "p.json"))) =
      .error (.breach .noFields) ∧
    report Text.isEncodable (run {}
      (fun _ => some "[\x7b\"id\": \"x\", \"allowed\": \x7b\"axioms\": [Infinity]\x7d\x7d]")
      (.exercise (some "c.json") (some "x") (some "p.json"))) = .error (.breach .infinite) ∧
    report Text.isEncodable
      (run {} (fun _ => some "\x7b\"given\": [\"\\ud800\"]\x7d") (.check (some "p.json"))) =
        .error (.breach .unencodable) ∧
    solutionVerdict {} (.list [.object [("id", .text "x"), ("goal", .int 5)]]) "x" (.list []) =
      .error (.breach .notText) := by
  refine ⟨rfl, rfl, rfl, report_of_not_takes ?_, rfl⟩
  decide +kernel

end Command

end Propositional
