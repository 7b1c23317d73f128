import Propositional.Journal
import Propositional.Semantics.Valuation
import Propositional.Settings

/-!
# Tautologies and entailment

Both questions are answered by going through valuations, name by name and no further than the
names so far leave the answer open. Limits guard the search: above its limit a formula is not
called a tautology without looking, and entailment looks at a sample only, which the answer says.

## Main definitions

* `Formula.isTautology`: truth under all valuations, within the limit
* `Entailment`: an answer with its countermodels
* `entails`: the search for countermodels
-/

namespace Propositional

/-- Why a search breaks off. -/
inductive SearchError where
  | undefined (u : Undefined)
  | sample (e : Valuation.SampleError)
deriving DecidableEq, Inhabited

/-- Whether formulas are all true under a valuation; the first false one settles it. -/
def Valuation.satisfies (v : Valuation) : List Formula → Except Undefined Bool
  | [] => .ok true
  | f :: fs =>
    match f.evaluate v with
    | .error u => .error u
    | .ok false => .ok false
    | .ok true => satisfies v fs

/-- Whether a formula is true under all valuations that give values to further names beside `v`,
counting up from all false. Where `v` settles the formula the names are not gone through. -/
def Formula.trueThroughout (f : Formula) : List String → Valuation → Except Undefined Bool
  | [], v => f.evaluate v
  | x :: xs, v =>
    match f.evaluate v with
    | .ok b => .ok b
    | .error _ =>
      match f.trueThroughout xs (v.set x false) with
      | .error u => .error u
      | .ok false => .ok false
      | .ok true => f.trueThroughout xs (v.set x true)

/-- The channel of the semantic questions. -/
def semanticsChannel : String := Journal.channel "semantics"

namespace Formula

/-- Whether a formula has more variables than a tautology check looks at. -/
def exceedsTautologyLimit (s : Settings) (f : Formula) : Bool :=
  s.tautologyLimit < f.vars.length

/-- Whether a formula is true under all valuations; above the limit the answer is no. -/
def isTautology (s : Settings) (f : Formula) : Except Undefined Bool :=
  if f.exceedsTautologyLimit s then .ok false
  else f.trueThroughout f.vars []

/-- The notes that `isTautology` leaves. -/
def tautologyNotes (s : Settings) (f : Formula) : List Journal.Note :=
  if f.exceedsTautologyLimit s then
    [{ level := .warning, source := semanticsChannel,
       message := "tautology check skipped: " ++ Text.integer f.vars.length
         ++ " variables exceed the limit of " ++ Text.integer s.tautologyLimit }]
  else []

end Formula

/-- The answer to a question of entailment: whether no countermodel was found, those that were,
and whether all valuations were looked at. -/
structure Entailment where
  valid : Bool
  countermodels : List Valuation
  exhaustive : Bool
deriving DecidableEq, Inhabited

namespace Entailment

/-- Whether a valuation makes all premises true and the conclusion false. -/
def isCountermodel (premises : List Formula) (conclusion : Formula) (v : Valuation) :
    Except Undefined Bool :=
  match v.satisfies premises with
  | .error u => .error u
  | .ok false => .ok false
  | .ok true =>
    match conclusion.evaluate v with
    | .error u => .error u
    | .ok b => .ok !b

/-- Whether a search ends with what it has found. The limit is looked at only behind a countermodel,
so that one is found whatever the limit is. -/
def isFull (limit : Int) (found : List Valuation) : Bool :=
  !found.isEmpty && limit ≤ found.length

/-- The first countermodels, up to a limit, among all valuations that give values to further names
beside `v`, counting up from all false. Where `v` settles that there is none the names are not gone
through. -/
def search (premises : List Formula) (conclusion : Formula) :
    List String → Valuation → Int → Except Undefined (List Valuation)
  | [], v, _ =>
    match isCountermodel premises conclusion v with
    | .error u => .error u
    | .ok b => .ok (if b then [v] else [])
  | x :: xs, v, limit =>
    match isCountermodel premises conclusion v with
    | .ok false => .ok []
    | _ =>
      match search premises conclusion xs (v.set x false) limit with
      | .error u => .error u
      | .ok found =>
        if isFull limit found then .ok found
        else
          match search premises conclusion xs (v.set x true) (limit - found.length) with
          | .error u => .error u
          | .ok more => .ok (found ++ more)

/-- The first countermodels, up to a limit, among the valuations that `count` values of a counter
give, from `counter` on. -/
def searchSamples (premises : List Formula) (conclusion : Formula) (names : List String)
    (bits : List Nat) : (count counter : Nat) → Int → Except Undefined (List Valuation)
  | 0, _, _ => .ok []
  | count + 1, counter, limit =>
    let v := Valuation.ofCounter names bits counter
    match isCountermodel premises conclusion v with
    | .error u => .error u
    | .ok false => searchSamples premises conclusion names bits count (counter + 1) limit
    | .ok true =>
      if isFull limit [v] then .ok [v]
      else
        match searchSamples premises conclusion names bits count (counter + 1) (limit - 1) with
        | .error u => .error u
        | .ok found => .ok (v :: found)

/-- The variables of a question in order of first occurrence. -/
def vars (premises : List Formula) (conclusion : Formula) : List String :=
  Formula.varsOf (premises ++ [conclusion])

/-- Whether all valuations are looked at. -/
def isExhaustive (s : Settings) (premises : List Formula) (conclusion : Formula) : Bool :=
  (vars premises conclusion).length ≤ s.entailmentLimit

/-- The notes that `entails` leaves. -/
def notes (s : Settings) (premises : List Formula) (conclusion : Formula) : List Journal.Note :=
  if isExhaustive s premises conclusion then []
  else
    [{ level := .info, source := semanticsChannel,
       message := "entailment over " ++ Text.integer (vars premises conclusion).length
         ++ " variables: sampling " ++ Text.integer s.entailmentSamples ++ " valuations" }]

/-- The first countermodels among all valuations of the variables. -/
def ofAll (s : Settings) (premises : List Formula) (conclusion : Formula) :
    Except SearchError (List Valuation) :=
  (search premises conclusion (vars premises conclusion) [] s.maxCountermodels).mapError .undefined

/-- The first countermodels among a sample of the valuations of the variables. -/
def ofSample (s : Settings) (premises : List Formula) (conclusion : Formula) :
    Except SearchError (List Valuation) :=
  let names := vars premises conclusion
  if s.entailmentSamples ≤ 0 then .ok []
  else
    match Valuation.bitsFrom s.entailmentLimit 0 names with
    | .error e => .error (.sample e)
    | .ok bits =>
      (searchSamples premises conclusion names bits s.entailmentSamples.toNat 0
        s.maxCountermodels).mapError .undefined

end Entailment

/-- Whether premises entail a conclusion, by a search for countermodels. -/
def entails (s : Settings) (premises : List Formula) (conclusion : Formula) :
    Except SearchError Entailment :=
  let exhaustive := Entailment.isExhaustive s premises conclusion
  let found := if exhaustive then Entailment.ofAll s premises conclusion
    else Entailment.ofSample s premises conclusion
  match found with
  | .error e => .error e
  | .ok found => .ok { valid := found.isEmpty, countermodels := found, exhaustive }

end Propositional
