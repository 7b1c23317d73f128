import Propositional.CommandLine.Arguments
import Propositional.CommandLine.Command
import Propositional.Document.Encoding
import Propositional.Document.Reader
import Propositional.Document.Value
import Propositional.Document.Writer
import Propositional.Editor
import Propositional.Exchange.Malformed
import Propositional.Exchange.PlainText
import Propositional.Exchange.ProofForm
import Propositional.Exchange.Signs
import Propositional.Exchange.StepForm
import Propositional.Exchange.Tag
import Propositional.Exercise
import Propositional.Failure
import Propositional.Formula.Basic
import Propositional.Formula.Printer
import Propositional.Formula.Reader
import Propositional.Formula.Room
import Propositional.Formula.Token
import Propositional.Journal
import Propositional.Main
import Propositional.Number.Binary64
import Propositional.Number.Shortest
import Propositional.Proof.Checker
import Propositional.Proof.Contradiction
import Propositional.Proof.Effort
import Propositional.Proof.Justification
import Propositional.Proof.Objection
import Propositional.Proof.Rule
import Propositional.Schema
import Propositional.Semantics.Entailment
import Propositional.Semantics.TruthTable
import Propositional.Semantics.Valuation
import Propositional.Service
import Propositional.Service.Address
import Propositional.Service.IPLiteral
import Propositional.Service.Router
import Propositional.Settings
import Propositional.Table
import Propositional.Text.Alphanumeric
import Propositional.Text.Blank
import Propositional.Text.CharSet
import Propositional.Text.Digit
import Propositional.Text.Half
import Propositional.Text.Printable
import Propositional.Text.Quoted
import Propositional.Text.Upper
import Propositional.Proofs.Matching
import Propositional.Proofs.Inference
import Propositional.Proofs.Efforts
import Propositional.Proofs.Orders
import Propositional.Proofs.References
import Propositional.Proofs.Derivation
import Propositional.Proofs.Soundness
import Propositional.Proofs.Hilbert
import Propositional.Proofs.Completeness
import Propositional.Proofs.Contradictions
import Propositional.Proofs.Refutation
import Propositional.Proofs.Grammar
import Propositional.Proofs.Reading
import Propositional.Proofs.Parsing
import Propositional.Proofs.Layout
import Propositional.Proofs.Viability
import Propositional.Proofs.Printing
import Propositional.Proofs.Parentheses
import Propositional.Proofs.Conclusions
import Propositional.Proofs.Documents
import Propositional.Proofs.Objections
import Propositional.Proofs.Diagnosis
import Propositional.Proofs.Editing
import Propositional.Proofs.Locality
import Propositional.Proofs.Tags
import Propositional.Proofs.Scripts
import Propositional.Proofs.Solutions
import Propositional.Proofs.Numbers
import Propositional.Proofs.Refusals
import Propositional.Proofs.Answers
import Propositional.Proofs.Bindings
import Propositional.Proofs.Search
import Propositional.Proofs.Legibility
import Propositional.Proofs.Statuses
import Propositional.Proofs.Deduction
import Propositional.Proofs.Instances
import Propositional.Proofs.Samples
import Propositional.Proofs.TruthTables
import Propositional.Proofs.Partiality
import Propositional.Proofs.Descent
import Propositional.Proofs.Spans
import Propositional.Proofs.Heights
import Propositional.Proofs.Occurrences
