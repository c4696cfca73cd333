import Targeting.Component.Basic
import Targeting.Component.Catalogue
import Targeting.Component.Visibility
import Targeting.Decimal.Binary64
import Targeting.Decimal.Digits
import Targeting.Decimal.Extended
import Targeting.Decimal.Shortest
import Targeting.Definition.Basic
import Targeting.Definition.Condition
import Targeting.Definition.Formula
import Targeting.Definition.Rule
import Targeting.Evaluation.Engine
import Targeting.Evaluation.Machine
import Targeting.Evaluation.Operand
import Targeting.Json.Decode
import Targeting.Json.Document
import Targeting.Json.Printer
import Targeting.Json.Reader
import Targeting.Json.Value
import Targeting.Navigation.Basic
import Targeting.Navigation.FlatRecord
import Targeting.Navigation.Snapshot
import Targeting.Proofs.Component.Listing
import Targeting.Proofs.Component.Triggers
import Targeting.Proofs.Component.Visibility
import Targeting.Proofs.Decimal.WholeNumber
import Targeting.Proofs.Definition.Combination
import Targeting.Proofs.Definition.Condition
import Targeting.Proofs.Definition.Fields
import Targeting.Proofs.Definition.Formula
import Targeting.Proofs.Definition.FormulaWords
import Targeting.Proofs.Definition.Literal
import Targeting.Proofs.Definition.Negation
import Targeting.Proofs.Definition.Numbering
import Targeting.Proofs.Definition.Reordering
import Targeting.Proofs.Definition.WellFormed
import Targeting.Proofs.Evaluation.BuildingPolicy
import Targeting.Proofs.Evaluation.Connectives
import Targeting.Proofs.Evaluation.Dependence
import Targeting.Proofs.Evaluation.DepthLimit
import Targeting.Proofs.Evaluation.FaultPlace
import Targeting.Proofs.Evaluation.FieldPolicy
import Targeting.Proofs.Evaluation.Moment
import Targeting.Proofs.Evaluation.Outline
import Targeting.Proofs.Evaluation.Recording
import Targeting.Proofs.Evaluation.Reference
import Targeting.Proofs.Evaluation.ReferenceGraph
import Targeting.Proofs.Evaluation.Registration
import Targeting.Proofs.Evaluation.SideBySide
import Targeting.Proofs.Evaluation.Simulation
import Targeting.Proofs.Evaluation.StackHeight
import Targeting.Proofs.Evaluation.Tree
import Targeting.Proofs.Evaluation.TurnedComparison
import Targeting.Proofs.Evaluation.VariablePairs
import Targeting.Proofs.Failure
import Targeting.Proofs.Json.Exchange
import Targeting.Proofs.Navigation.Building
import Targeting.Proofs.Navigation.Leaves
import Targeting.Proofs.Rule.Admission
import Targeting.Proofs.Rule.Balance
import Targeting.Proofs.Rule.CheckFault
import Targeting.Proofs.Rule.Columns
import Targeting.Proofs.Rule.Concatenation
import Targeting.Proofs.Rule.Conservation
import Targeting.Proofs.Rule.Expression
import Targeting.Proofs.Rule.ExpressionReader
import Targeting.Proofs.Rule.FaultOrigin
import Targeting.Proofs.Rule.FirstFault
import Targeting.Proofs.Rule.LexicalGrammar
import Targeting.Proofs.Rule.Names
import Targeting.Proofs.Rule.Rendering
import Targeting.Proofs.Rule.ReversePolish
import Targeting.Proofs.Rule.TurnedComparison
import Targeting.Proofs.Rule.WellFormed
import Targeting.Proofs.Rule.Words
import Targeting.Proofs.Settings.Layers
import Targeting.Proofs.Settings.TextVariables
import Targeting.Proofs.Snapshot.Filling
import Targeting.Proofs.Value.Comparison
import Targeting.Proofs.Verdicts.EntryPoints
import Targeting.Proofs.Verdicts.Memory
import Targeting.Proofs.Verdicts.PageChoice
import Targeting.Proofs.Verdicts.Record
import Targeting.Proofs.Verdicts.Reports
import Targeting.Rule.Fault
import Targeting.Rule.Lexeme
import Targeting.Rule.Operator
import Targeting.Rule.Program
import Targeting.Rule.Token
import Targeting.Rule.Variable
import Targeting.Rule.WellFormed
import Targeting.Settings.Application
import Targeting.Settings.Engine
import Targeting.Settings.Path
import Targeting.Settings.Sources
import Targeting.Settings.Toml.Body
import Targeting.Settings.Toml.Document
import Targeting.Settings.Toml.Text
import Targeting.Settings.Toml.Time
import Targeting.Settings.Toml.Value
import Targeting.Settings.Tree
import Targeting.Snapshot.Basic
import Targeting.Snapshot.Draft
import Targeting.Sorted.ByKey
import Targeting.Sorted.Dict
import Targeting.Sorted.NameSet
import Targeting.Text.Blank
import Targeting.Text.LetterCase
import Targeting.Text.WordChar
import Targeting.Value.Basic
import Targeting.Value.Comparison
import Targeting.Verdicts
