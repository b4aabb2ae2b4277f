import RecordRules.Engine
import RecordRules.NamedRule
import RecordRules.Number.Scientific
import RecordRules.Proofs.JoinedTexts
import RecordRules.Proofs.Exchange
import RecordRules.Proofs.Splitting
import RecordRules.Proofs.Outcomes
import RecordRules.Proofs.Rendering
import RecordRules.Proofs.Admission
import RecordRules.Proofs.WrittenJson
import RecordRules.Proofs.ExactReading
import RecordRules.Proofs.StoredTree
import RecordRules.Proofs.Recompilation
import RecordRules.Proofs.WrittenBack
import RecordRules.Proofs.WholeNumbers
import RecordRules.Proofs.StoredRule
import RecordRules.Proofs.ExchangeFormat
import RecordRules.Proofs.ViablePrefixes
import RecordRules.Proofs.RaisedLimits
import RecordRules.Proofs.SpacedTexts
import RecordRules.Proofs.LexErrors
import RecordRules.Proofs.PrintedTokens
import RecordRules.Proofs.SharedCache
import RecordRules.Proofs.ImportedLiterals
import RecordRules.Proofs.SharedObjects
import RecordRules.Proofs.CombinedRules
import RecordRules.Proofs.Complements
import RecordRules.Proofs.NumberValues
import RecordRules.Proofs.NumberComparison
import RecordRules.Proofs.Numerals
import RecordRules.Proofs.InOrder
import RecordRules.Proofs.Phases
import RecordRules.Proofs.LimitsText
import RecordRules.Proofs.DescentState
import RecordRules.Proofs.ReadBack
