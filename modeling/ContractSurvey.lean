import ContractSurvey.Number.Written
import ContractSurvey.Number.Quantity
import ContractSurvey.Text.Blank
import ContractSurvey.Text.LetterCase
import ContractSurvey.Text.Digit
import ContractSurvey.Text.Occurrence
import ContractSurvey.Text.Quoted
import ContractSurvey.Sequence.Slice
import ContractSurvey.Sequence.Distinct
import ContractSurvey.Sequence.Ledger
import ContractSurvey.Digest.Sha256
import ContractSurvey.Digest.Keccak
import ContractSurvey.Json.Line
import ContractSurvey.Json.Reader
import ContractSurvey.Bytecode.Selectors
import ContractSurvey.Bytecode.Sweep
import ContractSurvey.Bytecode.Trailer
import ContractSurvey.Profile.Printer
import ContractSurvey.Comparison.Family
import ContractSurvey.Comparison.Insight
import ContractSurvey.Chart.Board
import ContractSurvey.Report.Format
import ContractSurvey.Settings
import ContractSurvey.Node.Access
import ContractSurvey.Node.Record
import ContractSurvey.CommandLine.Trace
import ContractSurvey.Main
import ContractSurvey.Proofs.Comparison.Ranking
import ContractSurvey.Proofs.Comparison.Permutation
import ContractSurvey.Proofs.Bytecode.Dispatcher
import ContractSurvey.Proofs.CommandLine.Spelling
import ContractSurvey.Proofs.Csv.Reader
import ContractSurvey.Proofs.Node.Pace
import ContractSurvey.Proofs.Number.Decimal
import ContractSurvey.Proofs.Json.Grammar
import ContractSurvey.Proofs.Json.Reader
import ContractSurvey.Proofs.Json.Numeral
import ContractSurvey.Proofs.Json.Printer
import ContractSurvey.Proofs.Report.Table
import ContractSurvey.Proofs.Report.Data
import ContractSurvey.Proofs.Bytecode.Selectors
import ContractSurvey.Proofs.Profile.Ranking
import ContractSurvey.Proofs.Profile.Code
import ContractSurvey.Proofs.Node.Steady
import ContractSurvey.Proofs.Profile.Spelling
import ContractSurvey.Proofs.Profile.Checked
import ContractSurvey.Proofs.CommandLine.Ending
import ContractSurvey.Proofs.Sequence.Tally
import ContractSurvey.Proofs.Bytecode.Sweep
import ContractSurvey.Proofs.Bytecode.Taken
import ContractSurvey.Proofs.Bytecode.Push4
import ContractSurvey.Proofs.Bytecode.Trailer
import ContractSurvey.Proofs.Bytecode.Extension
import ContractSurvey.Proofs.Profile.Extension
import ContractSurvey.Proofs.Comparison.Proxy
import ContractSurvey.Proofs.Comparison.Failed
import ContractSurvey.Proofs.Comparison.Threshold
import ContractSurvey.Proofs.Node.Block
import ContractSurvey.Proofs.CommandLine.Value
import ContractSurvey.Proofs.CommandLine.Block
import ContractSurvey.Proofs.CommandLine.Giving
import ContractSurvey.Proofs.CommandLine.BlockLine
import ContractSurvey.Proofs.Comparison.Overlap
import ContractSurvey.Proofs.Comparison.Matrix
import ContractSurvey.Proofs.Comparison.Restriction
import ContractSurvey.Proofs.Bytecode.Heuristic
import ContractSurvey.Proofs.Profile.Arrangement
import ContractSurvey.Proofs.Profile.Confidence
import ContractSurvey.Proofs.Node.RoundTrip
import ContractSurvey.Proofs.Report.Summary
import ContractSurvey.Proofs.Report.Size
import ContractSurvey.Proofs.Profile.Gas
import ContractSurvey.Proofs.Profile.Growth
import ContractSurvey.Proofs.Chart.Rows
import ContractSurvey.Proofs.DisjointSet.Rank
import ContractSurvey.Proofs.DisjointSet.Signed
