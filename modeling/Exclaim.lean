import Exclaim.Main
import Exclaim.Tree.Equality
import Exclaim.Proofs.Parse.RoundTrip
import Exclaim.Proofs.Source.Coverage
import Exclaim.Proofs.Source.LineCount
import Exclaim.Proofs.Source.StartLine
import Exclaim.Proofs.Parse.Progress
import Exclaim.Proofs.Source.Spelling
import Exclaim.Proofs.Source.LongestMatch
import Exclaim.Proofs.Source.Stray
import Exclaim.Proofs.Diagnostic.Wording
import Exclaim.Proofs.Parse.Language
import Exclaim.Proofs.Evaluation.Failures
import Exclaim.Proofs.Evaluation.Respect
import Exclaim.Proofs.Evaluation.Order
import Exclaim.Proofs.Parse.Rewritten
import Exclaim.Proofs.Parse.Replay.Basic
import Exclaim.Proofs.Parse.Replay.Expression
import Exclaim.Proofs.Parse.Replay.Statement
import Exclaim.Proofs.Parse.Concatenation
import Exclaim.Proofs.Parse.Replay.Access
import Exclaim.Proofs.Parse.Combined
import Exclaim.Proofs.Grammar.Extension
import Exclaim.Proofs.Parse.Balance
import Exclaim.Proofs.Parse.Yield
import Exclaim.Proofs.Tree.Unambiguous
import Exclaim.Proofs.Text.Location
import Exclaim.Proofs.Source.Alone
import Exclaim.Proofs.Source.Gaps
import Exclaim.Proofs.Source.Warnings
import Exclaim.Proofs.Parse.ErrorPlace
import Exclaim.Proofs.Grammar.History
import Exclaim.Proofs.Evaluation.History
import Exclaim.Proofs.Evaluation.Transparency
import Exclaim.Proofs.Value.NumberText
import Exclaim.Proofs.Value.TextNumber
import Exclaim.Proofs.Value.WordOperator
import Exclaim.Proofs.Parse.Expectation
