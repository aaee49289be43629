import LispRepl.Completion
import LispRepl.Main
import LispRepl.Program
import LispRepl.Proofs.ArmedPrompt
import LispRepl.Proofs.BatchAgreement
import LispRepl.Proofs.ExchangeAgreement
import LispRepl.Proofs.RequestLedger
import LispRepl.Proofs.VerdictAgreement
import LispRepl.Proofs.BridgeHistory
import LispRepl.Proofs.LineSplitting
import LispRepl.Proofs.DatumGrammar
import LispRepl.Proofs.TextCutting
import LispRepl.Proofs.PrintedText
import LispRepl.Proofs.LostResets
import LispRepl.Proofs.WorkerLoss
import LispRepl.Proofs.RequestInFlight
import LispRepl.Proofs.NoRequestLost
import LispRepl.Proofs.Listener
import LispRepl.Proofs.ListenerAgreement
import LispRepl.Proofs.EvaluationCongruence
import LispRepl.Proofs.ScopeFrame
import LispRepl.Proofs.LimitCut
import LispRepl.Proofs.WrittenJson
import LispRepl.Proofs.MessageLines
import LispRepl.Proofs.ServedLines
import LispRepl.Proofs.ReplyHistory
import LispRepl.Proofs.OutcomeLines
import LispRepl.Proofs.PrintedNesting
import LispRepl.Proofs.EditorQueues
import LispRepl.Proofs.EndOfInput
import LispRepl.Proofs.DatumTree
import LispRepl.Proofs.NestingLimit
import LispRepl.Proofs.ExactArithmetic
import LispRepl.Proofs.LiteralWord
import LispRepl.Proofs.PairLaws
import LispRepl.Proofs.NumberOrder
import LispRepl.Proofs.ScriptPlayback
import LispRepl.Proofs.EditorOrder
import LispRepl.Proofs.ReaderHistory
import LispRepl.Proofs.WordCompletion
