import Arrow.Main
import Arrow.Proofs.Evaluation.Bindings
import Arrow.Proofs.Evaluation.Isolation
import Arrow.Proofs.Grammar.RoundTrip
import Arrow.Proofs.Token.Lossless
import Arrow.Proofs.Evaluation.Constants
import Arrow.Proofs.Evaluation.Outcome
import Arrow.Proofs.Evaluation.Leniency
import Arrow.Proofs.Action.Avoids
import Arrow.Proofs.Evaluation.LoopFree
import Arrow.Proofs.Evaluation.Termination
import Arrow.Proofs.Evaluation.Faults
import Arrow.Proofs.Evaluation.Operators
import Arrow.Proofs.Grammar.Locality
import Arrow.Proofs.Token.Lines
import Arrow.Proofs.Evaluation.Layout
import Arrow.Proofs.Evaluation.Origins
import Arrow.Proofs.Evaluation.Desugaring
import Arrow.Proofs.Evaluation.Repetition
import Arrow.Proofs.Evaluation.Chain
import Arrow.Proofs.Evaluation.Irrelevance
import Arrow.Proofs.Dialogue.Streams
import Arrow.Proofs.Evaluation.Held
import Arrow.Proofs.Command.Listings
import Arrow.Proofs.Evaluation.FunctionTables
import Arrow.Proofs.Evaluation.Atomicity
import Arrow.Proofs.Evaluation.Returns
import Arrow.Proofs.Evaluation.Targets
import Arrow.Proofs.Grammar.EndOfInput
import Arrow.Proofs.Grammar.Names
import Arrow.Proofs.Grammar.Spelling
import Arrow.Proofs.Value.Comparison
import Arrow.Proofs.Value.Numbers
import Arrow.Proofs.Value.SelfEquality
import Arrow.Proofs.Value.ExactArithmetic
import Arrow.Proofs.Environment.History
import Arrow.Proofs.Grammar.Consistency
import Arrow.Proofs.Token.Markers
import Arrow.Proofs.Value.Indexing
import Arrow.Proofs.Evaluation.ObjectLiterals
import Arrow.Proofs.Value.IntegerText
import Arrow.Proofs.Command.Remedies
import Arrow.Proofs.Grammar.Lookahead
