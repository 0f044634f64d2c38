import SmallLisp.Environment.Definition
import SmallLisp.Main
import SmallLisp.Session.Step
import SmallLisp.Proofs.Evaluation.Ends
import SmallLisp.Proofs.Evaluation.Locality
import SmallLisp.Proofs.Environment.Sound
import SmallLisp.Proofs.Number.Rounding
import SmallLisp.Proofs.Number.Monotone
import SmallLisp.Proofs.Evaluation.Arithmetic
import SmallLisp.Proofs.Evaluation.Builtins
import SmallLisp.Proofs.Evaluation.Safety
import SmallLisp.Proofs.Reader.Names
import SmallLisp.Proofs.Session.Values
import SmallLisp.Proofs.Number.Decimal
import SmallLisp.Proofs.Number.DecimalText
import SmallLisp.Proofs.Reader.Atom
import SmallLisp.Proofs.Reader.Integers
import SmallLisp.Proofs.Reader.Gap
import SmallLisp.Proofs.Reader.RoundTrip
import SmallLisp.Proofs.Environment.Forest
import SmallLisp.Proofs.Environment.Visibility
import SmallLisp.Proofs.Environment.History
import SmallLisp.Proofs.Value.Alike
import SmallLisp.Proofs.Value.Equality
import SmallLisp.Proofs.Value.Order
import SmallLisp.Proofs.Environment.Alike
import SmallLisp.Proofs.Evaluation.Agreement
import SmallLisp.Proofs.Evaluation.Renaming
import SmallLisp.Proofs.Evaluation.Paired
import SmallLisp.Proofs.Evaluation.Closed
import SmallLisp.Proofs.Evaluation.Congruence
import SmallLisp.Proofs.Evaluation.Depth
import SmallLisp.Proofs.Session.Reachable
import SmallLisp.Proofs.Evaluation.Let
import SmallLisp.Proofs.Evaluation.Limit
import SmallLisp.Proofs.Evaluation.Constants
import SmallLisp.Proofs.Evaluation.Call
import SmallLisp.Proofs.Reader.Grammar
import SmallLisp.Proofs.Reader.FirstExpression
import SmallLisp.Proofs.Reader.LineFeed
import SmallLisp.Proofs.Reader.Printed
import SmallLisp.Proofs.Text.Utf8
import SmallLisp.Proofs.Evaluation.Effects
import SmallLisp.Proofs.Evaluation.Reporting
import SmallLisp.Proofs.Session.Snippets
import SmallLisp.Proofs.Session.Printed
import SmallLisp.Proofs.Session.Drivers
import SmallLisp.Proofs.Value.Spelled
import SmallLisp.Proofs.Session.Reload
import SmallLisp.Proofs.Evaluation.ExactArithmetic
import SmallLisp.Proofs.Evaluation.Quotient
import SmallLisp.Proofs.Session.Levels
import SmallLisp.Proofs.Session.Conversation
import SmallLisp.Proofs.Session.Script
import SmallLisp.Proofs.Evaluation.Arguments
import SmallLisp.Proofs.Evaluation.Conditional
import SmallLisp.Proofs.Reader.Joined
import SmallLisp.Proofs.Reader.Stream
