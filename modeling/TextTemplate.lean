import TextTemplate.Options
import TextTemplate.Outcome.Read
import TextTemplate.Proofs.Parser.Derivation
import TextTemplate.Proofs.Render.Count
import TextTemplate.Proofs.Render.Failure
import TextTemplate.Proofs.Render.Limit
import TextTemplate.Proofs.Render.Loop
import TextTemplate.Proofs.Template.BlockStructure
import TextTemplate.Proofs.Template.Nesting
import TextTemplate.Proofs.Template.Verbatim
import TextTemplate.Proofs.Node.Moved
import TextTemplate.Proofs.Parser.Levels
import TextTemplate.Proofs.Parser.Lockstep
import TextTemplate.Proofs.Render.Noninterference
import TextTemplate.Proofs.Parser.ExpressionLockstep
import TextTemplate.Proofs.Parser.BlockLockstep
import TextTemplate.Proofs.Template.NestingLimit
import TextTemplate.Proofs.Render.Moved
import TextTemplate.Proofs.Token.Places
import TextTemplate.Proofs.Template.ErrorPosition
import TextTemplate.Proofs.Token.Lookahead
import TextTemplate.Proofs.Token.Append
import TextTemplate.Proofs.Parser.BlockCompleteness
import TextTemplate.Proofs.Template.Concatenation
import TextTemplate.Proofs.Parser.Enclosure
import TextTemplate.Proofs.Parser.BlockEnclosure
import TextTemplate.Proofs.Template.Enclosure
import TextTemplate.Proofs.Render.Capture
import TextTemplate.Proofs.Render.Case
import TextTemplate.Proofs.Template.Join
import TextTemplate.Proofs.Json.RoundTrip
import TextTemplate.Proofs.Outcome.RoundTrip
import TextTemplate.Proofs.Filter.Sorting
import TextTemplate.Proofs.Value.Equality
import TextTemplate.Proofs.Filter.Arithmetic
import TextTemplate.Proofs.Filter.Absolute
import TextTemplate.Proofs.Template.NumberLiteral
import TextTemplate.Proofs.Filter.Pieces
import TextTemplate.Proofs.Expr.Range
import TextTemplate.Proofs.Value.Comparison
import TextTemplate.Proofs.Filter.Escape
import TextTemplate.Proofs.Text.Locator
import TextTemplate.Proofs.Json.FaultPosition
import TextTemplate.Proofs.Filter.Representatives
import TextTemplate.Proofs.Filter.Shortening
import TextTemplate.Proofs.Scope.History
