import FluentQuery.Completion.Lookup
import FluentQuery.Editor
import FluentQuery.Main
import FluentQuery.Proofs.Completion.PoolOrder
import FluentQuery.Proofs.Completion.PoolGrowth
import FluentQuery.Proofs.Completion.TriggerPlace
import FluentQuery.Proofs.Numeric.DecimalText
import FluentQuery.Proofs.Time.DayNumbers
import FluentQuery.Proofs.Time.TimestampText
import FluentQuery.Proofs.Wire.RoundTrip
import FluentQuery.Proofs.Query.Distinct
import FluentQuery.Proofs.Query.Refusal
import FluentQuery.Proofs.Expression.Unescaped
import FluentQuery.Proofs.Chain.Pieces
import FluentQuery.Proofs.Chain.Places
import FluentQuery.Proofs.Chain.Spelling
import FluentQuery.Proofs.Chain.Operands
import FluentQuery.Proofs.Chain.Openings
import FluentQuery.Proofs.Chain.RoundTrip
import FluentQuery.Proofs.Completion.EditedLines
import FluentQuery.Proofs.Completion.LongestToken
import FluentQuery.Proofs.Completion.EditedPart
import FluentQuery.Proofs.Expression.Fluent
import FluentQuery.Proofs.Completion.EnclosingCall
import FluentQuery.Proofs.Completion.SecondArgument
import FluentQuery.Proofs.Completion.CollectionName
import FluentQuery.Proofs.Query.Reach
import FluentQuery.Proofs.Console.RootShortcut
import FluentQuery.Proofs.Query.Opacity
import FluentQuery.Proofs.Wire.PresentableTimestamps
import FluentQuery.Proofs.Completion.Choices
import FluentQuery.Proofs.Expression.Requoting
import FluentQuery.Proofs.Query.Requoting
import FluentQuery.Proofs.Completion.Requoting
import FluentQuery.Proofs.Display.EditRoundTrip
import FluentQuery.Proofs.Completion.ConsistentSituation
import FluentQuery.Proofs.Completion.Window
import FluentQuery.Proofs.Query.Composition
import FluentQuery.Proofs.Wire.Tagged
import FluentQuery.Proofs.Expression.OperandValues
import FluentQuery.Proofs.Query.WellFormed
import FluentQuery.Proofs.Query.Directions
import FluentQuery.Proofs.Completion.TextScore
import FluentQuery.Proofs.Time.CalendarSteps
import FluentQuery.Proofs.Time.WrittenTimes
import FluentQuery.Proofs.Wire.Numbers
import FluentQuery.Proofs.Display.TypedIntegers
import FluentQuery.Proofs.Display.EditFailures
import FluentQuery.Proofs.Completion.LongestTrigger
import FluentQuery.Proofs.Completion.RaisedPriority
import FluentQuery.Proofs.Expression.Nesting
import FluentQuery.Proofs.Expression.Extent
import FluentQuery.Proofs.Expression.LiteralScans
import FluentQuery.Proofs.Numeric.Products
import FluentQuery.Proofs.Completion.Spelling
import FluentQuery.Proofs.Completion.TokenSearch
