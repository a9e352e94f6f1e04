import ChatMarkup.Formula.Failure
import ChatMarkup.Formula.Tiling
import ChatMarkup.Markup.Spelling
import ChatMarkup.Proofs.Decimal.Compact
import ChatMarkup.Proofs.Decimal.Layout
import ChatMarkup.Proofs.Formula.Concatenation
import ChatMarkup.Proofs.Formula.Failure
import ChatMarkup.Proofs.Formula.Tiling
import ChatMarkup.Proofs.Json.Import
import ChatMarkup.Proofs.Locale.Duration
import ChatMarkup.Proofs.Locale.Money
import ChatMarkup.Proofs.Locale.Number
import ChatMarkup.Proofs.Locale.PluralCache
import ChatMarkup.Proofs.Markup.Accepting
import ChatMarkup.Proofs.Markup.Nesting
import ChatMarkup.Proofs.Markup.Truncation
import ChatMarkup.Proofs.Render.Calendar
import ChatMarkup.Proofs.Render.Cleaned
import ChatMarkup.Proofs.Render.Loop
import ChatMarkup.Proofs.Render.Plain
import ChatMarkup.Proofs.Render.Plural
import ChatMarkup.Proofs.Render.Redundancy
import ChatMarkup.Proofs.Render.Reference
import ChatMarkup.Proofs.Render.Scoping
import ChatMarkup.Proofs.Style.Guard
import ChatMarkup.Proofs.Suggestion.Closest
import ChatMarkup.Proofs.Value.Merge
import ChatMarkup.Proofs.Wire.Offset
import ChatMarkup.Render.Appearance
import ChatMarkup.Render.Mention
import ChatMarkup.Value.Conversion
