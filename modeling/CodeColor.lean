import CodeColor.Json.Writer
import CodeColor.Proofs.Claim.Clearance
import CodeColor.Proofs.Claim.Commuting
import CodeColor.Proofs.Claim.Exhaustion
import CodeColor.Proofs.Claim.Partition
import CodeColor.Proofs.Claim.Passing
import CodeColor.Proofs.Claim.Precedence
import CodeColor.Proofs.Claim.Stretches
import CodeColor.Proofs.Css.Plain
import CodeColor.Proofs.Css.Stylesheet
import CodeColor.Proofs.Css.Values
import CodeColor.Proofs.Detection.Documents
import CodeColor.Proofs.Detection.Lines
import CodeColor.Proofs.Detection.Trailing
import CodeColor.Proofs.Grammar.Composition
import CodeColor.Proofs.Grammar.Widening
import CodeColor.Proofs.Grammar.WordLists
import CodeColor.Proofs.Html.Markup
import CodeColor.Proofs.Html.Plain
import CodeColor.Proofs.Html.Tags
import CodeColor.Proofs.Json.Literals
import CodeColor.Proofs.Json.Phrases
import CodeColor.Proofs.Json.Plain
import CodeColor.Proofs.Language.Comments
import CodeColor.Proofs.Language.Identifiers
import CodeColor.Proofs.Language.Keywords
import CodeColor.Proofs.Language.Operators
import CodeColor.Proofs.Language.Strings
import CodeColor.Proofs.Markup.Decoding
import CodeColor.Proofs.Markup.Failures
import CodeColor.Proofs.Markup.Reading
import CodeColor.Proofs.Markup.Stripping
import CodeColor.Proofs.Markup.Tags
import CodeColor.Proofs.Service.Detection
import CodeColor.Proofs.Service.Highlighted
import CodeColor.Proofs.Session.Failure
import CodeColor.Proofs.Token.Lines
import CodeColor.Proofs.Token.Position
import CodeColor.Service.LocalHost
import CodeColor.Service.Routes
import CodeColor.Session
