import FormRules.Value.Comparison
import FormRules.Calendar.Instant
import FormRules.Uuid
import FormRules.Text.Width
import FormRules.Error
import FormRules.Token
import FormRules.Token.Quoted
import FormRules.Token.Lexer
import FormRules.Expr.Printer
import FormRules.Expr.Parser
import FormRules.Json.Printer
import FormRules.Json.Lexeme
import FormRules.Json.Draft
import FormRules.Json.Shape
import FormRules.Expr.Evaluate
import FormRules.Engine
import FormRules.Rule.Demo
import FormRules.Service.Observation
import FormRules.Config.Load
import FormRules.Proofs.Store.Listing
import FormRules.Proofs.Engine.Calls
import FormRules.Proofs.Engine.Evaluation
import FormRules.Proofs.Engine.History
import FormRules.Proofs.Engine.Reference
import FormRules.Proofs.Grammar.Phrase
import FormRules.Proofs.Grammar.Unambiguous
import FormRules.Proofs.Parser.Complete
import FormRules.Proofs.Parser.Descent
import FormRules.Proofs.Parser.Outcome
import FormRules.Proofs.Parser.Agreement
import FormRules.Proofs.Parser.Acceptance
import FormRules.Proofs.Grammar.Language
import FormRules.Proofs.Grammar.DepthLimit
import FormRules.Proofs.Number.Nearest
import FormRules.Proofs.Number.Rounding
import FormRules.Proofs.Number.Text
import FormRules.Proofs.Lexer.Passing
import FormRules.Proofs.Lexer.Spelled
import FormRules.Proofs.Printing
import FormRules.Proofs.Engine.Isolation
import FormRules.Proofs.Store.Changes
import FormRules.Proofs.Engine.Effects
import FormRules.Proofs.Engine.Admission
import FormRules.Proofs.Engine.Retention
import FormRules.Proofs.Engine.Stranding
import FormRules.Proofs.Engine.Course
import FormRules.Proofs.Engine.Trial
import FormRules.Proofs.Form
import FormRules.Proofs.Identifier
import FormRules.Proofs.Service.Course
import FormRules.Proofs.Service.Bounds
import FormRules.Proofs.Service.Evaluation
import FormRules.Proofs.Engine.Administration
import FormRules.Proofs.Service.Administration
import FormRules.Proofs.Lexer.Division
import FormRules.Proofs.Engine.Outage
import FormRules.Proofs.Service.Concealment
import FormRules.Proofs.History
import FormRules.Proofs.Store.Succession
import FormRules.Proofs.Engine.Statistics
import FormRules.Proofs.Parser.Weight
import FormRules.Proofs.Parser.ViablePrefix
import FormRules.Proofs.Value.Coherence
import FormRules.Proofs.Expr.Substitution
import FormRules.Proofs.Lexer.Sign
import FormRules.Proofs.Function.Junction
import FormRules.Proofs.Calendar.Text
import FormRules.Proofs.Value.Dates
import FormRules.Proofs.Expr.Finite
import FormRules.Proofs.Grammar.Fields
import FormRules.Proofs.Lexer.Spacing
import FormRules.Proofs.Lexer.Offence
import FormRules.Proofs.Parser.Budget
import FormRules.Proofs.Value.CanonicalText
import FormRules.Proofs.Store.Enumeration
import FormRules.Proofs.Engine.Submission
import FormRules.Proofs.Engine.Upkeep
import FormRules.Proofs.Engine.Metering
import FormRules.Proofs.Parser.Heights
import FormRules.Proofs.Config.Loading
import FormRules.Proofs.Config.Settings
import FormRules.Proofs.Config.Sources
import FormRules.Proofs.Text.Symbol
import FormRules.Proofs.Json.Record
import FormRules.Proofs.Service.Reading
