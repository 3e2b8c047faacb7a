import SearchPhrase.Filter.QueryString
import SearchPhrase.Json.Printer
import SearchPhrase.Schema.Document
import SearchPhrase.Proofs.Filter.Condition
import SearchPhrase.Proofs.Filter.TestCondition
import SearchPhrase.Proofs.Filter.TreeCondition
import SearchPhrase.Proofs.Filter.Spelling
import SearchPhrase.Proofs.Text.FormEncoding
import SearchPhrase.Proofs.Text.Substitution
import SearchPhrase.Proofs.QueryString.Normalisation
import SearchPhrase.Proofs.QueryString.UniqueReadability
import SearchPhrase.Proofs.Filter.Meaning
import SearchPhrase.Proofs.QueryString.Decoding
import SearchPhrase.Proofs.Tree.Derivation
import SearchPhrase.Proofs.Tree.Grammar
import SearchPhrase.Proofs.Tree.Canonical
import SearchPhrase.Proofs.Token.Writing
import SearchPhrase.Proofs.Tree.Rendering
import SearchPhrase.Proofs.Calendar.Order
import SearchPhrase.Proofs.Filter.Spans
import SearchPhrase.Proofs.Filter.Inequality
import SearchPhrase.Proofs.Filter.Report
import SearchPhrase.Proofs.Filter.ImplicitSearch
import SearchPhrase.Proofs.Filter.Description
import SearchPhrase.Proofs.QueryString.Composition
import SearchPhrase.Proofs.QueryString.Marks
import SearchPhrase.Proofs.Schema.Lookup
import SearchPhrase.Proofs.Schema.Index
import SearchPhrase.Proofs.Schema.Acceptance
import SearchPhrase.Proofs.Filter.Respelling
import SearchPhrase.Proofs.Token.Spans
import SearchPhrase.Proofs.Tree.Viability
import SearchPhrase.Proofs.Filter.Lookups
import SearchPhrase.Proofs.Filter.Flattening
import SearchPhrase.Proofs.Calendar.Range
import SearchPhrase.Proofs.Filter.SearchOutcome
import SearchPhrase.Proofs.Filter.Flags
import SearchPhrase.Proofs.Filter.Completion
import SearchPhrase.Proofs.Calendar.Reading
import SearchPhrase.Proofs.Calendar.Rereading
import SearchPhrase.Proofs.Calendar.Ambiguity
import SearchPhrase.Proofs.Text.Words
import SearchPhrase.Proofs.Text.Pattern
import SearchPhrase.Proofs.Calendar.Motion
import SearchPhrase.Proofs.Calendar.Distance
import SearchPhrase.Proofs.Calendar.DistancePattern
import SearchPhrase.Proofs.Calendar.DistanceReading
import SearchPhrase.Proofs.Calendar.Weekdays
import SearchPhrase.Proofs.Filter.MinuteSpans
import SearchPhrase.Proofs.Numeral.Double
import SearchPhrase.Proofs.Numeral.WholeNumbers
import SearchPhrase.Proofs.Numeral.DecimalRounding
import SearchPhrase.Proofs.Filter.NumbersAndTimes
import SearchPhrase.Proofs.Numeral.Truncation
import SearchPhrase.Proofs.Calendar.LetterCase
import SearchPhrase.Proofs.Filter.Wildcards
import SearchPhrase.Proofs.Token.Joining
import SearchPhrase.Proofs.Token.Quotes
import SearchPhrase.Proofs.Token.Lookahead
import SearchPhrase.Proofs.Token.Coverage
import SearchPhrase.Proofs.Json.Literals
import SearchPhrase.Proofs.Json.Rereading
import SearchPhrase.Proofs.Schema.Reloading
