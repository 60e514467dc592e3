import DocumentQuery.Handoff.Script
import DocumentQuery.Json.Read
import DocumentQuery.Main
import DocumentQuery.Statement.Walk
import DocumentQuery.Tool.Folder
import DocumentQuery.Value.Json
import DocumentQuery.Proofs.Filter.Meaning
import DocumentQuery.Proofs.Filter.NullSafety
import DocumentQuery.Proofs.Filter.Idempotence
import DocumentQuery.Proofs.Filter.GuardList
import DocumentQuery.Proofs.Schema.Verdict
import DocumentQuery.Proofs.Compiler.Meaning
import DocumentQuery.Proofs.Compiler.Exactness
import DocumentQuery.Proofs.Compiler.NullComparison
import DocumentQuery.Proofs.Compiler.Preservation
import DocumentQuery.Proofs.Compiler.EntryPoints
import DocumentQuery.Proofs.Compiler.Reuse
import DocumentQuery.Proofs.Compiler.Alias
import DocumentQuery.Proofs.Compiler.Guards
import DocumentQuery.Proofs.Compiler.Projection
import DocumentQuery.Proofs.Grammar.Derivation
import DocumentQuery.Proofs.Compiler.Failures
import DocumentQuery.Proofs.Grammar.Lexical
import DocumentQuery.Proofs.Grammar.Location
import DocumentQuery.Proofs.Statement.Spelling
import DocumentQuery.Proofs.Statement.Acceptance
import DocumentQuery.Proofs.Statement.TokenRules
import DocumentQuery.Proofs.Statement.Completeness
import DocumentQuery.Proofs.Statement.Shape
import DocumentQuery.Proofs.Statement.Numerals
import DocumentQuery.Proofs.Statement.Diagnosis
import DocumentQuery.Proofs.Statement.Literals
import DocumentQuery.Proofs.Statement.Names
import DocumentQuery.Proofs.Source.Spans
import DocumentQuery.Proofs.Statement.Places
import DocumentQuery.Proofs.Document.Draft
import DocumentQuery.Proofs.Document.Composition
import DocumentQuery.Proofs.Document.Canonical
import DocumentQuery.Proofs.Document.Decimals
import DocumentQuery.Proofs.Handoff.Discipline
import DocumentQuery.Proofs.Handoff.Attribution
import DocumentQuery.Proofs.Handoff.Unwinding
import DocumentQuery.Proofs.Time.Calendar
import DocumentQuery.Proofs.Time.Text
import DocumentQuery.Proofs.Document.Dates
import DocumentQuery.Proofs.Statement.Quoting
import DocumentQuery.Proofs.Statement.Leaves
