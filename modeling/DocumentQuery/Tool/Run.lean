import DocumentQuery.Compiler.Query
import DocumentQuery.Document.Render
import DocumentQuery.Json.Text
import DocumentQuery.Schema.Json
import DocumentQuery.Statement.Json
import DocumentQuery.Tool.Arguments
import DocumentQuery.Tool.Settings

/-!
# Running the tool

The tool reads settings first, then the schema and then the query.  All of it is
decided here; reading and writing files is left to the caller.
-/

namespace DocumentQuery

/-- Why the tool failed. -/
inductive ToolError where
  | file (path : String)
  | schemaText (fault : Json.Fault)
  | settingsText (path : String) (fault : Json.Fault)
  | query (error : ReadError)
  | compile (error : CompileError)
  | render (error : WriteError)
  deriving Repr

/-- What is wrong with a text. -/
def Json.Fault.reason : Json.Fault → String
  | malformed => "malformed JSON"
  | truncated => "unexpected end of JSON"
  | mismatched => "unexpected data"

/-- The message of an error. -/
def ToolError.message : ToolError → String
  | file path => "Failed to read or write a file: " ++ path
  | schemaText fault => "Failed to deserialize the schema file as JSON: " ++ fault.reason
  | settingsText path fault => "Failed to load settings from '" ++ path ++ "': " ++ fault.reason
  | query error => "Failed to parse the query: " ++ error.message
  | compile error => "Failed to translate the query: " ++ error.message
  | render error => "Failed to render the command: " ++ error.message

namespace Tool

/-- The document of the command that a query compiles to. -/
def commandDocument (entity : Entity) (mode : EncodingMode) (query : String) :
    Except ToolError Json := do
  let command ← (compileQuery entity query).mapError .compile
  (command.toDocument mode).mapError .render

/-- The document that shows the filter of a query as written and null-safe.  Both
are null without a condition. -/
def explanation (entity : Entity) (mode : EncodingMode) (query : String) :
    Except ToolError Json := do
  let statement ← (Statement.parse query).mapError .query
  match ← (statement.compileFilter entity).mapError .compile with
  | none => return .object [("filter", .null), ("enforced", .null)]
  | some filter =>
      let written ← (filter.toDocument mode).mapError .render
      let enforced ← (filter.enforceNullSafety.toDocument mode).mapError .render
      return .object [("filter", written), ("enforced", enforced)]

/-- The document of the statement of a query. -/
def statementDocument (query : String) : Except ToolError Json := do
  let statement ← (Statement.parse query).mapError .query
  return statement.toJson

/-- How the tool reads a file. -/
abbrev ReadFile := String → Option String

/-- Read a file that has to be there. -/
def load (readFile : ReadFile) (path : String) : Except ToolError String :=
  match readFile path with
  | some text => .ok text
  | none => .error (.file path)

/-- Read settings, of which there may be none. -/
def readSettings (readFile : ReadFile) : Option String → Except ToolError Settings
  | none => .ok {}
  | some path => do (Settings.read (← load readFile path)).mapError (.settingsText path)

/-- Read the schema of an entity. -/
def readSchema (readFile : ReadFile) (path : String) : Except ToolError Entity := do
  (Entity.read (← load readFile path)).mapError .schemaText

/-- What is left to be done with a text. -/
inductive Output where
  | print (text : String)
  | save (path text : String)
  deriving DecidableEq, Repr

/-- A document to be printed on lines of its own. -/
def printed (indented : Bool) (document : Json) : Output :=
  .print (document.render indented ++ "\n")

/-- Carry out a command. -/
def perform (readFile : ReadFile) (settings : Settings) : ToolCommand → Except ToolError Output
  | .compile schema query canonical compact output => do
      let entity ← readSchema readFile schema
      let document ← commandDocument entity (settings.mode canonical) query
      let indented := settings.pretty && !compact
      match output with
      | some path => return .save path (document.render indented)
      | none => return printed indented document
  | .explain schema query canonical => do
      let entity ← readSchema readFile schema
      let document ← explanation entity (settings.mode canonical) query
      return printed settings.pretty document
  | .ast query => do return printed settings.pretty (← statementDocument query)

/-- The name of the tool and its version. -/
def versionText : String := "mqlt 0.1.0\n"

/-- Carry out what the arguments ask for. -/
def run (readFile : ReadFile) : Invocation → Except ToolError Output
  | .version => .ok (.print versionText)
  | .command settings command => do
      perform readFile (← readSettings readFile settings) command

/-- The files that the tool reads. -/
def inputs : Invocation → List String
  | .version => []
  | .command settings command =>
      settings.toList ++ match command with
        | .compile schema .. | .explain schema .. => [schema]
        | .ast _ => []

end Tool

end DocumentQuery
