/-!
# Arguments of the tool

The arguments name a command and give it options.  An option is followed by its
value, or joined to it by an equals sign.
-/

namespace DocumentQuery

/-- What the tool is asked to do. -/
inductive ToolCommand where
  /-- Compile a query and print the command or save it. -/
  | compile (schema query : String) (canonical compact : Bool) (output : Option String)
  /-- Show the filter of a query as written and null-safe. -/
  | explain (schema query : String) (canonical : Bool)
  /-- Show the statement of a query. -/
  | ast (query : String)
  deriving DecidableEq, Repr

/-- What the arguments ask for. -/
inductive Invocation where
  | version
  | command (settings : Option String) (command : ToolCommand)
  deriving DecidableEq, Repr

namespace Invocation

/-- The name of an option and the value that is joined to it, if a text is an
option at all. -/
def splitOption? (argument : String) : Option (String × Option String) :=
  match argument.toList with
  | '-' :: '-' :: rest =>
      let name := String.ofList (rest.takeWhile (· != '='))
      match rest.dropWhile (· != '=') with
      | [] => some (name, none)
      | _ :: value => some (name, some (String.ofList value))
  | _ => none

/-- Whether a text can be the value of the option before it.  What starts with a
hyphen is an option, except for the hyphen itself. -/
def isValue (argument : String) : Bool :=
  match argument.toList with
  | '-' :: _ :: _ => false
  | _ => true

/-- The options of a command as they were given. -/
structure Given where
  values : List (String × String) := []
  flags : List String := []

namespace Given

/-- Add an option with its value, which may be given once. -/
def addValue? (given : Given) (name value : String) : Option Given :=
  if (given.values.lookup name).isSome then none
  else some { given with values := given.values ++ [(name, value)] }

/-- Add a flag, which may be given once. -/
def addFlag? (given : Given) (name : String) : Option Given :=
  if given.flags.contains name then none else some { given with flags := given.flags ++ [name] }

end Given

/-- Read the options of a command, given the names of those with a value and of
those without.  Two hyphens end the options, and nothing may follow them. -/
def readOptions? (valued flags : List String) : Given → List String → Option Given
  | given, [] => some given
  | given, argument :: rest =>
      match splitOption? argument, rest with
      | some ("", none), [] => some given
      | some (name, some value), rest =>
          if valued.contains name then do
            readOptions? valued flags (← given.addValue? name value) rest
          else none
      | some (name, none), rest =>
          if flags.contains name then do
            readOptions? valued flags (← given.addFlag? name) rest
          else if valued.contains name then
            match rest with
            | value :: rest =>
                if isValue value then do
                  readOptions? valued flags (← given.addValue? name value) rest
                else none
            | [] => none
          else none
      | none, _ => none

/-- The names of the commands. -/
inductive CommandName where
  | compile
  | explain
  | ast
  deriving DecidableEq, Repr

namespace CommandName

/-- The command with a name. -/
def ofText? : String → Option CommandName
  | "translate" => some compile
  | "explain" => some explain
  | "ast" => some ast
  | _ => none

/-- The options of a command that have a value. -/
def valued : CommandName → List String
  | compile => ["settings", "schema", "query", "output"]
  | explain => ["settings", "schema", "query"]
  | ast => ["settings", "query"]

/-- The options of a command without a value. -/
def flags : CommandName → List String
  | compile => ["canonical", "compact"]
  | explain => ["canonical"]
  | ast => []

/-- The command with the options that were given. -/
def build? (name : CommandName) (given : Given) : Option ToolCommand := do
  let query ← given.values.lookup "query"
  match name with
  | compile =>
      let schema ← given.values.lookup "schema"
      return .compile schema query (given.flags.contains "canonical")
        (given.flags.contains "compact") (given.values.lookup "output")
  | explain =>
      let schema ← given.values.lookup "schema"
      return .explain schema query (given.flags.contains "canonical")
  | ast => return .ast query

end CommandName

/-- Read the arguments after the name of a command.  Settings may be named before
the command and after it, and then the latter count. -/
def readCommand? (settings : Option String) (name : CommandName) (arguments : List String) :
    Option Invocation := do
  let given ← readOptions? name.valued name.flags {} arguments
  let command ← name.build? given
  return .command ((given.values.lookup "settings").or settings) command

/-- Whether an argument asks for the version. -/
def asksVersion (argument : String) : Bool :=
  argument == "--version" || "-V".isPrefixOf argument

/-- Read arguments from where no command was named yet. -/
def readFrom? (settings : Option String) : List String → Option Invocation
  | [] => none
  | argument :: rest =>
      if asksVersion argument then some .version
      else
        match CommandName.ofText? argument with
        | some name => readCommand? settings name rest
        | none =>
            if settings.isSome then none
            else
              match splitOption? argument, rest with
              | some ("settings", some path), rest => readFrom? (some path) rest
              | some ("settings", none), path :: rest =>
                  if isValue path then readFrom? (some path) rest else none
              | _, _ => none

/-- Read the arguments of the tool. -/
def read? (arguments : List String) : Option Invocation := readFrom? none arguments

end Invocation

end DocumentQuery
