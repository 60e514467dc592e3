import DocumentQuery.Command.Basic
import DocumentQuery.Document.Writer

/-!
# Filters and commands as documents

Filters and commands are written as events, so that they can also stand inside
other documents.
-/

namespace DocumentQuery

/-- A condition on a field as a document. -/
def Condition.events (path : String) (condition : Condition) : List Event :=
  [.startDocument, .name path, .startDocument, .name condition.operator.operatorName,
    .value condition.operand, .endDocument, .endDocument]

mutual

/-- A filter as a document. -/
def Filter.events : Filter → List Event
  | field path _ condition => condition.events path
  | logical operator operands =>
      [.startDocument, .name operator.name, .startArray] ++ Filter.eventsAll operands ++
        [.endArray, .endDocument]

/-- The documents of several filters, one after the other. -/
def Filter.eventsAll : List Filter → List Event
  | [] => []
  | filter :: filters => filter.events ++ Filter.eventsAll filters

end

/-- A stage as a document. -/
def Stage.events : Stage → List Event
  | filtering filter => [.startDocument, .name "$match"] ++ filter.events ++ [.endDocument]
  | projection paths =>
      [.startDocument, .name "$project", .startDocument] ++
        paths.flatMap (fun path => [.name path, .value (.boolean true)]) ++
        [.endDocument, .endDocument]

/-- A command as a document. -/
def Command.events (command : Command) : List Event :=
  [.startDocument, .name "aggregate", .value (.string command.collection), .name "pipeline",
      .startArray] ++
    command.pipeline.flatMap Stage.events ++ [.endArray, .endDocument]

/-- The document of a filter. -/
def Filter.toDocument (mode : EncodingMode) (filter : Filter) : Except WriteError Json :=
  writeDocument mode filter.events

/-- The document of a command. -/
def Command.toDocument (mode : EncodingMode) (command : Command) : Except WriteError Json :=
  writeDocument mode command.events

end DocumentQuery
