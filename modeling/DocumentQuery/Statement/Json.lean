import DocumentQuery.Json.Shape
import DocumentQuery.Statement.Basic

/-!
# Statements as documents

The document of a statement shows every node with its span.  A document of that
shape is read back, whether or not any text has such a statement.
-/

namespace DocumentQuery

/-! ## Writing -/

/-- The document of a span. -/
def Span.toJson (span : Span) : Json :=
  .object [("start", .int span.start), ("end", .int span.stop), ("line", .int span.line),
    ("column", .int span.column)]

/-- The document of an identifier. -/
def Identifier.toJson (identifier : Identifier) : Json :=
  .object [("name", .string identifier.name), ("span", identifier.span.toJson)]

/-- The document of a path. -/
def AttributePath.toJson (path : AttributePath) : Json :=
  .object [("segments", .array (path.segments.map .string)), ("span", path.span.toJson)]

/-- The document of a literal.  A double that is no number has none, and null
stands in for it. -/
def Literal.toJson : Literal → Json
  | string text => .single "String" (.string text)
  | integer number => .single "Integer" (.int number.toInt)
  | long number => .single "Long" (.int number.toInt)
  | double number =>
      .single "Double" (if number.isFinite then .double number else .null)
  | decimal number => .single "Decimal" (.string (String.ofList number.text))
  | boolean value => .single "Boolean" (.bool value)
  | null => .string "Null"

/-- The name of an operator in documents. -/
def Comparison.label : Comparison → String
  | equal => "Equal"
  | notEqual => "NotEqual"
  | less => "LessThan"
  | lessOrEqual => "LessOrEqual"
  | greater => "GreaterThan"
  | greaterOrEqual => "GreaterOrEqual"

/-- The name of a connective in documents. -/
def Connective.label : Connective → String
  | and => "And"
  | or => "Or"

/-- A node with its kind and its span. -/
def Json.node (kind : Json) (span : Span) : Json :=
  .object [("kind", kind), ("span", span.toJson)]

mutual

/-- The document of an expression. -/
def Expression.toJson : Expression → Json
  | .literal value span => .node (.single "Literal" value.toJson) span
  | .path target span => .node (.single "Path" target.toJson) span
  | .call name arguments span =>
      .node (.single "FunctionCall"
        (.object [("name", .string name), ("arguments", .array (Expression.listToJson arguments))]))
        span

/-- The documents of expressions. -/
def Expression.listToJson : List Expression → List Json
  | [] => []
  | expression :: expressions => expression.toJson :: Expression.listToJson expressions

end

mutual

/-- The document of a condition. -/
def Predicate.toJson : Predicate → Json
  | .comparison left operator right span =>
      .node (.single "Comparison"
        (.object [("left", left.toJson), ("operator", .string operator.label),
          ("right", right.toJson)])) span
  | .junction connective operands span =>
      .node (.single "Junction"
        (.object [("kind", .string connective.label),
          ("predicates", .array (Predicate.listToJson operands))])) span
  | .negation operand span => .node (.single "Negated" operand.toJson) span
  | .nullCheck subject negated span =>
      .node (.single "NullCheck"
        (.object [("expression", subject.toJson), ("negated", .bool negated)])) span
  | .group inner span => .node (.single "Grouped" inner.toJson) span

/-- The documents of conditions. -/
def Predicate.listToJson : List Predicate → List Json
  | [] => []
  | predicate :: predicates => predicate.toJson :: Predicate.listToJson predicates

end

/-- The document of a statement. -/
def Statement.toJson (statement : Statement) : Json :=
  .object [("entity", statement.entity.toJson),
    ("alias", (statement.aliasName.map Identifier.toJson).getD .null),
    ("where_clause", (statement.condition.map Predicate.toJson).getD .null),
    ("span", statement.span.toJson)]

/-! ## Reading -/

/-- Read a span. -/
def Span.ofJson? (json : Json) : Option Span := do
  match ← json.record? ["start", "end", "line", "column"] with
  | [some start, some stop, some line, some column] =>
      return ⟨← start.nat?, ← stop.nat?, ← line.nat?, ← column.nat?⟩
  | _ => none

/-- Read an identifier. -/
def Identifier.ofJson? (json : Json) : Option Identifier := do
  match ← json.record? ["name", "span"] with
  | [some name, some span] => return ⟨← name.string?, ← Span.ofJson? span⟩
  | _ => none

/-- Read a path. -/
def AttributePath.ofJson? (json : Json) : Option AttributePath := do
  match ← json.record? ["segments", "span"] with
  | [some segments, some span] =>
      return ⟨← (← segments.array?).mapM Json.string?, ← Span.ofJson? span⟩
  | _ => none

/-- Read a decimal from its numeral, or take a number as it is. -/
def Decimal.ofJson? : Json → Option Decimal
  | .string text => Decimal.read? text.toList
  | .int number => some ⟨number, 0⟩
  | .double number => some (Double.toDecimal number)
  | _ => none

/-- Read a literal. -/
def Literal.ofJson? (json : Json) : Option Literal := do
  match ← json.alternative? with
  | ("String", some content) => return string (← content.string?)
  | ("Integer", some content) => return integer (← content.int32?)
  | ("Long", some content) => return long (← content.int64?)
  | ("Double", some content) => return double (← content.double?)
  | ("Decimal", some content) => return decimal (← Decimal.ofJson? content)
  | ("Boolean", some content) => return boolean (← content.bool?)
  | ("Null", content) => if Json.isUnit content then return null else none
  | _ => none

/-- Read an operator by its name. -/
def Comparison.ofJson? (json : Json) : Option Comparison := do
  let (name, content) ← json.alternative?
  if Json.isUnit content then
    [equal, notEqual, less, lessOrEqual, greater, greaterOrEqual].find? (·.label == name)
  else none

/-- Read a connective by its name. -/
def Connective.ofJson? (json : Json) : Option Connective := do
  let (name, content) ← json.alternative?
  if Json.isUnit content then [Connective.and, or].find? (·.label == name) else none

/-- Read an expression nested no deeper than the given number. -/
def Expression.ofJsonWithin? : Nat → Json → Option Expression
  | 0, _ => none
  | depth + 1, json => do
      match ← json.record? ["kind", "span"] with
      | [some kind, some span] =>
          let span ← Span.ofJson? span
          match ← kind.alternative? with
          | ("Literal", some content) => return .literal (← Literal.ofJson? content) span
          | ("Path", some content) => return .path (← AttributePath.ofJson? content) span
          | ("FunctionCall", some content) =>
              match ← content.fields? ["name", "arguments"] with
              | [some name, some arguments] =>
                  return .call (← name.string?)
                    (← (← arguments.array?).mapM (Expression.ofJsonWithin? depth)) span
              | _ => none
          | _ => none
      | _ => none

/-- Read an expression. -/
def Expression.ofJson? (json : Json) : Option Expression :=
  Expression.ofJsonWithin? json.depth json

/-- Read a condition nested no deeper than the given number. -/
def Predicate.ofJsonWithin? : Nat → Json → Option Predicate
  | 0, _ => none
  | depth + 1, json => do
      match ← json.record? ["kind", "span"] with
      | [some kind, some span] =>
          let span ← Span.ofJson? span
          match ← kind.alternative? with
          | ("Comparison", some content) =>
              match ← content.fields? ["left", "operator", "right"] with
              | [some left, some operator, some right] =>
                  return .comparison (← Expression.ofJson? left) (← Comparison.ofJson? operator)
                    (← Expression.ofJson? right) span
              | _ => none
          | ("Junction", some content) =>
              match ← content.fields? ["kind", "predicates"] with
              | [some connective, some operands] =>
                  return .junction (← Connective.ofJson? connective)
                    (← (← operands.array?).mapM (Predicate.ofJsonWithin? depth)) span
              | _ => none
          | ("Negated", some content) =>
              return .negation (← Predicate.ofJsonWithin? depth content) span
          | ("NullCheck", some content) =>
              match ← content.fields? ["expression", "negated"] with
              | [some subject, some negated] =>
                  return .nullCheck (← Expression.ofJson? subject) (← negated.bool?) span
              | _ => none
          | ("Grouped", some content) =>
              return .group (← Predicate.ofJsonWithin? depth content) span
          | _ => none
      | _ => none

/-- Read a condition. -/
def Predicate.ofJson? (json : Json) : Option Predicate :=
  Predicate.ofJsonWithin? json.depth json

/-- Read a statement.  Alias and condition may be missing. -/
def Statement.ofJson? (json : Json) : Option Statement := do
  match ← json.record? ["entity", "alias", "where_clause", "span"] with
  | [some entity, aliasName, condition, some span] =>
      return ⟨← Identifier.ofJson? entity, ← Json.optional? Identifier.ofJson? aliasName,
        ← Json.optional? Predicate.ofJson? condition, ← Span.ofJson? span⟩
  | _ => none

/-- Whether a statement is read back from its own document. -/
def Statement.readsBack (statement : Statement) : Bool :=
  match Statement.ofJson? statement.toJson with
  | some other => other == statement
  | none => false

end DocumentQuery
