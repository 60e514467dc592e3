import DocumentQuery.Grammar.Pattern

/-!
# The grammar of queries

The rules are listed in the order in which diagnostics name them.  A token rule
is a lexical pattern.  A phrase rule combines other rules, with layout allowed
between its parts.  A silent rule adds no node of its own to the tree and is
never named in a diagnostic.
-/

namespace DocumentQuery.Grammar

/-- The rules of the query grammar. -/
inductive Rule where
  | endOfInput
  | whitespace
  | comment
  | identChar
  | kwFrom
  | kwWhere
  | kwAnd
  | kwOr
  | kwNot
  | kwIs
  | kwNull
  | kwTrue
  | kwFalse
  | keyword
  | ident
  | dottedIdent
  | quotedIdent
  | name
  | lparen
  | rparen
  | comma
  | litString
  | litNumber
  | litBoolean
  | literal
  | fnCall
  | expression
  | compOp
  | nullCheck
  | comparison
  | grouped
  | atom
  | negation
  | conjunction
  | disjunction
  | predicate
  | whereClause
  | statement
  deriving DecidableEq, Repr

/-- How the parts of a phrase follow each other.  Layout is passed over between
the two parts of a sequence and between the rounds of a repetition. -/
inductive Phrase where
  | rule (rule : Rule)
  /-- Matches nothing, at the very front of the text. -/
  | startOfInput
  | seq (first second : Phrase)
  | either (first second : Phrase)
  | optional (inner : Phrase)
  | many (inner : Phrase)

namespace Phrase

/-- The phrases of a list one after the other. -/
def sequence (first : Phrase) : List Phrase → Phrase
  | [] => first
  | second :: phrases => seq first (sequence second phrases)

/-- The first of the phrases that matches. -/
def firstOf (first : Phrase) : List Phrase → Phrase
  | [] => first
  | second :: phrases => either first (firstOf second phrases)

end Phrase

/-- What a rule stands for. -/
inductive Body where
  | token (pattern : Pattern)
  | phrase (phrase : Phrase)

/-! ## Tokens -/

/-- The characters that may continue an identifier. -/
def isIdentChar (c : Char) : Bool := c.isAlphanum || c == '_'

/-- The characters that may start an identifier. -/
def isIdentStart (c : Char) : Bool := c.isAlpha || c == '_'

namespace Pattern

/-- A word that is not continued by another identifier character. -/
def keyword (text : String) : Pattern :=
  seq (word text.toList) (absent (one isIdentChar))

/-- The reserved words. -/
def anyKeyword : Pattern :=
  seq (firstOf (["from", "where", "and", "or", "not", "is", "null", "true", "false"].map
    fun text => word text.toList)) (absent (one isIdentChar))

/-- A letter or underscore and what continues it, reserved or not. -/
def identShape : Pattern := seq (one isIdentStart) (many (one isIdentChar))

/-- An identifier that is not reserved. -/
def ident : Pattern := seq (absent anyKeyword) identShape

/-- Identifiers joined by points. -/
def dottedIdent : Pattern := seq ident (many (seq (exactly ['.']) ident))

/-- The quote of a name that may be reserved. -/
def backquote : Char := Char.ofNat 0x60

/-- An identifier between backquotes, reserved or not. -/
def quotedIdent : Pattern :=
  sequence [exactly [backquote], one isIdentStart, many (one isIdentChar), exactly [backquote]]

/-- Characters between two quotes, in which a quote is written twice. -/
def quoted (quote : Char) : Pattern :=
  sequence
    [exactly [quote],
      many (either (exactly [quote, quote])
        (seq (absent (exactly [quote])) (one fun _ => true))),
      exactly [quote]]

/-- Text between single or double quotes. -/
def litString : Pattern := either (quoted '\'') (quoted '"')

/-- A numeral with an optional sign, fraction and type suffix. -/
def litNumber : Pattern :=
  sequence
    [optional (exactly ['-']),
      oneOrMore (one Char.isDigit),
      optional (seq (exactly ['.']) (oneOrMore (one Char.isDigit))),
      optional (firstOf (["bd", "l", "d", "f"].map fun text => word text.toList)),
      absent (one isIdentChar)]

/-- A comparison operator, the longer ones first. -/
def compOp : Pattern :=
  firstOf (["<>", "!=", "<=", ">=", "=", "<", ">"].map fun text => exactly text.toList)

/-- One blank. -/
def whitespace : Pattern := one fun c => c == ' ' || c == '\t' || c == '\r' || c == '\n'

/-- Two hyphens and the rest of the line. -/
def comment : Pattern :=
  seq (exactly ['-', '-']) (many (seq (absent (exactly ['\n'])) (one fun _ => true)))

end Pattern

namespace Rule

/-- The rules in the order of diagnostics. -/
def all : List Rule :=
  [endOfInput, whitespace, comment, identChar, kwFrom, kwWhere, kwAnd, kwOr, kwNot, kwIs, kwNull,
    kwTrue, kwFalse, keyword, ident, dottedIdent, quotedIdent, name, lparen, rparen, comma,
    litString, litNumber, litBoolean, literal, fnCall, expression, compOp, nullCheck, comparison,
    grouped, atom, negation, conjunction, disjunction, predicate, whereClause, statement]

/-- The name of a rule in diagnostics and trees. -/
def label : Rule → String
  | endOfInput => "EOI"
  | whitespace => "WHITESPACE"
  | comment => "COMMENT"
  | identChar => "ident_char"
  | kwFrom => "kw_from"
  | kwWhere => "kw_where"
  | kwAnd => "kw_and"
  | kwOr => "kw_or"
  | kwNot => "kw_not"
  | kwIs => "kw_is"
  | kwNull => "kw_null"
  | kwTrue => "kw_true"
  | kwFalse => "kw_false"
  | keyword => "keyword"
  | ident => "ident"
  | dottedIdent => "dotted_ident"
  | quotedIdent => "quoted_ident"
  | name => "name"
  | lparen => "lparen"
  | rparen => "rparen"
  | comma => "comma"
  | litString => "lit_string"
  | litNumber => "lit_number"
  | litBoolean => "lit_boolean"
  | literal => "literal"
  | fnCall => "fn_call"
  | expression => "expression"
  | compOp => "comp_op"
  | nullCheck => "null_check"
  | comparison => "comparison"
  | grouped => "grouped"
  | atom => "atom"
  | negation => "negation"
  | conjunction => "conjunction"
  | disjunction => "disjunction"
  | predicate => "predicate"
  | whereClause => "where_clause"
  | statement => "statement"

/-- The rule with the given name. -/
def ofLabel? (text : String) : Option Rule := all.find? (·.label == text)

/-- Whether a rule adds no node of its own to the tree. -/
def isSilent : Rule → Bool
  | whitespace | comment | identChar | name | comma => true
  | _ => false

open Phrase in
/-- What each rule stands for. -/
def body : Rule → Body
  | endOfInput => .token (.absent (.one fun _ => true))
  | whitespace => .token .whitespace
  | comment => .token .comment
  | identChar => .token (.one isIdentChar)
  | kwFrom => .token (.keyword "from")
  | kwWhere => .token (.keyword "where")
  | kwAnd => .token (.keyword "and")
  | kwOr => .token (.keyword "or")
  | kwNot => .token (.keyword "not")
  | kwIs => .token (.keyword "is")
  | kwNull => .token (.keyword "null")
  | kwTrue => .token (.keyword "true")
  | kwFalse => .token (.keyword "false")
  | keyword => .token .anyKeyword
  | ident => .token .ident
  | dottedIdent => .token .dottedIdent
  | quotedIdent => .token .quotedIdent
  | name => .phrase (either (rule quotedIdent) (rule ident))
  | lparen => .token (.exactly ['('])
  | rparen => .token (.exactly [')'])
  | comma => .token (.exactly [','])
  | litString => .token .litString
  | litNumber => .token .litNumber
  | litBoolean => .phrase (either (rule kwTrue) (rule kwFalse))
  | literal =>
      .phrase (firstOf (rule litString) [rule litNumber, rule litBoolean, rule kwNull])
  | fnCall =>
      .phrase (sequence (rule ident)
        [rule lparen,
          optional (seq (rule expression) (many (seq (rule comma) (rule expression)))),
          rule rparen])
  | expression => .phrase (firstOf (rule literal) [rule fnCall, rule dottedIdent])
  | compOp => .token .compOp
  | nullCheck =>
      .phrase (sequence (rule expression) [rule kwIs, optional (rule kwNot), rule kwNull])
  | comparison => .phrase (sequence (rule expression) [rule compOp, rule expression])
  | grouped => .phrase (sequence (rule lparen) [rule predicate, rule rparen])
  | atom => .phrase (firstOf (rule nullCheck) [rule comparison, rule grouped])
  | negation => .phrase (either (seq (rule kwNot) (rule negation)) (rule atom))
  | conjunction => .phrase (seq (rule negation) (many (seq (rule kwAnd) (rule negation))))
  | disjunction => .phrase (seq (rule conjunction) (many (seq (rule kwOr) (rule conjunction))))
  | predicate => .phrase (rule disjunction)
  | whereClause => .phrase (seq (rule kwWhere) (rule predicate))
  | statement =>
      .phrase (sequence startOfInput
        [rule kwFrom, rule name, optional (rule name), optional (rule whereClause),
          rule endOfInput])

end Rule

end DocumentQuery.Grammar
