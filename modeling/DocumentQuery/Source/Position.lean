/-!
# Positions in query text

A position counts bytes for slicing and lines and columns for messages.  Both
are advanced one character at a time, so a position is a function of the text
before it.  A cursor pairs a position with the text that is still to be read.
-/

namespace DocumentQuery

/-- A place in the text: the bytes before it, and its line and column counted
in characters from one. -/
structure Position where
  offset : Nat
  line : Nat
  column : Nat
  deriving DecidableEq, Repr

namespace Position

/-- The position before the first character. -/
def start : Position := ⟨0, 1, 1⟩

/-- The position after one more character.  A line feed opens a new line, and
every other character, a carriage return included, takes one column. -/
def advance (position : Position) (c : Char) : Position :=
  { offset := position.offset + c.utf8Size
    line := if c = '\n' then position.line + 1 else position.line
    column := if c = '\n' then 1 else position.column + 1 }

/-- The position after a run of characters. -/
def advanceAll (position : Position) (text : List Char) : Position :=
  text.foldl advance position

@[simp] theorem advanceAll_nil (position : Position) :
    position.advanceAll [] = position := rfl

@[simp] theorem advanceAll_cons (position : Position) (c : Char) (text : List Char) :
    position.advanceAll (c :: text) = (position.advance c).advanceAll text := rfl

@[simp] theorem advanceAll_append (position : Position) (first second : List Char) :
    position.advanceAll (first ++ second) =
      (position.advanceAll first).advanceAll second := by
  simp [advanceAll]

end Position

/-- A stretch of the text: its byte bounds and the line and column at which it
starts. -/
structure Span where
  start : Nat
  stop : Nat
  line : Nat
  column : Nat
  deriving DecidableEq, Repr

namespace Span

/-- The stretch between two positions. -/
def between (first last : Position) : Span :=
  ⟨first.offset, last.offset, first.line, first.column⟩

end Span

/-- A reading position: where it stands and the characters still to be read. -/
structure Cursor where
  position : Position
  rest : List Char
  deriving DecidableEq, Repr

namespace Cursor

/-- The cursor before the first character of a text. -/
def ofText (text : List Char) : Cursor := ⟨.start, text⟩

/-- The characters between a cursor and a later point of the same text, given
by what remains there. -/
def lexeme (cursor : Cursor) (rest : List Char) : List Char :=
  cursor.rest.take (cursor.rest.length - rest.length)

/-- Move a cursor to the later point of the same text at which `rest`
remains. -/
def moveTo (cursor : Cursor) (rest : List Char) : Cursor :=
  ⟨cursor.position.advanceAll (cursor.lexeme rest), rest⟩

@[simp] theorem lexeme_append (position : Position) (text rest : List Char) :
    lexeme ⟨position, text ++ rest⟩ rest = text := by
  simp [lexeme]

@[simp] theorem moveTo_append (position : Position) (text rest : List Char) :
    moveTo ⟨position, text ++ rest⟩ rest = ⟨position.advanceAll text, rest⟩ := by
  simp [moveTo]

/-- Pass over blanks and comments.  A comment runs from two hyphens to the end
of its line or of the text. -/
def skipBlanks (inComment : Bool) : Position → List Char → Cursor
  | position, [] => ⟨position, []⟩
  | position, c :: rest =>
      if inComment then
        skipBlanks (c != '\n') (position.advance c) rest
      else if c = ' ' ∨ c = '\t' ∨ c = '\r' ∨ c = '\n' then
        skipBlanks false (position.advance c) rest
      else if c = '-' ∧ rest.head? = some '-' then
        skipBlanks true (position.advance c) rest
      else
        ⟨position, c :: rest⟩

/-- The cursor after the layout at a cursor. -/
def skip (cursor : Cursor) : Cursor :=
  skipBlanks false cursor.position cursor.rest

end Cursor

end DocumentQuery
