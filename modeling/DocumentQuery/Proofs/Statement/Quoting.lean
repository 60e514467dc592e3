import DocumentQuery.Proofs.Statement.Literals
import DocumentQuery.Proofs.Statement.Names
import Mathlib.Algebra.Ring.Parity

/-!
# Strings between quotes

A string is written between quotes of either kind, with its own quotes doubled.  What the grammar
reads as a string is what is written so, and the string can be told from it.  A text in which the
last quote is still open is read by no rule at all.
-/

namespace DocumentQuery

open Grammar

/-! ## Phrases that begin with rules -/

namespace Grammar.Phrase

/-- Whether a phrase reads a rule before anything else. -/
def beginsWithRule : Phrase → Bool
  | rule _ => true
  | seq first _ => first.beginsWithRule
  | either first second => first.beginsWithRule && second.beginsWithRule
  | startOfInput | optional _ | many _ => false

/-- What holds wherever a rule is read holds wherever a phrase that begins with rules is read. -/
theorem start_of_matches (holds : Cursor → Prop) {reads : Rule → Reading}
    (sound : ∀ rule cursor next trees, reads rule cursor next trees → holds cursor)
    {phrase : Phrase} (begins : phrase.beginsWithRule = true) {cursor next : Cursor}
    {trees : List Tree} (matched : phrase.Matches reads cursor next trees) : holds cursor := by
  induction phrase generalizing next trees with
  | rule target => exact sound _ _ _ _ matched
  | seq first second firstIH _ =>
      rcases matched with ⟨_, _, _, firstMatched, _⟩
      exact firstIH begins firstMatched
  | either first second firstIH secondIH =>
      rcases (Bool.and_eq_true ..).mp begins with ⟨firstBegins, secondBegins⟩
      rcases matched with firstMatched | secondMatched
      · exact firstIH firstBegins firstMatched
      · exact secondIH secondBegins secondMatched
  | startOfInput | optional | many => cases begins

end Grammar.Phrase

/-! ## Open quotes -/

/-- The two kinds of quotes. -/
def IsQuote (quote : Char) : Prop := quote = '\'' ∨ quote = '"'

/-- Whether a text starts with a quote that is never closed. -/
def IsOpen (text : List Char) : Prop :=
  ∃ quote content, IsQuote quote ∧ text = quote :: Literal.doubleQuotes quote content

theorem IsOpen.skip_eq {cursor : Cursor} (isOpen : IsOpen cursor.rest) : cursor.skip = cursor := by
  rcases cursor with ⟨position, text⟩
  rcases isOpen with ⟨quote, content, rfl | rfl, rfl⟩ <;> rfl

namespace Grammar

/-- A reading that starts where no quote is open. -/
def ClosedReading : Reading := fun cursor _ _ => ¬ IsOpen cursor.rest

namespace Rule

/-- No token starts with a quote but a string, and that has to be closed. -/
theorem after?_of_isOpen {rule : Rule} {pattern : Pattern} (isToken : rule.body = .token pattern)
    {text : List Char} (isOpen : IsOpen text) : pattern.after? text = none := by
  rcases isOpen with ⟨quote, content, known, rfl⟩
  cases rule
  case litString =>
    cases isToken
    exact Pattern.litString_after?_open known content
  all_goals cases isToken <;> rcases known with rfl | rfl <;> rfl

theorem closedReading_phrase {rule : Rule} {phrase : Phrase} (isPhrase : rule.body = .phrase phrase)
    {cursor next : Cursor} {trees : List Tree}
    (matched : phrase.Matches (fun _ => ClosedReading) cursor next trees) :
    ¬ IsOpen cursor.rest := by
  have start (begins : phrase.beginsWithRule = true) : ¬ IsOpen cursor.rest :=
    Phrase.start_of_matches (fun cursor => ¬ IsOpen cursor.rest) (fun _ _ _ _ closed => closed)
      begins matched
  cases rule
  -- The start of the text reads nothing, so that a statement begins with its first keyword.
  case statement =>
    cases isPhrase
    rcases matched with ⟨_, _, _, ⟨_, rfl, rfl⟩, ⟨_, _, _, keyword, _⟩, _⟩
    intro isOpen
    rw [isOpen.skip_eq] at keyword
    exact keyword isOpen
  all_goals cases isPhrase <;> exact start rfl

theorem closedReading_of_read (depth : Nat) (rule : Rule) :
    Phrase.Sound (read depth rule) ClosedReading := by
  apply read_induction
  · intro rule pattern cursor rest isToken matched isOpen
    cases (after?_of_isOpen isToken isOpen).symm.trans matched
  · intro rule phrase cursor next trees isPhrase matched
    exact closedReading_phrase isPhrase matched

/-- Nothing is read where a quote is open. -/
theorem read_of_isOpen (depth : Nat) (rule : Rule) {cursor : Cursor} (isOpen : IsOpen cursor.rest)
    (attempts : Attempts) : (read depth rule cursor attempts).1 = none := by
  cases result : (read depth rule cursor attempts).1 with
  | none => rfl
  | some found => exact absurd isOpen (closedReading_of_read depth rule _ _ _ _ result)

end Rule

end Grammar

/-! ## Strings -/

namespace Literal

variable {quote : Char}

theorem count_doubleQuotes (quote : Char) (content : List Char) :
    (doubleQuotes quote content).count quote = 2 * content.count quote := by
  induction content with
  | nil => rfl
  | cons c content ih =>
      rw [doubleQuotes] at ih ⊢
      rw [List.flatMap_cons, List.count_append, ih, List.count_cons]
      by_cases same : c = quote
      · simp [same, Nat.mul_add, Nat.add_comm]
      · simp [same]

/-- Every quote of a closed text has another one. -/
theorem even_count_quoteText (quote : Char) (content : List Char) :
    Even ((quoteText quote content).count quote) := by
  have inside := count_doubleQuotes quote content
  refine ⟨content.count quote + 1, ?_⟩
  simp only [quoteText, List.count_append, List.count_cons_self, List.count_nil, inside]
  omega

theorem readsAll_quoteText (known : IsQuote quote) (content : List Char) :
    Rule.litString.ReadsAll (quoteText quote content) := by
  rw [Rule.readsAll_iff rfl]
  have matched := Pattern.litString_after?_append known content
    (show ([] : List Char).head? ≠ some quote by simp)
  rwa [List.append_nil] at matched

/-- A text that is read as a string is the string between quotes. -/
theorem exists_of_readsAll {text : List Char} (reads : Rule.litString.ReadsAll text) :
    ∃ quote content, IsQuote quote ∧ text = quoteText quote content := by
  rw [Rule.readsAll_iff rfl] at reads
  rcases Pattern.exists_of_litString_after? reads with ⟨quote, content, known, cut⟩
  exact ⟨quote, content, known, by rw [cut, List.append_nil]⟩

/-- Quoting is a bijection between strings and the texts that are read as strings with that quote.
In either kind of quotes, what is written for a string is read to its end as the string, and what is
read to its end as a string is what is written for it with its own quote.  A text that ends inside
quotes is not read to its end, and where a quote is never closed no rule reads anything. -/
theorem strings_quoted_exactly :
    (∀ quote, IsQuote quote → ∀ content : String,
      Rule.litString.ReadsAll (quoteText quote content.toList) ∧
        ofQuoted (quoteText quote content.toList) = string content) ∧
    (∀ text, Rule.litString.ReadsAll text → ∃ (quote : Char) (content : String), IsQuote quote ∧
      text.head? = some quote ∧ ofQuoted text = string content ∧
        quoteText quote content.toList = text) ∧
    (∀ content, read? (string content).display.toList = some (string content)) ∧
    (∀ quote text, text.head? = some quote → Odd (text.count quote) →
      ¬ Rule.litString.ReadsAll text) ∧
    ∀ quote content, IsQuote quote → ∀ rule depth position attempts,
      (Rule.read depth rule ⟨position, quote :: doubleQuotes quote content⟩ attempts).1 = none := by
  refine ⟨?_, ?_, ?_, ?_, ?_⟩
  · intro quote known content
    refine ⟨readsAll_quoteText known _, ?_⟩
    rw [ofQuoted_quoteText known, String.ofList_toList]
  · intro text reads
    rcases exists_of_readsAll reads with ⟨quote, content, known, rfl⟩
    refine ⟨quote, String.ofList content, known, rfl, ofQuoted_quoteText known _, ?_⟩
    rw [String.toList_ofList]
  · intro content
    apply read?_of_spelled
    exact ⟨'\'', Or.inl rfl, String.toList_ofList⟩
  · intro quote text starts odd reads
    rcases exists_of_readsAll reads with ⟨own, content, _, rfl⟩
    cases starts
    exact (Nat.not_even_iff_odd.mpr odd) (even_count_quoteText _ _)
  · intro quote content known rule depth position attempts
    exact Rule.read_of_isOpen depth rule ⟨quote, content, known, rfl⟩ attempts

/-- Quotes at the start, inside and at the end of a string, and one of the other kind.  Without its
last quote the text is not closed. -/
theorem strings_quoted_with_quotes_inside :
    Rule.litString.ReadsAll "'''a\"''b'''".toList ∧
    ofQuoted "'''a\"''b'''".toList = string "'a\"'b'" ∧
    ¬ Rule.litString.ReadsAll "'''a\"''b''".toList := by
  rcases strings_quoted_exactly with ⟨written, _, _, unclosed, _⟩
  rcases written '\'' (Or.inl rfl) "'a\"'b'" with ⟨reads, stands⟩
  exact ⟨reads, stands, unclosed '\'' _ rfl (by decide)⟩

end Literal

end DocumentQuery
