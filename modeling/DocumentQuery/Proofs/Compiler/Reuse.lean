import DocumentQuery.Proofs.Compiler.Recursion

/-!
# A compiler in use

One compiler may answer any number of requests, for the commands of statements and for
the filters of conditions, and any of them may fail.  Of all that it keeps only the alias
of the last statement about its entity.  So it answers each request as a compiler would
that was made for it.
-/

namespace DocumentQuery

/-! ## Requests and answers -/

/-- What a compiler is asked for: the command of a statement, or the filter of a
condition. -/
inductive Request where
  | command (statement : Statement)
  | filter (predicate : Predicate)

/-- What came of a request. -/
inductive Answer where
  | command (result : Except CompileError Command)
  | filter (result : Except CompileError Filter)

/-- The answer to a request, and the compiler as it is then. -/
structure Exchange where
  answer : Answer
  compiler : Compiler

namespace Compiler

/-- Answer a request. -/
def answer (entity : Entity) (compiler : Compiler) : Request → Exchange
  | .command statement =>
      let (result, compiler) := compiler.compileStatement entity statement
      ⟨.command result, compiler⟩
  | .filter predicate =>
      let (result, compiler) := compiler.compilePredicate entity predicate
      ⟨.filter result, compiler⟩

/-- Answer requests one after the other. -/
def serve (entity : Entity) (compiler : Compiler) : List Request → List Exchange
  | [] => []
  | request :: requests =>
      let exchange := compiler.answer entity request
      exchange :: exchange.compiler.serve entity requests

end Compiler

namespace Request

/-- The statement of a request, if it is about the entity. -/
def statementAbout? (entity : Entity) : Request → Option Statement
  | command statement =>
      if statement.entity.name = entity.name then some statement else none
  | filter _ => none

/-- What a compiler answers that was made for the request.  A statement brings its own
alias, and a condition is given one. -/
def answerAlone (entity : Entity) (aliasName : Option String) : Request → Answer
  | command statement => .command (Compiler.fresh.compileStatement entity statement).1
  | filter predicate =>
      .filter (({ aliasName } : Compiler).compilePredicate entity predicate).1

end Request

/-- The alias that the last statement about the entity gave it. -/
def Entity.lastAlias (entity : Entity) (requests : List Request) : Option String :=
  (requests.filterMap (Request.statementAbout? entity)).getLast?.bind Statement.aliasText

theorem Entity.lastAlias_concat (entity : Entity) (requests : List Request)
    (request : Request) :
    entity.lastAlias (requests ++ [request]) =
      (request.statementAbout? entity).elim (entity.lastAlias requests)
        Statement.aliasText := by
  rw [lastAlias, List.filterMap_append]
  cases found : request.statementAbout? entity with
  | none => simp [found, lastAlias]
  | some statement => simp [found]

/-! ## One request -/

namespace Compiler

theorem idle_fresh : fresh.Idle := idle_of_alias none

/-- An idle compiler answers as if it was made for the request, and is idle again. -/
theorem answer_eq {compiler : Compiler} (idle : compiler.Idle) (entity : Entity)
    (request : Request) :
    compiler.answer entity request =
      { answer := request.answerAlone entity compiler.aliasName
        compiler := { compiler with
          aliasName := (request.statementAbout? entity).elim compiler.aliasName
            Statement.aliasText } } := by
  cases request with
  | command statement =>
      simp only [answer, Request.answerAlone, Request.statementAbout?,
        compileStatement_eq idle, compileStatement_eq idle_fresh]
      split <;> rfl
  | filter predicate =>
      simp only [answer, Request.answerAlone, Request.statementAbout?,
        compilePredicate_eq idle, compilePredicate_eq (idle_of_alias compiler.aliasName)]
      rfl

/-! ## Many requests -/

/-- After some requests, further ones are answered as if made alone. -/
theorem getElem?_serve_after (entity : Entity) (earlier requests : List Request)
    (index : Nat) :
    (({ aliasName := entity.lastAlias earlier } : Compiler).serve entity requests)[index]? =
      requests[index]?.map fun request =>
        { answer := request.answerAlone entity
            (entity.lastAlias (earlier ++ requests.take index))
          compiler :=
            { aliasName := entity.lastAlias (earlier ++ requests.take (index + 1)) } } := by
  induction requests generalizing earlier index with
  | nil => rfl
  | cons request requests ih =>
      rw [serve, answer_eq (idle_of_alias _), ← Entity.lastAlias_concat]
      cases index with
      | zero => simp
      | succ index => simpa using ih (earlier ++ [request]) index

/-- A compiler can be used again.  Every request is answered as by a compiler that was
made for it, with the alias of the last statement about the entity before it.  After
every request nothing is put down, nobody waits, and no violation or error is kept. -/
theorem getElem?_serve_fresh (entity : Entity) (requests : List Request) (index : Nat) :
    (fresh.serve entity requests)[index]? = requests[index]?.map fun request =>
      { answer := request.answerAlone entity (entity.lastAlias (requests.take index))
        compiler :=
          { aliasName := entity.lastAlias (requests.take (index + 1))
            failure := none
            handoff := { expected := none, slot := none, fault := none, depth := 0 } } } :=
  getElem?_serve_after entity [] requests index

end Compiler

end DocumentQuery
