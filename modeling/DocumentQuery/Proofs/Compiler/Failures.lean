import DocumentQuery.Proofs.Compiler.EntryPoints
import DocumentQuery.Proofs.Compiler.Meaning
import DocumentQuery.Proofs.Statement.Nesting

/-!
# Which failures a query can cause

A condition that was read from a text fails to compile where the first of its
comparisons and null checks does, so a failure of the whole can be told from these.
They fail because something is not supported or not known.  One failure is of another
kind: a literal that is checked for null is handed over where a field was asked for, and
the query is then blamed for a mistake of the compiler.
-/

namespace DocumentQuery

/-! ## The first failure -/

namespace Predicate

variable {entity : Entity} {aliasName : Option String}

/-- Whether several conditions compile, up to the first that does not. -/
def compileEach (entity : Entity) (aliasName : Option String) :
    List Predicate → Except CompileError Unit
  | [] => .ok ()
  | predicate :: predicates =>
      match predicate.toFilter entity aliasName with
      | .error error => .error error
      | .ok _ => compileEach entity aliasName predicates

theorem compileEach_append (first second : List Predicate) :
    compileEach entity aliasName (first ++ second) =
      (compileEach entity aliasName first).bind fun _ => compileEach entity aliasName second := by
  induction first with
  | nil => rfl
  | cons predicate predicates ih =>
      rw [List.cons_append, compileEach, compileEach, ih]
      cases predicate.toFilter entity aliasName <;> rfl

/-- The operands of a junction compile up to the first of their atoms that does not, if
that holds of each operand. -/
theorem compileEach_flatMap_atoms {operands : List Predicate}
    (each : ∀ operand ∈ operands,
      (operand.toFilter entity aliasName).map (fun _ => ()) =
        compileEach entity aliasName operand.atoms) :
    (toFilters entity aliasName operands).map (fun _ => ()) =
      compileEach entity aliasName (operands.flatMap atoms) := by
  induction operands with
  | nil => rfl
  | cons operand operands ih =>
      have rest := ih fun other member => each other (List.mem_cons_of_mem _ member)
      rw [List.flatMap_cons, compileEach_append, ← each operand List.mem_cons_self, ← rest,
        toFilters]
      cases operand.toFilter entity aliasName with
      | error error => rfl
      | ok filter => cases toFilters entity aliasName operands <;> rfl

/-- A condition in which every junction has operands compiles up to the first of its
atoms that does not. -/
theorem toFilter_eq_compileEach {predicate : Predicate} (nested : predicate.isNested = true) :
    (predicate.toFilter entity aliasName).map (fun _ => ()) =
      compileEach entity aliasName predicate.atoms := by
  induction predicate using inductionOn with
  | comparison left operator right span =>
      simp only [atoms, compileEach]
      cases (comparison left operator right span).toFilter entity aliasName <;> rfl
  | nullCheck subject negated span =>
      simp only [atoms, compileEach]
      cases (nullCheck subject negated span).toFilter entity aliasName <;> rfl
  | junction connective operands span ih =>
      rw [isNested, Bool.and_eq_true, decide_eq_true_iff, mayAllJoin_iff] at nested
      have each := compileEach_flatMap_atoms fun operand member =>
        ih operand member (nested.2 operand member).2
      rw [atoms, atomsOfAll_eq_flatMap, ← each, toFilter]
      cases compiled : toFilters entity aliasName operands with
      | error error => rfl
      | ok filters =>
          cases filters with
          | cons filter filters => cases connective <;> rfl
          | nil =>
              -- Without filters there would be no operands.
              cases operands with
              | nil => exact absurd nested.1 (by decide)
              | cons operand operands =>
                  rcases toFilters_cons_eq_ok compiled with ⟨_, _, _, _, same⟩
                  cases same
  | negation operand span ih =>
      rw [isNested, Bool.and_eq_true] at nested
      rw [atoms, ← ih nested.2, toFilter]
      cases operand.toFilter entity aliasName <;> rfl
  | group inner span ih => exact ih nested

/-- The failure of several conditions is the failure of one that comes after conditions
that compile. -/
theorem compileEach_eq_error_iff (predicates : List Predicate) (error : CompileError) :
    compileEach entity aliasName predicates = .error error ↔
      ∃ before failing after, predicates = before ++ failing :: after ∧
        (∀ other ∈ before, ∃ filter, other.toFilter entity aliasName = .ok filter) ∧
        failing.toFilter entity aliasName = .error error := by
  induction predicates with
  | nil => simp [compileEach]
  | cons predicate predicates ih =>
      rw [compileEach]
      constructor
      · intro failed
        cases outcome : predicate.toFilter entity aliasName with
        | error first =>
            rw [outcome] at failed
            cases failed
            exact ⟨[], predicate, predicates, rfl, nofun, outcome⟩
        | ok filter =>
            rw [outcome] at failed
            rcases ih.mp failed with ⟨before, failing, after, rfl, compile, fails⟩
            refine ⟨predicate :: before, failing, after, rfl, ?_, fails⟩
            intro other member
            rcases List.mem_cons.mp member with rfl | member
            · exact ⟨filter, outcome⟩
            · exact compile other member
      · rintro ⟨before, failing, after, same, compile, fails⟩
        cases before with
        | nil =>
            cases same
            rw [fails]
        | cons head before =>
            cases same
            rcases compile _ List.mem_cons_self with ⟨filter, outcome⟩
            rw [outcome]
            exact ih.mpr ⟨before, failing, after, rfl,
              fun other member => compile other (List.mem_cons_of_mem _ member), fails⟩

/-! ## Failures of comparisons and null checks -/

/-- Whether a condition checks a literal for null. -/
def checksLiteral : Predicate → Bool
  | nullCheck (.literal _ _) _ _ => true
  | _ => false

/-- Whether a condition compares a field of an entity with a literal or checks it for
null. -/
def isAboutField (entity : Entity) (aliasName : Option String) : Predicate → Bool
  | comparison (.path path _) _ (.literal _ _) _ | comparison (.literal _ _) _ (.path path _) _
  | nullCheck (.path path _) _ _ => (entity.fieldOf? aliasName path).isSome
  | _ => false

end Predicate

namespace CompileError

/-- Whether an error says what a statement asks for that cannot be had. -/
def isRefusal : CompileError → Bool
  | comparisonShape _ _ | functionCall _ | unknownField _ _ | otherEntity _ _ | schema _ => true
  | handoff _ | filter _ | query _ => false

/-- The complaint about a literal that is checked for null. -/
def literalForField : CompileError := .handoff (.tagMismatch "field path" "field value")

end CompileError

namespace Predicate

variable {entity : Entity} {aliasName : Option String}

theorem resolve_of_isSome {path : AttributePath}
    (named : (entity.fieldOf? aliasName path).isSome = true) :
    ∃ resolved, entity.resolve aliasName path = .ok resolved := by
  rcases Option.isSome_iff_exists.mp named with ⟨field, found⟩
  exact ⟨_, Entity.resolve_of_fieldOf? found⟩

/-- What is about a field compiles. -/
theorem toFilter_of_isAboutField {predicate : Predicate}
    (about : predicate.isAboutField entity aliasName = true) :
    ∃ filter, predicate.toFilter entity aliasName = .ok filter := by
  unfold isAboutField at about
  split at about
  next =>
    rcases resolve_of_isSome about with ⟨resolved, succeeded⟩
    exact ⟨_, by rw [toFilter, Entity.comparisonFilter, succeeded]; rfl⟩
  next =>
    rcases resolve_of_isSome about with ⟨resolved, succeeded⟩
    exact ⟨_, by rw [toFilter, Entity.comparisonFilter, succeeded]; rfl⟩
  next =>
    rcases resolve_of_isSome about with ⟨resolved, succeeded⟩
    exact ⟨_, by rw [toFilter, Entity.nullCheckFilter, succeeded]; rfl⟩
  next => cases about

/-- An attribute that is no field of the entity is refused, whatever it is used for. -/
theorem resolve_bind_of_isSome_eq_false {path : AttributePath}
    (unnamed : (entity.fieldOf? aliasName path).isSome = false)
    (next : ResolvedField → Except CompileError Filter) :
    ∃ error, entity.resolve aliasName path >>= next = .error error ∧ error.isRefusal = true := by
  rw [Option.isSome_eq_false_iff, Option.isNone_iff_eq_none] at unnamed
  rw [Entity.resolve_of_fieldOf?_eq_none unnamed]
  exact ⟨_, rfl, rfl⟩

/-- A comparison that is not about a field is refused. -/
theorem toFilter_comparison_of_isAboutField_eq_false {left right : Expression}
    {operator : Comparison} {span : Span}
    (notAbout : (comparison left operator right span).isAboutField entity aliasName = false) :
    ∃ error, (comparison left operator right span).toFilter entity aliasName = .error error ∧
      error.isRefusal = true := by
  rw [toFilter]
  cases left with
  | call name arguments callSpan => exact ⟨_, rfl, rfl⟩
  | path path pathSpan =>
      cases right with
      | path | call => exact ⟨_, rfl, rfl⟩
      | literal value valueSpan => exact resolve_bind_of_isSome_eq_false notAbout _
  | literal value valueSpan =>
      cases right with
      | literal | call => exact ⟨_, rfl, rfl⟩
      | path path pathSpan => exact resolve_bind_of_isSome_eq_false notAbout _

/-- A null check that is not about a field is refused, unless it is one of a literal. -/
theorem toFilter_nullCheck_of_isAboutField_eq_false {subject : Expression} {negated : Bool}
    {span : Span}
    (notAbout : (nullCheck subject negated span).isAboutField entity aliasName = false) :
    ∃ error, (nullCheck subject negated span).toFilter entity aliasName = .error error ∧
      if (nullCheck subject negated span).checksLiteral = true then error = .literalForField
      else error.isRefusal = true := by
  rw [toFilter]
  cases subject with
  | path path pathSpan => exact resolve_bind_of_isSome_eq_false notAbout _
  | call name arguments callSpan => exact ⟨_, rfl, rfl⟩
  | literal value valueSpan => exact ⟨_, rfl, rfl⟩

/-- Of the comparisons and null checks of a condition, those that are not about a field
fail, and all but null checks of literals are refused. -/
theorem toFilter_atom_of_isAboutField_eq_false {predicate atom : Predicate}
    (member : atom ∈ predicate.atoms)
    (notAbout : atom.isAboutField entity aliasName = false) :
    ∃ error, atom.toFilter entity aliasName = .error error ∧
      if atom.checksLiteral = true then error = .literalForField else error.isRefusal = true := by
  rcases mem_atoms_cases member with
    ⟨left, operator, right, span, rfl⟩ | ⟨subject, negated, span, rfl⟩
  · exact toFilter_comparison_of_isAboutField_eq_false notAbout
  · exact toFilter_nullCheck_of_isAboutField_eq_false notAbout

theorem isAboutField_iff_exists_toFilter {predicate atom : Predicate}
    (member : atom ∈ predicate.atoms) :
    atom.isAboutField entity aliasName = true ↔
      ∃ filter, atom.toFilter entity aliasName = .ok filter := by
  constructor
  · exact toFilter_of_isAboutField
  · rintro ⟨filter, compiled⟩
    cases about : atom.isAboutField entity aliasName with
    | true => rfl
    | false =>
        rcases toFilter_atom_of_isAboutField_eq_false member about with ⟨error, failed, _⟩
        rw [failed] at compiled
        cases compiled

/-- A comparison or a null check that fails is not about a field, and it is refused or it
checks a literal for null. -/
theorem toFilter_atom_eq_error {predicate atom : Predicate} (member : atom ∈ predicate.atoms)
    {error : CompileError} (failed : atom.toFilter entity aliasName = .error error) :
    atom.isAboutField entity aliasName = false ∧
      if atom.checksLiteral = true then error = .literalForField else error.isRefusal = true := by
  cases about : atom.isAboutField entity aliasName with
  | true =>
      rcases toFilter_of_isAboutField about with ⟨filter, compiled⟩
      rw [failed] at compiled
      cases compiled
  | false =>
      rcases toFilter_atom_of_isAboutField_eq_false member about with ⟨other, otherFailed, kind⟩
      rw [failed] at otherFailed
      cases otherFailed
      exact ⟨rfl, kind⟩

theorem toFilter_of_checksLiteral {predicate : Predicate}
    (literal : predicate.checksLiteral = true) :
    predicate.toFilter entity aliasName = .error .literalForField := by
  unfold checksLiteral at literal
  split at literal
  next => rfl
  next => cases literal

end Predicate

/-! ## Failures of queries -/

/-- A condition that was read fails as the first of its comparisons and null checks that
is not about a field. -/
theorem Predicate.toFilter_eq_error_iff {entity : Entity} {aliasName : Option String}
    {predicate : Predicate} (nested : predicate.isNested = true) (error : CompileError) :
    predicate.toFilter entity aliasName = .error error ↔
      ∃ before failing after, predicate.atoms = before ++ failing :: after ∧
        (∀ other ∈ before, other.isAboutField entity aliasName = true) ∧
        failing.isAboutField entity aliasName = false ∧
        failing.toFilter entity aliasName = .error error := by
  have sameFailures : predicate.toFilter entity aliasName = .error error ↔
      compileEach entity aliasName predicate.atoms = .error error := by
    rw [← toFilter_eq_compileEach nested]
    cases predicate.toFilter entity aliasName <;> simp [Except.map]
  rw [sameFailures, compileEach_eq_error_iff]
  constructor
  · rintro ⟨before, failing, after, same, compile, fails⟩
    have isAtom : ∀ atom ∈ before ++ failing :: after, atom ∈ predicate.atoms := by
      intro atom member
      rw [same]
      exact member
    have failsHere := toFilter_atom_eq_error (isAtom failing (by simp)) fails
    refine ⟨before, failing, after, same, ?_, failsHere.1, fails⟩
    intro other member
    apply (isAboutField_iff_exists_toFilter (isAtom other (by simp [member]))).mpr
    exact compile other member
  · rintro ⟨before, failing, after, same, about, _, fails⟩
    exact ⟨before, failing, after, same,
      fun other member => toFilter_of_isAboutField (about other member), fails⟩

/-- A comparison or a null check at which the compilation of a statement stops: the first
that is not about a field of the entity. -/
structure Statement.StopsAt (statement : Statement) (entity : Entity) (failing : Predicate) :
    Prop where
  valid : entity.validate = .ok ()
  sameEntity : statement.entity.name = entity.name
  first : ∃ predicate before after, statement.condition = some predicate ∧
    predicate.atoms = before ++ failing :: after ∧
    (∀ other ∈ before, other.isAboutField entity statement.aliasText = true) ∧
    failing.isAboutField entity statement.aliasText = false

namespace Statement

variable {entity : Entity} {statement : Statement}

theorem StopsAt.exists_mem_atoms {failing : Predicate} (stops : statement.StopsAt entity failing) :
    ∃ predicate : Predicate, failing ∈ predicate.atoms := by
  rcases stops.first with ⟨predicate, before, after, _, same, _⟩
  exact ⟨predicate, by simp [same]⟩

theorem toFilter_eq_error_iff (error : CompileError) :
    statement.toFilter entity = .error error ↔
      (statement.entity.name ≠ entity.name ∧
        error = .otherEntity entity.name statement.entity.name) ∨
      statement.entity.name = entity.name ∧ ∃ predicate, statement.condition = some predicate ∧
        predicate.toFilter entity statement.aliasText = .error error := by
  unfold toFilter
  split
  next sameEntity =>
    simp only [sameEntity, ne_eq, not_true, false_and, false_or, true_and]
    cases statement.condition with
    | none => simp
    | some predicate =>
        cases outcome : predicate.toFilter entity statement.aliasText <;> simp [Except.map, outcome]
  next otherEntity => simp [otherEntity, eq_comm]

/-- A statement that was read fails because of the schema, because of its entity, or
where its compilation stops. -/
theorem compile_eq_error_iff {text : String} (parsed : Statement.parse text = .ok statement)
    (error : CompileError) :
    statement.compile entity = .error error ↔
      (∃ problem, entity.validate = .error problem ∧ error = .schema problem) ∨
      (entity.validate = .ok () ∧ statement.entity.name ≠ entity.name ∧
        error = .otherEntity entity.name statement.entity.name) ∨
      ∃ failing, statement.StopsAt entity failing ∧
        failing.toFilter entity statement.aliasText = .error error := by
  rw [compile_eq_map_compileFilter, compileFilter_eq, Entity.check]
  cases valid : entity.validate with
  | error problem =>
      simp only [Except.mapError, Except.map, bind, Except.bind]
      constructor
      · rintro ⟨⟩
        exact Or.inl ⟨problem, rfl, rfl⟩
      · rintro (⟨_, ⟨⟩, rfl⟩ | ⟨⟨⟩, _⟩ | ⟨failing, stops, _⟩)
        · rfl
        · cases valid.symm.trans stops.valid
  | ok =>
      have unmapped : ((Except.mapError CompileError.schema (.ok ()) >>= fun _ =>
          statement.toFilter entity).map fun filter =>
            entity.commandWith (filter.map Filter.enforceNullSafety)) = .error error ↔
          statement.toFilter entity = .error error := by
        cases statement.toFilter entity <;> simp [Except.mapError, Except.map, bind, Except.bind]
      rw [unmapped, toFilter_eq_error_iff]
      constructor
      · rintro (⟨otherEntity, rfl⟩ | ⟨sameEntity, predicate, condition, failed⟩)
        · exact Or.inr (Or.inl ⟨rfl, otherEntity, rfl⟩)
        · have nested := isNested_of_parse parsed condition
          rcases (Predicate.toFilter_eq_error_iff nested error).mp failed with
            ⟨before, failing, after, same, about, notAbout, fails⟩
          refine Or.inr (Or.inr ⟨failing, ⟨valid, sameEntity, ?_⟩, fails⟩)
          exact ⟨predicate, before, after, condition, same, about, notAbout⟩
      · rintro (⟨_, ⟨⟩, _⟩ | ⟨_, otherEntity, rfl⟩ | ⟨failing, stops, fails⟩)
        · exact Or.inl ⟨otherEntity, rfl⟩
        · rcases stops.first with ⟨predicate, before, after, condition, same, about, notAbout⟩
          have nested := isNested_of_parse parsed condition
          have failed := (Predicate.toFilter_eq_error_iff nested error).mpr
            ⟨before, failing, after, same, about, notAbout, fails⟩
          exact Or.inr ⟨stops.sameEntity, predicate, condition, failed⟩

end Statement

theorem compileQuery_eq_error_iff (entity : Entity) (query : String) (error : CompileError) :
    compileQuery entity query = .error error ↔
      (∃ problem, Statement.parse query = .error problem ∧ error = .query problem) ∨
        ∃ statement, Statement.parse query = .ok statement ∧
          statement.compile entity = .error error := by
  unfold compileQuery
  cases Statement.parse query <;> simp [Except.mapError, bind, Except.bind, eq_comm]

/-- Where a query goes wrong.  A text that is no query is reported as such and a query
that is read is refused, unless its compilation stops where a literal is checked for
null: then it meets the complaint about handing over. -/
theorem compileQuery_failure (entity : Entity) (query : String) :
    (∀ error, compileQuery entity query = .error error →
      (∃ problem, Statement.parse query = .error problem ∧ error = .query problem) ∨
        error.isRefusal = true ∨ error = .literalForField) ∧
      (compileQuery entity query = .error .literalForField ↔
        ∃ statement check, Statement.parse query = .ok statement ∧
          statement.StopsAt entity check ∧ check.checksLiteral = true) := by
  constructor
  · intro error failed
    rcases (compileQuery_eq_error_iff entity query error).mp failed with
      unread | ⟨statement, parsed, failed⟩
    · exact Or.inl unread
    · right
      rcases (Statement.compile_eq_error_iff parsed error).mp failed with
        ⟨problem, _, rfl⟩ | ⟨_, _, rfl⟩ | ⟨failing, stops, fails⟩
      · exact Or.inl rfl
      · exact Or.inl rfl
      · rcases stops.exists_mem_atoms with ⟨predicate, member⟩
        have kind := (Predicate.toFilter_atom_eq_error member fails).2
        split at kind
        next => exact Or.inr kind
        next => exact Or.inl kind
  · constructor
    · intro failed
      rcases (compileQuery_eq_error_iff entity query _).mp failed with
        ⟨_, _, same⟩ | ⟨statement, parsed, failed⟩
      · cases same
      rcases (Statement.compile_eq_error_iff parsed _).mp failed with
        ⟨_, _, same⟩ | ⟨_, _, same⟩ | ⟨failing, stops, fails⟩
      · cases same
      · cases same
      rcases stops.exists_mem_atoms with ⟨predicate, member⟩
      have kind := (Predicate.toFilter_atom_eq_error member fails).2
      split at kind
      next literal => exact ⟨statement, failing, parsed, stops, literal⟩
      next => cases kind
    · rintro ⟨statement, check, parsed, stops, literal⟩
      apply (compileQuery_eq_error_iff entity query _).mpr
      refine Or.inr ⟨statement, parsed, (Statement.compile_eq_error_iff parsed _).mpr ?_⟩
      exact Or.inr (Or.inr ⟨check, stops, Predicate.toFilter_of_checksLiteral literal⟩)

/-- The statement of `from Book b where 5 is null`. -/
def fiveIsNull : Statement where
  entity := ⟨"Book", ⟨5, 9, 1, 6⟩⟩
  aliasName := some ⟨"b", ⟨10, 11, 1, 11⟩⟩
  condition := some (.nullCheck (.literal (.integer 5) ⟨18, 19, 1, 19⟩) false ⟨18, 27, 1, 19⟩)
  span := ⟨0, 27, 1, 1⟩

/-- The number in this query is checked for null where a field is asked for. -/
theorem compileQuery_null_check_of_five :
    compileQuery .books "from Book b where 5 is null" = .error .literalForField := by
  have parsed : Statement.parse "from Book b where 5 is null" = .ok fiveIsNull := by
    decide +kernel
  exact (compileQuery_eq_error_iff _ _ _).mpr (Or.inr ⟨fiveIsNull, parsed, rfl⟩)

end DocumentQuery
