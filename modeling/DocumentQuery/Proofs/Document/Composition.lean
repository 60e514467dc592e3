import DocumentQuery.Proofs.Distinct
import DocumentQuery.Proofs.Document.Rendering

/-!
# Rendering in place

Filters, stages and commands are rendered as one element each, wherever a writer has room for
one: as the whole document, as the next item of an array, or under the name that waits in a
document.  Everything else that the writer holds stays as it was.  A projection has one field
for each of its paths, however often the path is named.
-/

namespace DocumentQuery

/-! ## Projections -/

/-- The field of a path that a projection keeps. -/
def Stage.kept (path : String) : String × Json := (path, .bool true)

theorem Json.Fields.insert_map_kept (paths : List String) (path : String) :
    Fields.insert (paths.map Stage.kept) path (.bool true) =
      (if path ∈ paths then paths else paths ++ [path]).map Stage.kept := by
  induction paths with
  | nil => rfl
  | cons first paths ih =>
      rw [List.map_cons, Stage.kept, insert]
      by_cases same : first = path
      · simp [same, Stage.kept]
      · rw [if_neg same, ih]
        by_cases named : path ∈ paths
        · simp [named, Stage.kept]
        · simp [named, Ne.symm same, Stage.kept]

/-- Paths that are named after others add those that are new. -/
theorem Stage.keptFields_eraseDups (earlier paths : List String) :
    keptFields (earlier.eraseDups.map kept) paths = (earlier ++ paths).eraseDups.map kept := by
  induction paths generalizing earlier with
  | nil => simp [keptFields]
  | cons path paths ih =>
      have next := ih (earlier ++ [path])
      rw [eraseDups_append_singleton, ← Json.Fields.insert_map_kept, List.append_assoc] at next
      exact next

theorem Stage.document_projection (mode : EncodingMode) (paths : List String) :
    (projection paths).document mode =
      .single "$project" (.object (paths.eraseDups.map fun path => (path, .bool true))) :=
  congrArg (fun fields => Json.single "$project" (.object fields)) (keptFields_eraseDups [] paths)

/-! ## Elements in their place -/

/-- Events that write one element.  On a writer without open frames and without a document, the
element becomes the document.  In an array it is added at the end, and in a document it takes
the name that waits for it.  Nothing else changes. -/
structure WritesElement (mode : EncodingMode) (events : List Event) (element : Json) : Prop where
  asRoot : ∀ writer : Writer, writer.frames = [] → writer.root = none →
    writer.run mode events = { writer with root := some element }
  asItem : ∀ (writer : Writer) (items : List Json) (outer : List Frame),
    writer.frames = .array items :: outer →
    writer.run mode events = { writer with frames := .array (items ++ [element]) :: outer }
  asField : ∀ (writer : Writer) (fields : Json.Fields) (name : String) (outer : List Frame),
    writer.frames = .document fields (some name) :: outer →
    writer.run mode events =
      { writer with frames := .document (fields.insert name element) none :: outer }

theorem writesElement_of_places {mode : EncodingMode} {events : List Event} {element : Json}
    (places : ∀ writer : Writer, writer.Ready → writer.run mode events = writer.place element) :
    WritesElement mode events element where
  asRoot := by
    intro writer noFrames noRoot
    have ready : writer.Ready := by
      intro fields frames open_
      cases noFrames.symm.trans open_
    rw [places writer ready, Writer.place, noFrames, noRoot]
  asItem := by
    intro writer items outer inArray
    have ready : writer.Ready := by
      intro fields frames open_
      cases inArray.symm.trans open_
    rw [places writer ready, Writer.place, inArray]
  asField := by
    intro writer fields name outer named
    have ready : writer.Ready := by
      intro other frames open_
      cases named.symm.trans open_
    rw [places writer ready, Writer.place, named]

/-- Rendering never fails and comes to the recursive document: alone, and as one element in
whatever place there is for it.  A projection names each of its paths once, in the order in
which they first occur. -/
theorem rendering_eq_document (mode : EncodingMode) :
    (∀ filter : Filter, filter.toDocument mode = .ok (filter.document mode) ∧
      WritesElement mode filter.events (filter.document mode)) ∧
    (∀ command : Command, command.toDocument mode = .ok (command.document mode) ∧
      WritesElement mode command.events (command.document mode)) ∧
    (∀ stage : Stage, WritesElement mode stage.events (stage.document mode)) ∧
    ∀ paths : List String, (Stage.projection paths).document mode =
      .single "$project" (.object (paths.eraseDups.map fun path => (path, .bool true))) := by
  refine ⟨?_, ?_, ?_, Stage.document_projection mode⟩
  · intro filter
    exact ⟨filter.toDocument_eq_ok mode, writesElement_of_places (filter.run_events mode)⟩
  · intro command
    exact ⟨command.toDocument_eq_ok mode, writesElement_of_places (command.run_events mode)⟩
  · intro stage
    exact writesElement_of_places (stage.run_events mode)

end DocumentQuery
