import DocumentQuery.Filter.Basic

/-!
# Commands

An aggregation over a collection: a pipeline of stages that match documents and
choose their fields.
-/

namespace DocumentQuery

/-- A step of a pipeline. -/
inductive Stage where
  | filtering (filter : Filter)
  | projection (paths : List String)
  deriving Repr, BEq

namespace Stage

/-- The filter of a stage. -/
def filter? : Stage → Option Filter
  | filtering filter => some filter
  | projection _ => none

/-- The paths that a stage keeps. -/
def paths? : Stage → Option (List String)
  | filtering _ => none
  | projection paths => some paths

end Stage

/-- An aggregation over a collection. -/
structure Command where
  collection : String
  pipeline : List Stage
  deriving Repr, BEq

namespace Command

/-- The filter of the first stage that has one. -/
def filter? (command : Command) : Option Filter := command.pipeline.findSome? Stage.filter?

/-- The paths of the first stage that chooses any. -/
def projection? (command : Command) : Option (List String) :=
  command.pipeline.findSome? Stage.paths?

end Command

/-- A command in the making. -/
structure CommandDraft where
  collection : String
  filter : Option Filter := none
  paths : List String := []
  deriving Repr

namespace CommandDraft

/-- Match with a filter instead of any earlier one. -/
def withFilter (draft : CommandDraft) (filter : Filter) : CommandDraft :=
  { draft with filter := some filter }

/-- Keep further paths. -/
def project (draft : CommandDraft) (paths : List String) : CommandDraft :=
  { draft with paths := draft.paths ++ paths }

/-- The command of a draft: it matches first, and it projects only to paths that
were named. -/
def build (draft : CommandDraft) : Command where
  collection := draft.collection
  pipeline :=
    (draft.filter.map Stage.filtering).toList ++
      if draft.paths.isEmpty then [] else [.projection draft.paths]

end CommandDraft

end DocumentQuery
