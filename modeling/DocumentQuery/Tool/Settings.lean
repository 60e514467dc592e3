import DocumentQuery.Document.Encoding
import DocumentQuery.Json.Record

/-!
# Settings

How the tool writes documents unless its arguments say otherwise.  A settings text
may leave out any of them.
-/

namespace DocumentQuery

/-- The name of a mode. -/
def EncodingMode.name : EncodingMode → String
  | relaxed => "relaxed"
  | canonical => "canonical"

/-- The settings of the tool. -/
structure Settings where
  jsonMode : EncodingMode := .relaxed
  /-- Whether documents are indented. -/
  pretty : Bool := true
  logLevel : String := "info"
  deriving DecidableEq, Repr

namespace Settings

/-- Settings as data. -/
def toJson (settings : Settings) : Json :=
  .object
    [("json_mode", .string settings.jsonMode.name), ("pretty", .bool settings.pretty),
      ("log_level", .string settings.logLevel)]

/-- How settings are read. -/
def slots : List (Json.Slot Settings) :=
  [⟨"json_mode", false, fun settings text => do
      let choices := [EncodingMode.relaxed, .canonical].map fun mode => (mode.name, mode)
      let (jsonMode, text) ← Json.readChoice choices text
      return ({ settings with jsonMode }, text)⟩,
    ⟨"pretty", false, fun settings text => do
      let (pretty, text) ← Json.readBool text
      return ({ settings with pretty }, text)⟩,
    ⟨"log_level", false, fun settings text => do
      let (logLevel, text) ← Json.readText text
      return ({ settings with logLevel }, text)⟩]

/-- Read the text of settings. -/
def read (text : String) : Except Json.Fault Settings :=
  Json.readAll (Json.readRecord slots {}) text

/-- The mode of documents, where an argument may ask for the canonical one. -/
def mode (settings : Settings) (canonical : Bool) : EncodingMode :=
  if canonical then .canonical else settings.jsonMode

end Settings

end DocumentQuery
