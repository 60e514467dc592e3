import DocumentQuery.Tool.Run

/-!
# Command line

Reads the files that the arguments name, runs the tool and does what is left to
be done.
-/

namespace DocumentQuery

/-- The text of a file, if it can be read. -/
def readFile? (path : String) : IO (Option String) := do
  try return some (← IO.FS.readFile path)
  catch _ => return none

/-- Print or save a text. -/
def finish : Tool.Output → IO UInt32
  | .print text => do
      IO.print text
      return 0
  | .save path text => do
      try
        IO.FS.writeFile path text
        return 0
      catch _ =>
        IO.eprintln ("Error: " ++ (ToolError.file path).message)
        return 1

end DocumentQuery

open DocumentQuery in
/-- Run the tool on its arguments. -/
def main (arguments : List String) : IO UInt32 := do
  match Invocation.read? arguments with
  | none =>
      IO.eprintln "usage: mqlt [--settings FILE] translate|explain|ast [OPTIONS]"
      return 2
  | some invocation =>
      let texts ← (Tool.inputs invocation).mapM fun path => do return (path, ← readFile? path)
      match Tool.run (fun path => (texts.lookup path).join) invocation with
      | .ok output => finish output
      | .error error =>
          IO.eprintln ("Error: " ++ error.message)
          return 1
