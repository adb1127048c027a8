import JarMetrics.Files.Tree
import JarMetrics.Report.Format

/-!
# Delivering reports

A report goes to a file, with the directories on its way, or else to the output of the run. A page
in a file can be opened in a browser.
-/

namespace JarMetrics

/-- What a delivery leaves behind. -/
structure Delivery where
  tree : FileTree
  /-- What was written to the output of the run. -/
  output : String := ""
  /-- Messages about the delivery. -/
  status : String := ""
  /-- Addresses that a browser was asked to open. -/
  opened : List String := []
  failure : Option Failure := none

/-- Something that is written: the text, which may be only a first part if writing failed. -/
structure Written where
  text : String
  failure : Option Failure := none

namespace Delivery

/-- The message about a report in a file. -/
def announce (format : String) (opened : Bool) (path : String) : String :=
  Text.upper format ++ " report generated" ++
    (if opened then " and opened" else "") ++ ": " ++ path ++ "\n"

/-- Deliver to the file at a path. -/
def toFile (tree : FileTree) (browser : String → Except String Unit) (path format : String)
    (noOpen : Bool) (written : Written) : Delivery :=
  let directory := Path.directory path
  let prepared := if directory == "." then .ok tree else tree.makeDirectories directory
  match prepared with
  | .error cause =>
      { tree,
        failure :=
          some (.codedBy .output ("failed to create output directory: " ++ directory) cause) }
  | .ok tree =>
      match tree.write path written.text.toUTF8.toList with
      | .error cause =>
          { tree,
            failure := some (.codedBy .output ("failed to create output file: " ++ path) cause) }
      | .ok tree =>
          match written.failure with
          | some cause =>
              { tree, failure := some (.codedBy .output "failed to write output" cause) }
          | none =>
              let place := Path.absolute tree.here path
              if format != "html" || noOpen then { tree, status := announce format false place }
              else
                let address := "file://" ++ place
                match browser address with
                | .ok () => { tree, opened := [address], status := announce format true place }
                | .error reason =>
                    { tree, opened := [address],
                      status := "Warning: Could not open browser: " ++ reason ++ "\n" ++
                        announce format false place }

/-- Deliver to the file at a path, or to the output of the run if the path is empty. -/
def run (tree : FileTree) (browser : String → Except String Unit) (path format : String)
    (noOpen : Bool) (written : Written) : Delivery :=
  if path.isEmpty then
    { tree, output := written.text,
      failure := written.failure.map (.codedBy .output "failed to write output") }
  else toFile tree browser path format noOpen written

end Delivery

end JarMetrics
