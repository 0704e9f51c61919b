import TypeLint.Edit
import TypeLint.Json.Basic

namespace TypeLint

/-- How serious a finding is. -/
inductive Category where
  | warning
  | error
  deriving DecidableEq, Repr, Inhabited

/-- The published name of a category. -/
def Category.name : Category → String
  | .warning => "warning"
  | .error => "error"

/-- A finding in a file. -/
structure Diagnostic where
  file : String
  /-- The rule that made the finding. -/
  rule : String
  /-- Which of the rule's messages it is. -/
  messageId : String
  category : Category
  messageText : String
  start : Nat
  stop : Nat
  fixes : List Fix
  deriving DecidableEq, Repr, Inhabited

/-- An edit as JSON. -/
def TextEdit.toJson (e : TextEdit) : Json :=
  .object [("file", .string e.file), ("start", .number (.natural e.start)),
    ("end", .number (.natural e.stop)), ("newText", .string e.newText)]

/-- A fix as JSON. -/
def Fix.toJson (f : Fix) : Json :=
  .object [("description", .string f.description), ("edits", .array (f.edits.map TextEdit.toJson))]

namespace Diagnostic

/-- The number of bytes that the finding covers. -/
def length (d : Diagnostic) : Nat := d.stop - d.start

/-- One fix with the edits of the first fix of every finding. -/
def mergedFix (found : List Diagnostic) : Fix :=
  ⟨"", found.flatMap fun d => (d.fixes.head?.map Fix.edits).getD []⟩

/-- The finding as JSON; fixes are left out when there are none. -/
def toJson (d : Diagnostic) : Json :=
  .object <|
    [("file", .string d.file), ("rule", .string d.rule), ("messageId", .string d.messageId),
     ("category", .string d.category.name), ("messageText", .string d.messageText),
     ("start", .number (.natural d.start)), ("end", .number (.natural d.stop))] ++
    if d.fixes.isEmpty then [] else [("fixes", .array (d.fixes.map Fix.toJson))]

end Diagnostic

end TypeLint
