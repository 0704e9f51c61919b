import TypeLint.Program.Layout

namespace TypeLint.Program

open Syntax Text

/-- The contents of a quoted type text cannot be cut out of its quotes by bytes. -/
structure CutTextError where
  text : String
  deriving DecidableEq, Repr

/-- A file built from a program. -/
structure Built where
  file : SourceFile
  /-- The length of the text before the file was closed. -/
  openLength : Nat
  /-- The number of nodes before the file was closed. -/
  openNodes : Nat
  /-- The labelled nodes, later ones first. -/
  labels : List (String × NodeRef)

/-- The layout of the statements of a program, and where it left off. -/
def lay (p : Program) : List Green × Layout := (Item.writeList p).run .start

/-- What has to be written to end the last line. -/
def lineEnd (l : Layout) : String :=
  if l.last.isNone || l.last == some '\n' then "" else "\n"

/-- The whole tree of a program that has been laid out. -/
def closed (statements : List Green) (l : Layout) : Green :=
  let eof := Green.token (l.pending ++ lineEnd l) .endOfFileToken "" .empty []
  branch .sourceFile (.block (places 0 statements.length)) (statements ++ [eof])

/-- The file of a program. -/
def build (fileName : String) (p : Program) : Except CutTextError Built :=
  let (statements, layout) := lay p
  match layout.cutText with
  | some text => .error ⟨text⟩
  | none =>
    let (root, e) := (closed statements layout).emit .start
    .ok
      { file := .assemble fileName e.text e.tree root
        openLength := byteLength e.text - byteLength (lineEnd layout)
        openNodes := e.tree.size - 2
        labels := e.labels }

end TypeLint.Program
