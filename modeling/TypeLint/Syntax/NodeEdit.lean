import TypeLint.Edit
import TypeLint.Syntax.SourceFile

namespace TypeLint.Syntax.SourceFile

/-- Where a node begins and ends, without the trivia in front of it. -/
def range (f : SourceFile) (r : NodeRef) : Nat × Nat :=
  match f.tree.get? r with
  | some n => (n.start, n.stop)
  | none => (0, 0)

/-- Puts a text in the place of a range of bytes. -/
def replaceRange (f : SourceFile) (start stop : Nat) (text : String) : TextEdit :=
  ⟨f.fileName, start, stop, text⟩

/-- Takes out a range of bytes. -/
def removeRange (f : SourceFile) (start stop : Nat) : TextEdit := f.replaceRange start stop ""

/-- Puts a text in the place of a node. -/
def replace (f : SourceFile) (r : NodeRef) (text : String) : TextEdit :=
  f.replaceRange (f.range r).1 (f.range r).2 text

/-- Takes out a node. -/
def remove (f : SourceFile) (r : NodeRef) : TextEdit := f.replace r ""

/-- Puts a text in front of a node. -/
def insertBefore (f : SourceFile) (r : NodeRef) (text : String) : TextEdit :=
  f.replaceRange (f.range r).1 (f.range r).1 text

/-- Puts a text behind a node. -/
def insertAfter (f : SourceFile) (r : NodeRef) (text : String) : TextEdit :=
  f.replaceRange (f.range r).2 (f.range r).2 text

end TypeLint.Syntax.SourceFile
