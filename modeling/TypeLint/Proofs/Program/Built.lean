import TypeLint.Proofs.Emission.Walks
import TypeLint.Proofs.Program.Formed

namespace TypeLint.Program

open Syntax Text

/-- The whole tree of a program. -/
def whole (p : TypeLint.Program) : Green := closed (lay p).1 (lay p).2

/-- The spot of the whole tree of a program. -/
def wholeSpot (p : TypeLint.Program) : Spot := ⟨0, 0, none, whole p⟩

/-- Building fails only at a type text whose contents cannot be cut out of its quotes. -/
theorem build_eq (fileName : String) (p : TypeLint.Program) :
    build fileName p =
      match (lay p).2.cutText with
      | some text => .error ⟨text⟩
      | none => .ok
        { file := .assemble fileName (whole p).text ((whole p).emit .start).2.tree
            (wholeSpot p).ref
          openLength := byteLength (whole p).text - byteLength (lineEnd (lay p).2)
          openNodes := ((whole p).emit .start).2.tree.size - 2
          labels := ((whole p).emit .start).2.labels } := by
  obtain ⟨href, htext, -⟩ := (whole p).emit_eq .start
  have hroot : ((whole p).emit .start).1 = (wholeSpot p).ref := by
    rw [href]
    rfl
  have hwritten : ((whole p).emit .start).2.text = (whole p).text := by
    rw [htext]
    exact String.empty_append
  rw [← hroot, ← hwritten]
  rfl

/-- What is known about a file that has been built. -/
structure Shown (p : TypeLint.Program) (file : SourceFile) : Prop where
  shows : file.tree.Shows (wholeSpot p)
  root : file.root = (wholeSpot p).ref
  text : file.text = (whole p).text
  assembled : file = .assemble file.fileName file.text file.tree file.root

theorem Shown.comments_eq {p : TypeLint.Program} {file : SourceFile} (h : Shown p file) :
    file.comments = SourceFile.collectComments file.text file.tree (wholeSpot p).ref := by
  have hcomments := congrArg SourceFile.comments h.assembled
  rwa [h.root] at hcomments

theorem shown_of_build {fileName : String} {p : TypeLint.Program} {b : Built}
    (h : build fileName p = .ok b) : Shown p b.file ∧ b.file.fileName = fileName := by
  rw [build_eq] at h
  split at h
  · cases h
  · cases h
    exact ⟨⟨Green.emit_shows _, rfl, rfl, rfl⟩, rfl⟩

/-- A program builds if the contents of its quoted type texts can be cut out. -/
theorem exists_build (fileName : String) {p : TypeLint.Program} (h : (lay p).2.cutText = none) :
    ∃ b, build fileName p = .ok b := by
  rw [build_eq, h]
  exact ⟨_, rfl⟩

/-- What is found out about the file by building it. -/
theorem of_build {fileName : String} {p : TypeLint.Program} {b : Built}
    (hb : build fileName p = .ok b) (P : Built → Prop) [DecidablePred P]
    (h : (build fileName p).toOption.all (fun b => decide (P b)) = true) : P b := by
  rw [hb] at h
  exact of_decide_eq_true h

/-- A program with statements, clauses, types and comments inside one another. -/
def excerpt : TypeLint.Program :=
  [.comment "// excerpt",
    .statement (.initialized .const "x" (some "'b'[] | null")
      (.commentAfter (.asType (.identifier "a") "string") "/* a */")),
    .statement (.switch (.call (.nonNull (.identifier "f")) true [.identifier "x"])
      [.caseOf (.number "1") [.comment "// one", .statement .breakOut], .comment "/* other */",
        .default []]),
    .statement (.forLoop (.binary (.identifier "x") .barBarToken (.keyword .thisKeyword))
      (.block [.statement (.returned (.arrow ["y"] (.property (.identifier "y") true "z")))]))]

theorem excerpt_disciplined : Disciplined excerpt := by decide

theorem exists_build_excerpt : ∃ b, build "a.ts" excerpt = .ok b :=
  exists_build _ (by decide +kernel)

end TypeLint.Program
