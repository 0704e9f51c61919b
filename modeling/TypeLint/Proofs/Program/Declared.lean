import TypeLint.Proofs.Program.Chains
import TypeLint.Proofs.Program.TypeSpelling

namespace TypeLint.Program

open Syntax Writer Text

variable {name typeText : String}

/-- The spots of a declared constant, its name and its type. -/
structure DeclaredParts (name typeText : String) (declaration ident annotation : Spot) : Prop where
  ident_mem : ident ∈ declaration.children
  annotation_mem : annotation ∈ declaration.children
  declared : declaration.node.variableDeclaration? =
    some ⟨ident.ref, false, annotation.ref, none⟩
  named : ident.node.identifier? = some name
  written : annotation.green = ((writeType typeText).run (annotationStart name)).1

/-- Below the tree of the declaration of a constant stand the declaration and its parts. -/
theorem exists_declaredParts {s : Spot} (hs : s.green = declarationTree name typeText) :
    ∃ declaration ident annotation, declaration ∈ s.all ∧
      DeclaredParts name typeText declaration ident annotation := by
  obtain ⟨first, offset, parent, green⟩ := s
  obtain rfl : green = declarationTree name typeText := hs
  let type := (writeType typeText).run (annotationStart name)
  let declarationGreen := branch .variableDeclaration
    (.variableDeclaration ⟨some 0, false, some 2, none⟩)
    [.token " " .identifier name (.identifier name) [], mark "" .colonToken, type.1]
  let s : Spot := ⟨first, offset, parent, declarationTree name typeText⟩
  let list : Spot := ⟨first + 1, offset + 7, s.ref, branch .variableDeclarationList
    (.variableList ⟨.const, [some 1]⟩) [mark " " .constKeyword, declarationGreen]⟩
  let declaration : Spot := ⟨first + 2, offset + 13, list.ref, declarationGreen⟩
  have hlist : list ∈ s.children := List.mem_cons_of_mem _ List.mem_cons_self
  have hdeclaration : declaration ∈ list.children := List.mem_cons_of_mem _ List.mem_cons_self
  exact ⟨declaration, _, _, Spot.children_subset_all (Spot.children_subset_all s.self_mem_all hlist)
      hdeclaration, List.mem_cons_self,
    List.mem_cons_of_mem _ (List.mem_cons_of_mem _ List.mem_cons_self), rfl, rfl, rfl⟩

/-- `declare const name: T;` -/
def declaredAs (name typeText : String) : TypeLint.Program :=
  [.statement (.declared .const name typeText)]

theorem lay_declaredAs (name typeText : String) :
    lay (declaredAs name typeText) = ([declarationTree name typeText],
      ((writeType typeText).run (annotationStart name)).2.behind ";") :=
  rfl

theorem exists_build_declaredAs (fileName name : String)
    (h : (TypeText.ofText typeText).cutText? = none) :
    ∃ b, build fileName (declaredAs name typeText) = .ok b := by
  refine exists_build fileName ?_
  rw [lay_declaredAs]
  change ((writeType typeText).run (annotationStart name)).2.cutText = none
  rw [(puts_writeType typeText _).cutText, h]
  rfl

theorem exists_declaredParts_whole (name typeText : String) :
    ∃ declaration ident annotation,
      declaration ∈ (wholeSpot (declaredAs name typeText)).all ∧
      DeclaredParts name typeText declaration ident annotation := by
  let root := wholeSpot (declaredAs name typeText)
  obtain ⟨payload, eof, hwhole⟩ : ∃ payload eof, whole (declaredAs name typeText) =
      branch .sourceFile payload [declarationTree name typeText, eof] := by
    rw [whole, lay_declaredAs]
    exact ⟨_, _, rfl⟩
  let statement : Spot := ⟨0, 0, root.ref, declarationTree name typeText⟩
  have hstatement : statement ∈ root.children := by
    rw [Spot.children_of_node hwhole]
    exact List.mem_cons_self
  obtain ⟨declaration, ident, annotation, hmem, hparts⟩ :=
    exists_declaredParts (show statement.green = declarationTree name typeText from rfl)
  refine ⟨declaration, ident, annotation, Spot.all_subset_all ?_ hmem, hparts⟩
  exact Spot.children_subset_all root.self_mem_all hstatement

theorem disciplined_declaredAs (name typeText : String) : Disciplined (declaredAs name typeText) :=
  rfl

end TypeLint.Program
