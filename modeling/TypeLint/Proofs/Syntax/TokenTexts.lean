import Mathlib
import TypeLint.Syntax.SourceFile

namespace TypeLint.Syntax.SourceFile

variable {f : SourceFile} {a b : NodeRef} {ls rs : List NodeRef}

/-- The kind and the text of a token. -/
def tokenText (f : SourceFile) (token : NodeRef) : Option Kind × String :=
  (f.tree.kind? token, f.nodeText token)

/-- The kinds and texts of the tokens of a subtree. -/
def tokenTexts (f : SourceFile) (r : NodeRef) : List (Option Kind × String) :=
  (f.tree.tokens r).map f.tokenText

theorem tokensMatch_iff : f.tokensMatch ls rs = true ↔ ls.map f.tokenText = rs.map f.tokenText := by
  induction ls generalizing rs with
  | nil => cases rs <;> simp [tokensMatch]
  | cons left ls ih =>
    cases rs with
    | nil => simp [tokensMatch]
    | cons right rs =>
      have hdiffers : (f.tree.kind? left != f.tree.kind? right ||
          f.nodeText left != f.nodeText right) = true ↔ f.tokenText left ≠ f.tokenText right := by
        simp only [Bool.or_eq_true, bne_iff_ne, tokenText, ne_eq, Prod.mk.injEq, not_and_or]
      rw [tokensMatch, List.map_cons, List.map_cons, List.cons.injEq]
      by_cases htext : f.tokenText left = f.tokenText right
      · rw [if_neg (mt hdiffers.mp (not_not.mpr htext)), ih, and_iff_right htext]
      · rw [if_pos (hdiffers.mpr htext)]
        exact iff_of_false Bool.false_ne_true fun h => htext h.1

/-- Two subtrees are equal if they have the same sequence of tokens. -/
theorem tokensEqual_iff : f.tokensEqual a b = true ↔ f.tokenTexts a = f.tokenTexts b :=
  tokensMatch_iff

theorem tokensEqual_equivalence (f : SourceFile) :
    Equivalence fun a b => f.tokensEqual a b = true where
  refl _ := tokensEqual_iff.mpr rfl
  symm h := tokensEqual_iff.mpr (tokensEqual_iff.mp h).symm
  trans h h' := tokensEqual_iff.mpr ((tokensEqual_iff.mp h).trans (tokensEqual_iff.mp h'))

end TypeLint.Syntax.SourceFile
