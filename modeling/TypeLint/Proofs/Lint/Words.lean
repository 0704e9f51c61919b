import Mathlib.Data.Nat.Count
import TypeLint.Proofs.Lint.Sources
import TypeLint.Proofs.Syntax.Acyclic
import TypeLint.Proofs.Text.CommentTables
import TypeLint.Proofs.Text.Edits
import TypeLint.Proofs.Text.Lines
import TypeLint.Proofs.Types.Growth

namespace TypeLint

open Syntax Text

/-- Keeping 32 bits of the number keeps all of it. -/
def IsWord (n : Nat) : Prop := n % 2 ^ 32 = n

theorem isWord_iff {n : Nat} : IsWord n ↔ n < 2 ^ 32 := Nat.mod_eq_iff_lt (by norm_num)

theorem IsWord.of_le {m n : Nat} (hn : IsWord n) (h : m ≤ n) : IsWord m :=
  isWord_iff.mpr (h.trans_lt (isWord_iff.mp hn))

namespace Text.LineMap

theorem start_le {text : String} {start : Nat} (h : start ∈ (ofText text).starts) :
    start ≤ byteLength text := by
  rw [starts_ofText, List.mem_cons, mem_lineStops_iff, length_bytes] at h
  rcases h with rfl | ⟨hle, -⟩
  · exact Nat.zero_le _
  · exact hle

/-- No text has more lines behind its first one than bytes, and no line is longer than the text. -/
theorem position_le (text : String) (offset : Nat) :
    ((ofText text).position offset).line ≤ byteLength text ∧
      ((ofText text).position offset).column ≤ byteLength text := by
  suffices hinside : ∀ offset ≤ byteLength text,
      ((ofText text).position offset).line ≤ offset ∧
        ((ofText text).position offset).column ≤ offset by
    rcases Nat.le_total offset (byteLength text) with hle | hle
    · exact (hinside offset hle).imp (Nat.le_trans · hle) (Nat.le_trans · hle)
    · rw [position_of_byteLength_le text hle]
      exact hinside _ (le_refl _)
  intro offset hoffset
  obtain ⟨start, -, -, hcolumn⟩ := exists_start text hoffset
  have hfirst : ¬ endsLine (bytes text) 0 = true := Bool.false_ne_true
  refine ⟨?_, hcolumn ▸ Nat.sub_le offset start⟩
  rw [line_position text hoffset, Nat.count_succ', if_neg hfirst, Nat.add_zero]
  exact Nat.count_le _

end Text.LineMap

namespace Syntax

theorem Tree.isWord_of_get? {t : Tree} (hsize : IsWord t.size) {i : Nat} {n : Node}
    (hn : t.get? (some i) = some n) : IsWord i := by
  obtain ⟨j, hj, hlt⟩ := exists_of_get? hn
  exact hsize.of_le (Option.some.inj hj ▸ hlt.le)

namespace SourceFile

variable {fileName text : String} {t : Tree} {root : NodeRef} {f : SourceFile}

theorem eq_assemble_of_ofTree (h : ofTree fileName text t root = .ok f) :
    f = assemble fileName text t root := by
  rw [ofTree] at h
  split_ifs at h
  split at h
  · cases h
  · exact (Except.ok.inj h).symm

/-- The comments of an accepted file lie in its text. -/
theorem comment_bounds_of_ofTree (h : ofTree fileName text t root = .ok f) {c : Comment}
    (hc : c ∈ f.comments) : c.pos < c.stop ∧ c.stop ≤ byteLength text := by
  rw [eq_assemble_of_ofTree h, assemble, collectComments, List.mem_toArray,
    List.mem_flatMap] at hc
  obtain ⟨token, -, hc⟩ := hc
  rw [triviaComments] at hc
  split at hc
  · next n hn =>
    obtain ⟨⟨-, hstart, hstop⟩, -⟩ := accepted_of_ofTree h hn
    split_ifs at hc with hgap
    · obtain ⟨-, hnonempty, hend⟩ := Comment.scanGap_bounds hgap.le hc
      exact ⟨hnonempty, hend.trans (hstart.trans hstop)⟩
    · cases hc
  · cases hc

/-- In an accepted file whose length fits into 32 bits no offset, no line and no column loses
    anything when 32 bits of it are kept. -/
theorem isWord_of_ofTree (h : ofTree fileName text t root = .ok f)
    (hlength : IsWord (byteLength text)) :
    (∀ r n, f.tree.get? r = some n → IsWord n.pos ∧ IsWord n.start ∧ IsWord n.stop) ∧
    (∀ c ∈ f.comments, IsWord c.pos ∧ IsWord c.stop) ∧
    (∀ start ∈ f.lineMap.starts, IsWord start) ∧
    ∀ offset, IsWord (f.lineMap.position offset).line ∧
      IsWord (f.lineMap.position offset).column := by
  have hassembled := eq_assemble_of_ofTree h
  refine ⟨fun r n hn => ?_, fun c hc => ?_, fun start hstart => ?_, fun offset => ?_⟩
  · rw [hassembled] at hn
    obtain ⟨⟨hpos, hstart, hstop⟩, -⟩ := accepted_of_ofTree h hn
    exact ⟨hlength.of_le (by omega), hlength.of_le (by omega), hlength.of_le hstop⟩
  · obtain ⟨hnonempty, hstop⟩ := comment_bounds_of_ofTree h hc
    exact ⟨hlength.of_le (by omega), hlength.of_le hstop⟩
  · rw [hassembled] at hstart
    exact hlength.of_le (LineMap.start_le hstart)
  · obtain ⟨hline, hcolumn⟩ := LineMap.position_le text offset
    rw [hassembled]
    exact ⟨hlength.of_le hline, hlength.of_le hcolumn⟩

end SourceFile

end Syntax

/-- A store with room for another type gives numbers of 32 bits. -/
theorem Types.Store.isWord_intern {s : Store} (hsize : IsWord s.size) (data : TypeData) :
    IsWord (s.intern data).1 := by
  rw [intern]
  split
  · next id hid => exact hsize.of_le (known_of_lookup ((s.inverse data id).mp hid)).le
  · exact hsize

/-- The offsets of what linting finds lose nothing either, whatever the rules and the file are. -/
theorem Linter.isWord_of_lint {l : Linter} {file : SourceFile} {oracle oracle' : Option Oracle}
    {found : List Diagnostic} (hlint : l.lint file oracle = .ok (.ok (found, oracle')))
    (hlength : IsWord (byteLength file.text)) {d : Diagnostic} (hd : d ∈ found) :
    IsWord d.start ∧ IsWord d.stop ∧
      ∀ fix ∈ d.fixes, ∀ e ∈ fix.edits, IsWord e.start ∧ IsWord e.stop := by
  have hgives {check : Check (List Report)} :
      check.Gives file fun reports => ∀ report ∈ reports, True := fun _ _ _ _ _ => trivial
  obtain ⟨rule, -, report, -, rfl, hfits⟩ := exists_finding (P := fun _ => True)
    ⟨fun _ _ => hgives, fun _ _ _ _ _ _ => hgives⟩ hlint hd
  obtain ⟨⟨hstart, hstop⟩, hvalid⟩ := Diagnostic.fits_iff.mp hfits
  refine ⟨hlength.of_le (hstart.trans hstop), hlength.of_le hstop, fun fix hfix e he => ?_⟩
  obtain ⟨hplaced, -⟩ := (fix.validate_eq_ok_iff _).mp (hvalid fix hfix)
  obtain ⟨hle, hinside⟩ := hplaced e he
  exact ⟨hlength.of_le (hle.trans hinside), hlength.of_le hinside⟩

end TypeLint
