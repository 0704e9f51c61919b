import TypeLint.Proofs.Program.CommentOrder
import TypeLint.Proofs.Rules.SettledComments

namespace TypeLint.Rules.SuppressionComment

open Syntax Text Program Check

/-- The comments of a list that are looked at for the first time, when comments with some starts
    have been looked at. -/
def fresh : List Nat → List Comment → List Comment
  | _, [] => []
  | seen, c :: rest =>
    if seen.contains c.pos then fresh seen rest else c :: fresh (c.pos :: seen) rest

/-- The starts of the comments that have been looked at after those of a list. -/
def seenAfter (seen : List Nat) (comments : List Comment) : List Nat :=
  ((fresh seen comments).map Comment.pos).reverse ++ seen

theorem fresh_cons_of_mem {seen : List Nat} {c : Comment} (h : c.pos ∈ seen)
    (rest : List Comment) : fresh seen (c :: rest) = fresh seen rest := by
  rw [fresh, if_pos (List.contains_iff_mem.mpr h)]

theorem fresh_cons_of_not_mem {seen : List Nat} {c : Comment} (h : c.pos ∉ seen)
    (rest : List Comment) : fresh seen (c :: rest) = c :: fresh (c.pos :: seen) rest := by
  rw [fresh, if_neg (mt List.contains_iff_mem.mp h)]

theorem seenAfter_cons_of_mem {seen : List Nat} {c : Comment} (h : c.pos ∈ seen)
    (rest : List Comment) : seenAfter seen (c :: rest) = seenAfter seen rest := by
  rw [seenAfter, fresh_cons_of_mem h, seenAfter]

theorem seenAfter_cons_of_not_mem {seen : List Nat} {c : Comment} (h : c.pos ∉ seen)
    (rest : List Comment) : seenAfter seen (c :: rest) = seenAfter (c.pos :: seen) rest := by
  rw [seenAfter, fresh_cons_of_not_mem h, seenAfter, List.map_cons, List.reverse_cons,
    List.append_assoc, List.singleton_append]

theorem fresh_append (seen : List Nat) (cs ds : List Comment) :
    fresh seen (cs ++ ds) = fresh seen cs ++ fresh (seenAfter seen cs) ds := by
  induction cs generalizing seen with
  | nil => rfl
  | cons c rest ih =>
    by_cases h : c.pos ∈ seen
    · rw [List.cons_append, fresh_cons_of_mem h, fresh_cons_of_mem h, seenAfter_cons_of_mem h, ih]
    · rw [List.cons_append, fresh_cons_of_not_mem h, fresh_cons_of_not_mem h,
        seenAfter_cons_of_not_mem h, ih, List.cons_append]

theorem mem_of_mem_fresh {seen : List Nat} {comments : List Comment} {c : Comment}
    (hc : c ∈ fresh seen comments) : c ∈ comments ∧ c.pos ∉ seen := by
  induction comments generalizing seen with
  | nil => cases hc
  | cons head rest ih =>
    by_cases h : head.pos ∈ seen
    · rw [fresh_cons_of_mem h] at hc
      exact (ih hc).imp_left (List.mem_cons_of_mem _)
    · rw [fresh_cons_of_not_mem h] at hc
      rcases List.mem_cons.mp hc with rfl | hc
      · exact ⟨List.mem_cons_self .., h⟩
      · exact (ih hc).imp (List.mem_cons_of_mem _) (mt (List.mem_cons_of_mem _))

theorem fresh_nodup (seen : List Nat) (comments : List Comment) :
    (fresh seen comments).Nodup := by
  induction comments generalizing seen with
  | nil => exact .nil
  | cons head rest ih =>
    by_cases h : head.pos ∈ seen
    · rw [fresh_cons_of_mem h]
      exact ih seen
    · rw [fresh_cons_of_not_mem h]
      exact List.nodup_cons.mpr ⟨fun hmem => (mem_of_mem_fresh hmem).2 (List.mem_cons_self ..), ih _⟩

/-- Where comments differ in their starts, each is looked at for the first time once. -/
theorem mem_fresh {seen : List Nat} {comments : List Comment} {c : Comment} (hc : c ∈ comments)
    (hseen : c.pos ∉ seen) (hinj : ∀ d ∈ comments, d.pos = c.pos → d = c) :
    c ∈ fresh seen comments := by
  induction comments generalizing seen with
  | nil => cases hc
  | cons head rest ih =>
    have hrest : ∀ d ∈ rest, d.pos = c.pos → d = c := fun d hd =>
      hinj d (List.mem_cons_of_mem _ hd)
    by_cases h : head.pos ∈ seen
    · rw [fresh_cons_of_mem h]
      rcases List.mem_cons.mp hc with rfl | hc
      · exact absurd h hseen
      · exact ih hc hseen hrest
    · rw [fresh_cons_of_not_mem h]
      by_cases heq : head = c
      · exact heq ▸ List.mem_cons_self ..
      · have hne : head.pos ≠ c.pos := fun hpos => heq (hinj head (List.mem_cons_self ..) hpos)
        refine List.mem_cons_of_mem _ (ih ((List.mem_cons.mp hc).resolve_left (Ne.symm heq)) ?_ hrest)
        exact List.not_mem_cons_of_ne_of_not_mem hne.symm hseen

/-- The diagnostic for a comment with a body. -/
def finding (f : SourceFile) (category : Category) (c : Comment) (body : String) : Diagnostic :=
  info.diagnostic f.fileName category (report f c body)

/-- The comments of a list that ignore errors. -/
def ignoring (f : SourceFile) (comments : List Comment) : List Comment :=
  comments.filter fun c => isIgnoreComment c f.text = .ok true

section

variable {f : SourceFile} {category : Category} {oracle : Option Oracle} {body : Comment → String}

theorem ignoring_append (cs ds : List Comment) :
    ignoring f (cs ++ ds) = ignoring f cs ++ ignoring f ds := List.filter_append cs ds

theorem reports_eq {c : Comment} (h : c.body f.text = .ok (body c)) :
    reports f c = .ok ((ignoring f [c]).map fun c => report f c (body c)) := by
  have hignore : isIgnoreComment c f.text = .ok (isIgnoring c (body c)) := by
    rw [isIgnoreComment, h]
    rfl
  rw [reports, h, ignoring, List.filter_singleton, hignore]
  change Except.ok _ = _
  cases isIgnoring c (body c) <;> rfl

variable (f oracle) in
theorem run_firstSight (seen : List Nat) (offset : Nat) :
    (firstSight offset).run f ⟨oracle, seen⟩ =
      if offset ∈ seen then (.ok false, ⟨oracle, seen⟩)
      else (.ok true, ⟨oracle, offset :: seen⟩) := by
  simp only [run, firstSight, List.contains_iff_mem]

/-- A check of comments reports those that are looked at for the first time and ignore errors. -/
theorem run_checkComments (seen : List Nat) {comments : List Comment}
    (hbody : ∀ c ∈ comments, c.body f.text = .ok (body c)) :
    (checkComments f comments).run f ⟨oracle, seen⟩ =
      (.ok ((ignoring f (fresh seen comments)).map fun c => report f c (body c)),
        ⟨oracle, seenAfter seen comments⟩) := by
  induction comments generalizing seen with
  | nil => rfl
  | cons c rest ih =>
    obtain ⟨hc, hrest⟩ := List.forall_mem_cons.mp hbody
    have hsight := run_firstSight f oracle seen c.pos
    by_cases h : c.pos ∈ seen
    · rw [if_pos h] at hsight
      rw [checkComments, run_bind_of_ok hsight]
      dsimp only
      rw [if_neg Bool.false_ne_true]
      change (checkComments f rest >>= _).run f _ = _
      rw [run_bind_of_ok (ih seen hrest), fresh_cons_of_mem h, seenAfter_cons_of_mem h]
      rfl
    · rw [if_neg h] at hsight
      rw [checkComments, run_bind_of_ok hsight]
      dsimp only
      rw [if_pos rfl, reports_eq hc]
      change (checkComments f rest >>= _).run f _ = _
      rw [run_bind_of_ok (ih (c.pos :: seen) hrest), fresh_cons_of_not_mem h,
        seenAfter_cons_of_not_mem h,
        ← List.singleton_append (l := fresh (c.pos :: seen) rest), ignoring_append, List.map_append]
      rfl

/-- The rule at work, when comments with some starts have been looked at. -/
def visitor (category : Category) (seen : List Nat) : Visitor := ⟨⟨rule, category⟩, seen⟩

/-- The diagnostics for comments that are looked at for the first time and ignore errors. -/
def findings (f : SourceFile) (category : Category) (body : Comment → String)
    (comments : List Comment) : List Diagnostic :=
  ((ignoring f comments).map fun c => finding f category c (body c)).filter
    fun d => d.fits (byteLength f.text)

theorem findings_append (cs ds : List Comment) :
    findings f category body (cs ++ ds) =
      findings f category body cs ++ findings f category body ds := by
  rw [findings, ignoring_append, List.map_append, List.filter_append, findings, findings]

section

variable (hbody : ∀ c ∈ f.comments, c.body f.text = .ok (body c))

include hbody

theorem visit_eq (seen : List Nat) (r : NodeRef) :
    Visitor.visit f r [visitor category seen] oracle =
      .ok (findings f category body (fresh seen (f.leadingComments r)),
        [visitor category (seenAfter seen (f.leadingComments r))], oracle) := by
  rw [Visitor.visit]
  cases hkind : f.tree.kind? r with
  | none =>
    have hnode : f.tree.get? r = none := Option.map_eq_none_iff.mp hkind
    have hcomments : f.leadingComments r = [] := by rw [SourceFile.leadingComments, hnode]
    rw [hcomments]
    rfl
  | some kind =>
    have hrun : (check r).run f ⟨oracle, seen⟩ = _ := run_checkComments seen fun c hc =>
      hbody c (Shown.mem_comments_of_mem_leadingComments hc)
    have hvisit : (visitor category seen).run (check r) f oracle =
        .ok (findings f category body (fresh seen (f.leadingComments r)),
          visitor category (seenAfter seen (f.leadingComments r)), oracle) := by
      simp only [Visitor.run, visitor, hrun, ConfiguredRule.findings, findings, List.map_map]
      rfl
    have hkinds : Visitor.runAll (·.kindCalls kind) (·.check r) f [visitor category seen] oracle =
        .ok ([], [visitor category seen], oracle) := rfl
    have hnodes : Visitor.runAll Visitor.nodeCalls (·.check r) f [visitor category seen] oracle =
        .ok (findings f category body (fresh seen (f.leadingComments r)),
          [visitor category (seenAfter seen (f.leadingComments r))], oracle) := by
      rw [Visitor.runAll]
      change ((visitor category seen).run (check r) f oracle >>= _) >>= _ = _
      rw [hvisit]
      change Except.ok ((_ ++ []) ++ [], _, _) = _
      rw [List.append_nil, List.append_nil]
    exact Visitor.andThen_of_eq_ok hkinds hnodes

variable (category oracle) in
/-- A walk reports the comments that are leading comments of its nodes, each at its first sight. -/
theorem walk_eq (seen : List Nat) (refs : List NodeRef) :
    ∃ vs, Visitor.walk f refs [visitor category seen] oracle =
      .ok (findings f category body (fresh seen (refs.flatMap f.leadingComments)), vs, oracle) := by
  induction refs generalizing seen with
  | nil => exact ⟨_, rfl⟩
  | cons r rest ih =>
    obtain ⟨vs, hrest⟩ := ih (seenAfter seen (f.leadingComments r))
    refine ⟨vs, ?_⟩
    rw [List.flatMap_cons, fresh_append, findings_append]
    exact Visitor.andThen_of_eq_ok (visit_eq hbody seen r) hrest

variable (category oracle) in
theorem lookAt_eq : ∃ vs, Visitor.lookAt f (Linter.visitors ⟨[⟨rule, category⟩]⟩) oracle =
    .ok (findings f category body
      (fresh [] ((f.tree.preorder f.root).flatMap f.leadingComments)), vs, oracle) := by
  obtain ⟨vs, hwalk⟩ := walk_eq category oracle hbody [] (f.tree.preorder f.root)
  have hfile : Visitor.runAll (fun _ => 1) Rule.checkFile f [visitor category []] oracle =
      .ok ([], [visitor category []], oracle) := rfl
  exact ⟨vs, Visitor.andThen_of_eq_ok hfile hwalk⟩

end

end

theorem fits_finding {p : TypeLint.Program} {f : SourceFile} (hf : Shown p f) (category : Category)
    {c : Comment} (hc : c ∈ f.comments) (body : String) :
    (finding f category c body).fits (byteLength f.text) = true := by
  have hrange : c.pos < c.stop :=
    hf.comments_ordered.nonempty c (Array.mem_toList_iff.mpr hc)
  have hstop := hf.comment_stop_le hc
  have hvalid : (Fix.mk "Replace \"@ts-ignore\" with \"@ts-expect-error\""
      [f.replaceRange c.pos c.stop (corrected c body)]).validate (byteLength f.text) = .ok () := by
    simp only [Fix.validate, Fix.misplaced?, SourceFile.replaceRange, TextEdit.range, List.map_cons,
      List.map_nil, List.find?_cons, List.find?_nil, List.mergeSort_singleton, Fix.overlap?]
    rw [decide_eq_false (by omega : ¬c.pos > c.stop),
      decide_eq_false (by omega : ¬c.stop > byteLength f.text)]
    rfl
  exact Diagnostic.fits_iff.mpr ⟨⟨hrange.le, hstop⟩, List.forall_mem_singleton.mpr hvalid⟩

/-- The comments of a built file that the walk looks at for the first time are all of them. -/
theorem fresh_perm_comments {p : TypeLint.Program} {f : SourceFile} (hf : Shown p f) :
    (fresh [] ((f.tree.preorder f.root).flatMap f.leadingComments)).Perm f.comments.toList := by
  have hordered := hf.comments_ordered
  have hmem {c : Comment} (hc : c ∈ (f.tree.preorder f.root).flatMap f.leadingComments) :
      c ∈ f.comments := by
    obtain ⟨r, -, hc⟩ := List.mem_flatMap.mp hc
    exact Shown.mem_comments_of_mem_leadingComments hc
  refine (List.perm_ext_iff_of_nodup (fresh_nodup _ _) hordered.nodup).mpr fun c => ?_
  constructor
  · exact fun hc => Array.mem_toList_iff.mpr (hmem (mem_of_mem_fresh hc).1)
  · intro hc
    obtain ⟨r, hr, hleading⟩ := hf.exists_leadingComments (Array.mem_toList_iff.mp hc)
    refine mem_fresh (List.mem_flatMap.mpr ⟨r, hr, hleading⟩) List.not_mem_nil fun d hd => ?_
    exact hordered.eq_of_pos_eq (Array.mem_toList_iff.mpr (hmem hd)) hc

/-- Sorting by the starts gives the only order in which they increase. -/
theorem mergeSort_eq_of_perm {found ordered : List Diagnostic} (hperm : found.Perm ordered)
    (hordered : ordered.Pairwise fun d e => d.start < e.start) :
    (found.mergeSort fun d e => d.start ≤ e.start) = ordered := by
  have hsorted : (found.mergeSort fun d e => d.start ≤ e.start).Pairwise
      fun d e => d.start ≤ e.start :=
    (List.pairwise_mergeSort (by simp; omega) (by simp; omega) found).imp of_decide_eq_true
  have hall := (List.mergeSort_perm found fun d e => d.start ≤ e.start).trans hperm
  refine hall.eq_of_pairwise (fun d e hd he hde hed => ?_) hsorted (hordered.imp Nat.le_of_lt)
  by_contra hne
  let apart (d e : Diagnostic) : Prop := d.start ≠ e.start
  have hsymm : Std.Symm apart := ⟨fun _ _ => Ne.symm⟩
  have hapart : ordered.Pairwise apart := hordered.imp Nat.ne_of_lt
  exact hapart.forall (hall.mem_iff.mp hd) he hne (le_antisymm hde hed)

theorem findings_comments {p : TypeLint.Program} {f : SourceFile} (hf : Shown p f)
    (category : Category) (body : Comment → String) :
    findings f category body f.comments.toList =
      (ignoring f f.comments.toList).map fun c => finding f category c (body c) := by
  refine List.filter_eq_self.mpr fun d hd => ?_
  obtain ⟨c, hc, rfl⟩ := List.mem_map.mp hd
  exact fits_finding hf category (Array.mem_toList_iff.mp (List.mem_of_mem_filter hc)) _

/-- Alone, the rule finds in a built file exactly the comments that ignore errors, each once with
    its own range, in the order of the text. -/
theorem lint_comments_once {fileName : String} {p : TypeLint.Program} {b : Built}
    (hb : build fileName p = .ok b) (category : Category) (oracle : Option Oracle) :
    ∃ (body : Comment → String) (found : List Diagnostic),
      (∀ c ∈ b.file.comments, c.body b.file.text = .ok (body c)) ∧
      Linter.lint ⟨[⟨rule, category⟩]⟩ b.file oracle = .ok (.ok (found, oracle)) ∧
      found = (ignoring b.file b.file.comments.toList).map
        (fun c => finding b.file category c (body c)) ∧
      (found.map fun d => (d.start, d.stop)) =
        (ignoring b.file b.file.comments.toList).map (fun c => (c.pos, c.stop)) ∧
      found.Pairwise fun d e => d.start < d.stop ∧ d.stop ≤ e.start := by
  have hf := (shown_of_build hb).1
  have hordered := hf.comments_ordered
  obtain ⟨body, hbody⟩ : ∃ body : Comment → String,
      ∀ c ∈ b.file.comments, c.body b.file.text = .ok (body c) := by
    have hbodies (c : Comment) : ∃ body, c ∈ b.file.comments → c.body b.file.text = .ok body := by
      by_cases hc : c ∈ b.file.comments
      · obtain ⟨body, hbody⟩ := Comment.exists_body (hf.isBoundary_comment hc).1
          (hf.isBoundary_comment hc).2
        exact ⟨body, fun _ => hbody⟩
      · exact ⟨"", fun hmem => absurd hmem hc⟩
    choose body hbody using hbodies
    exact ⟨body, hbody⟩
  have hapart : ((ignoring b.file b.file.comments.toList).map
      fun c => finding b.file category c (body c)).Pairwise
      fun d e => d.start < d.stop ∧ d.stop ≤ e.start :=
    List.pairwise_map.mpr ((hordered.apart.filter _).imp_of_mem fun {c d} hc _ hcd =>
      ⟨hordered.nonempty c (List.mem_of_mem_filter hc), hcd⟩)
  have hperm : (findings b.file category body (fresh []
      ((b.file.tree.preorder b.file.root).flatMap b.file.leadingComments))).Perm
      (findings b.file category body b.file.comments.toList) :=
    (((fresh_perm_comments hf).filter _).map _).filter _
  rw [findings_comments hf] at hperm
  obtain ⟨vs, hall⟩ := lookAt_eq category oracle hbody
  refine ⟨body, _, hbody, ?_, rfl, ?_, hapart⟩
  · rw [Linter.lint_of_lookAt (.inr rfl) hall,
      mergeSort_eq_of_perm hperm (hapart.imp fun h => h.1.trans_le h.2)]
  · rw [List.map_map]
    rfl

/-- A file with comments in front of statements, expressions and clauses and at its end. -/
def suppressed : TypeLint.Program :=
  [.comment "// @ts-ignore",
    .statement (.expression (.commentBefore "/* @ts-ignore */"
      (.call (.identifier "f") false [.commentBefore "/* other */" (.identifier "x")]))),
    .statement (.switch (.identifier "x")
      [.comment "// @ts-ignore", .caseOf (.number "1") [.statement .breakOut]]),
    .comment "// @ts-ignore"]

theorem lint_comments_once_nested :
    ∃ b found, build "a.ts" suppressed = .ok b ∧
      Linter.lint ⟨[⟨rule, .warning⟩]⟩ b.file none = .ok (.ok (found, none)) ∧
      (found.map fun d => (d.start, d.stop)) = [(0, 13), (15, 31), (66, 79), (109, 122)] ∧
      b.file.comments.size = 5 := by
  obtain ⟨b, hb⟩ : ∃ b, build "a.ts" suppressed = .ok b := exists_build _ (by decide +kernel)
  obtain ⟨body, found, -, hlint, -, hranges, -⟩ := lint_comments_once hb .warning none
  have hcomments := (shown_of_build hb).1.toList_comments
  have hsize : b.file.comments.size = 5 := by
    rw [← Array.length_toList, hcomments]
    decide +kernel
  rw [hcomments] at hranges
  have hignoring := of_build hb
    (fun b => (ignoring b.file ((wholeSpot suppressed).tokens.flatMap fun x =>
      Comment.scan .gap x.offset (bytes x.green.lead))).map (fun c => (c.pos, c.stop)) =
        [(0, 13), (15, 31), (66, 79), (109, 122)])
    (by decide +kernel)
  exact ⟨b, found, hb, hlint, hranges.trans hignoring, hsize⟩

end TypeLint.Rules.SuppressionComment
