import TypeLint.Proofs.Rules.Removals
import TypeLint.Rules.ExtraNonNullAssertion

namespace TypeLint.Rules

open Syntax Program Text Green Binding

/-- The rules whose fixes take assertions and optional steps away. -/
def removalRules : List Rule :=
  [TypeAssertion.rule .default, NonNullAssertion.rule, ExtraNonNullAssertion.rule,
    OptionalChain.rule]

/-- A finding of a rule is about the node of this number: the rule looks at nodes of its kind, and
    what is reported is the assertion that it is or the `?.` in it. -/
structure IsAbout (f : SourceFile) (rule : Rule) (d : Diagnostic) (i : Nat) : Prop where
  kind : ∃ kinds kind, rule.subscription = .kinds kinds ∧ kind ∈ kinds ∧
    f.tree.kind? (some i) = some kind
  range : reportedRange? f (some i) = some (d.start, d.stop)

/-- The edits of all fixes of some findings, as one fix. -/
def allFixes (found : List Diagnostic) : Fix :=
  ⟨"", found.flatMap fun d => d.fixes.flatMap Fix.edits⟩

/-- A finding is about a spot, and its only edit takes away what is reported. -/
structure Removes (f : SourceFile) (rule : Rule) (d : Diagnostic) (x : Spot) : Prop where
  about : IsAbout f rule d x.number
  edits : ∃ e, d.fixes.map Fix.edits = [[e]] ∧ removal? f.fileName x.offset x.green = some e

section

variable {α β : Type} {R : α → β → Prop}

theorem exists_sublist_of_single {founds : List (List α)} {xs : List β}
    (h : List.Forall₂ (fun x found => found = [] ∨ ∃ d, found = [d] ∧ R d x) xs founds) :
    ∃ ys, ys.Sublist xs ∧ List.Forall₂ R founds.flatten ys := by
  induction h with
  | nil => exact ⟨[], .slnil, .nil⟩
  | @cons x found xs founds hfound _ ih =>
    obtain ⟨ys, hys, hforall⟩ := ih
    rcases hfound with rfl | ⟨d, rfl, hd⟩
    · exact ⟨ys, hys.cons x, hforall⟩
    · exact ⟨x :: ys, hys.cons_cons x, .cons hd hforall⟩

theorem exists_sublist_of_sublist {ds ds' : List α} {xs : List β} (hds : ds'.Sublist ds)
    (h : List.Forall₂ R ds xs) : ∃ ys, ys.Sublist xs ∧ List.Forall₂ R ds' ys := by
  induction hds generalizing xs with
  | slnil => exact ⟨[], List.nil_sublist xs, .nil⟩
  | cons d _ ih =>
    cases h with
    | cons _ hrest =>
      obtain ⟨ys, hys, hforall⟩ := ih hrest
      exact ⟨ys, hys.cons _, hforall⟩
  | cons_cons d _ ih =>
    cases h with
    | cons hd hrest =>
      obtain ⟨ys, hys, hforall⟩ := ih hrest
      exact ⟨_ :: ys, hys.cons_cons _, .cons hd hforall⟩

/-- Some of the things on the left side, in any order, are related to as many on the right. -/
theorem exists_of_subperm {ds S : List α} {xs : List β} (hS : S.Subperm ds)
    (h : List.Forall₂ R ds xs) : ∃ ys, ys.Subperm xs ∧ List.Forall₂ R S ys := by
  obtain ⟨S', hperm, hsublist⟩ := hS
  obtain ⟨ys, hys, hforall⟩ := exists_sublist_of_sublist hsublist h
  obtain ⟨zs, hzs, hzys⟩ := List.perm_comp_forall₂ hperm.symm hforall
  exact ⟨zs, ⟨ys, hzys.symm, hys⟩, hzs⟩

end

/-- What is known about a rule whose fixes take something away. -/
structure RemovalRule (p : TypeLint.Program) (f : SourceFile) (rule : Rule) (kinds : List Kind) :
    Prop where
  subscription : rule.subscription = .kinds kinds
  nodup : kinds.Nodup
  checkFile : rule.checkFile.Gives f (· = [])
  check : ∀ x ∈ (wholeSpot p).all, x.green.kind ∈ kinds →
    (rule.check x.ref).Gives f (ReportsRemoval f x)

section

variable {p : TypeLint.Program} {f : SourceFile} {rule : Rule} (hp : Disciplined p)
  (hplain : CommentFree p) (hf : Shown p f)

include hp hplain hf in
theorem removalRule_of_mem (hrule : rule ∈ removalRules) : ∃ kinds, RemovalRule p f rule kinds := by
  simp only [removalRules, List.mem_cons, List.not_mem_nil, or_false] at hrule
  rcases hrule with rfl | rfl | rfl | rfl
  · refine ⟨_, rfl, by decide, Check.gives_pure rfl, fun x hx hkind => ?_⟩
    simp only [List.mem_cons, List.not_mem_nil, or_false] at hkind
    exact typeAssertion_reports hp hplain hf hx _ hkind
  · refine ⟨_, rfl, by decide, Check.gives_pure rfl, fun x hx hkind => ?_⟩
    exact nonNullAssertion_reports hp hplain hf hx (List.mem_singleton.mp hkind)
  · refine ⟨_, rfl, by decide, Check.gives_pure rfl, fun x hx hkind => ?_⟩
    exact extraNonNullAssertion_reports hp hplain hf hx (List.mem_singleton.mp hkind)
  · refine ⟨_, rfl, by decide, Check.gives_pure rfl, fun x hx hkind => ?_⟩
    simp only [List.mem_cons, List.not_mem_nil, or_false] at hkind
    exact optionalChain_reports hp hplain hf hx hkind

/-- A diagnostic for what is reported at a spot removes it. -/
theorem removes_diagnostic {kinds : List Kind} (h : RemovalRule p f rule kinds) (hf : Shown p f)
    {x : Spot} (hx : x ∈ (wholeSpot p).all) (hkind : x.green.kind ∈ kinds) {report : Report}
    {e : TextEdit} (hfixes : report.fixes.map Fix.edits = [[e]])
    (he : removal? f.fileName x.offset x.green = some e)
    (hrange : reportedRange? f x.ref = some (report.start, report.stop)) (category : Category) :
    Removes f rule (rule.info.diagnostic f.fileName category report) x :=
  ⟨⟨⟨kinds, _, h.subscription, hkind, hf.shows.kind?_eq hx⟩, hrange⟩, e, hfixes, he⟩

/-- What a rule may report at a node. -/
def MayReport (p : TypeLint.Program) (f : SourceFile) (kinds : List Kind) (r : NodeRef)
    (reports : List Report) : Prop :=
  ∀ x ∈ (wholeSpot p).all, x.ref = r → x.green.kind ∈ kinds ∧ ReportsRemoval f x reports

/-- What a rule finds at a spot is nothing or one finding that removes something. -/
theorem finds_removal {kinds : List Kind} (h : RemovalRule p f rule kinds) (hf : Shown p f)
    {x : Spot} (hx : x ∈ (wholeSpot p).all) {category : Category} {found : List Diagnostic}
    (hfound : (ConfiguredRule.mk rule category).Finds f (MayReport p f kinds x.ref) found) :
    found = [] ∨ ∃ d, found = [d] ∧ Removes f rule d x := by
  rcases hfound with rfl | ⟨reports, hreports, rfl⟩
  · exact .inl rfl
  · obtain ⟨hkind, rfl | ⟨report, e, rfl, hfixes, he, hrange⟩⟩ := hreports x hx rfl
    · exact .inl rfl
    · rw [ConfiguredRule.findings, List.map_singleton, List.filter_singleton]
      cases Diagnostic.fits (rule.info.diagnostic f.fileName category report) (byteLength f.text) with
      | false => exact .inl rfl
      | true => exact .inr ⟨_, rfl, removes_diagnostic h hf hx hkind hfixes he hrange category⟩

/-- Every finding of a rule removes something at a spot, and no two at the same one. -/
theorem exists_removals {kinds : List Kind} (h : RemovalRule p f rule kinds) (hf : Shown p f)
    {category : Category} {oracle oracle' : Option Oracle} {found : List Diagnostic}
    (hlint : Linter.lint ⟨[⟨rule, category⟩]⟩ f oracle = .ok (.ok (found, oracle'))) :
    ∃ ds xs, found.Perm ds ∧ xs.Sublist (wholeSpot p).walk ∧ List.Forall₂ (Removes f rule) ds xs := by
  have hcheck (r : NodeRef) (kind : Kind) (hr : f.tree.kind? r = some kind) (hkind : kind ∈ kinds) :
      (rule.check r).Gives f (MayReport p f kinds r) := by
    obtain ⟨n, hn, rfl⟩ := Option.map_eq_some_iff.mp hr
    obtain ⟨x, hx, rfl, rfl⟩ := hf.shows.exists_of_get? hn
    intro m reports hreports y hy href
    obtain rfl := Spot.ref_injOn hy hx href
    exact ⟨hkind, h.check y hy hkind m reports hreports⟩
  obtain ⟨ofFile, founds, hperm, hofFile, hfounds⟩ :=
    Linter.lint_single h.subscription h.nodup h.checkFile hcheck hlint
  have hnone : ofFile = [] := by
    rcases hofFile with rfl | ⟨reports, rfl, rfl⟩ <;> rfl
  rw [hf.root, hf.shows.preorder_eq (Spot.self_mem_all _), List.forall₂_map_left_iff] at hfounds
  have hsingle : List.Forall₂ (fun x found => found = [] ∨ ∃ d, found = [d] ∧ Removes f rule d x)
      (wholeSpot p).walk founds := by
    have hmem : ∀ x ∈ (wholeSpot p).walk, x ∈ (wholeSpot p).all := fun x hx =>
      (wholeSpot p).walk_perm_all.mem_iff.mp hx
    exact ((List.forall₂_and_left _ _).mpr ⟨hmem, hfounds⟩).imp fun x found hx =>
      finds_removal h hf hx.1 hx.2
  obtain ⟨xs, hxs, hforall⟩ := exists_sublist_of_single hsingle
  exact ⟨_, xs, by rwa [hnone, List.nil_append] at hperm, hxs, hforall⟩

end

theorem edits_allFixes {f : SourceFile} {rule : Rule} {S : List Diagnostic} {xs : List Spot}
    (h : List.Forall₂ (Removes f rule) S xs) :
    (allFixes S).edits = xs.filterMap fun x => removal? f.fileName x.offset x.green := by
  induction h with
  | nil => rfl
  | @cons d x S xs hd _ ih =>
    obtain ⟨e, hedits, he⟩ := hd.edits
    have hfirst : d.fixes.flatMap Fix.edits = [e] := by rw [List.flatMap_def, hedits]; rfl
    rw [List.filterMap_cons, he, ← ih, allFixes, List.flatMap_cons, hfirst]
    rfl

/-- The edits for the spots with the numbers of some spots are the edits for these spots. -/
theorem filterMap_removalAt?_perm {file : String} {s : Spot} {xs : List Spot} (hxs : xs.Nodup)
    (hsub : xs ⊆ s.all) :
    (s.all.filterMap (removalAt? file (xs.map Spot.number).contains)).Perm
      (xs.filterMap fun x => removal? file x.offset x.green) := by
  have hmarked : s.all.filterMap (removalAt? file (xs.map Spot.number).contains) =
      (s.all.filter fun x => (xs.map Spot.number).contains x.number).filterMap
        fun x => removal? file x.offset x.green := by
    rw [List.filterMap_filter]
    rfl
  rw [hmarked]
  exact (Spot.filter_number_perm s.nodup_map_number_all hxs hsub).filterMap _

theorem nodup_map_number {s : Spot} {xs : List Spot} (hxs : xs.Subperm s.all) :
    (xs.map Spot.number).Nodup := by
  obtain ⟨ys, hys, hall⟩ := hxs
  exact (hys.map Spot.number).nodup_iff.mp (s.nodup_map_number_all.sublist (hall.map _))

/-- A fix with the edits for some spots leaves the text of the program without what they hold. -/
theorem removals_apply {p : TypeLint.Program} (hp : Disciplined p) (hplain : CommentFree p)
    {name : String} {b : Built} (hbuild : build name p = .ok b) {xs : List Spot}
    (hxs : xs.Subperm (wholeSpot p).all) {fix : Fix}
    (hedits : fix.edits = xs.filterMap fun x => removal? b.file.fileName x.offset x.green) :
    ∃ b', build name (without (xs.map Spot.number).contains p) = .ok b' ∧
      fix.validate (byteLength b.file.text) = .ok () ∧
      fix.apply b.file.text = .ok b'.file.text := by
  obtain ⟨hf, -⟩ := shown_of_build hbuild
  obtain ⟨b', hbuild'⟩ := exists_build_changed (strips_agree (xs.map Spot.number).contains) hplain
    hbuild
  obtain ⟨es, hpatch, hes, hlt⟩ := exists_patch_without b.file.fileName hp hplain
    (xs.map Spot.number).contains
  have hperm : fix.edits.Perm es := by
    rw [hedits]
    exact (hes.trans (filterMap_removalAt?_perm (nodup_map_number hxs).of_map hxs.subset)).symm
  refine ⟨b', hbuild', ?_⟩
  rw [hf.text, (shown_of_build hbuild').1.text]
  exact Fix.apply_of_perm hpatch hlt hperm

/-- The edits of the fixes of any of the findings of a rule make one fix, and it leaves the text of
    the program without the assertions and optional steps that these findings are about. -/
theorem allFixes_apply {p : TypeLint.Program} (hp : Disciplined p) (hplain : CommentFree p)
    {name : String} {b : Built} (hbuild : build name p = .ok b) {rule : Rule}
    (hrule : rule ∈ removalRules) {category : Category} {oracle oracle' : Option Oracle}
    {found : List Diagnostic}
    (hlint : Linter.lint ⟨[⟨rule, category⟩]⟩ b.file oracle = .ok (.ok (found, oracle')))
    {S : List Diagnostic} (hS : S.Subperm found) :
    ∃ nodes : List Nat, nodes.Nodup ∧ List.Forall₂ (IsAbout b.file rule) S nodes ∧
      ∃ b', build name (without nodes.contains p) = .ok b' ∧
        (allFixes S).validate (byteLength b.file.text) = .ok () ∧
        (allFixes S).apply b.file.text = .ok b'.file.text := by
  obtain ⟨hf, hname⟩ := shown_of_build hbuild
  obtain ⟨kinds, hremoval⟩ := removalRule_of_mem hp hplain hf hrule
  obtain ⟨ds, xs, hperm, hxs, hforall⟩ := exists_removals hremoval hf hlint
  obtain ⟨ys, hys, hforall⟩ := exists_of_subperm (hS.trans hperm.subperm) hforall
  have hall : ys.Subperm (wholeSpot p).all :=
    (hys.trans hxs.subperm).trans (wholeSpot p).walk_perm_all.subperm
  obtain ⟨b', hbuild', hvalid, happly⟩ :=
    removals_apply hp hplain hbuild hall (edits_allFixes hforall)
  refine ⟨_, nodup_map_number hall, ?_, b', hbuild', hvalid, happly⟩
  rw [List.forall₂_map_right_iff]
  exact hforall.imp fun d x hd => hd.about

/-- A program with a superfluous assertion behind another one. -/
def doubled : TypeLint.Program :=
  [.statement (.expression (.property (.nonNull (.nonNull (.identifier "x"))) true "y"))]

theorem allFixes_apply_doubled :
    ∃ b found oracle, build "a.ts" doubled = .ok b ∧ Disciplined doubled ∧ CommentFree doubled ∧
      ExtraNonNullAssertion.rule ∈ removalRules ∧
      Linter.lint ⟨[⟨ExtraNonNullAssertion.rule, .warning⟩]⟩ b.file none =
        .ok (.ok (found, oracle)) ∧
      found.length = 2 ∧
      ∃ nodes : List Nat, nodes.Nodup ∧
        List.Forall₂ (IsAbout b.file ExtraNonNullAssertion.rule) found nodes ∧
        ∃ b', build "a.ts" (without nodes.contains doubled) = .ok b' ∧
          (allFixes found).validate (byteLength b.file.text) = .ok () ∧
          (allFixes found).apply b.file.text = .ok b'.file.text := by
  have hp : Disciplined doubled := by decide
  have hplain : CommentFree doubled := by decide
  have hrule : ExtraNonNullAssertion.rule ∈ removalRules :=
    List.mem_cons_of_mem _ (List.mem_cons_of_mem _ (List.mem_cons_self ..))
  obtain ⟨b, hbuild⟩ : ∃ b, build "a.ts" doubled = .ok b := exists_build _ (by decide +kernel)
  have hrun : ((build "a.ts" doubled).toOption.bind fun b =>
      (Visitor.lookAt b.file (Linter.visitors ⟨[⟨ExtraNonNullAssertion.rule, .warning⟩]⟩)
        none).toOption.map fun x => x.1.length) = some 2 := by
    decide +kernel
  rw [hbuild, Except.toOption, Option.bind_some] at hrun
  obtain ⟨⟨all, vs, oracle⟩, hall, hlength⟩ := Option.map_eq_some_iff.mp hrun
  have hlint := Linter.lint_of_lookAt (.inr rfl) (eq_ok_of_toOption hall)
  exact ⟨b, _, oracle, hbuild, hp, hplain, hrule, hlint,
    (List.length_mergeSort _).trans hlength,
    allFixes_apply hp hplain hbuild hrule hlint (List.Subperm.refl _)⟩

end TypeLint.Rules
