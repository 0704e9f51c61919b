import TypeLint.Proofs.Binding.References
import TypeLint.Proofs.Lint.Sources
import TypeLint.Proofs.Program.Chains
import TypeLint.Proofs.Rules.RemovalFixes

namespace TypeLint.Rules.TypeAssertion

open Syntax Program Text Binding TypeLint.Types

/-- A type without a value, or with a boolean as its value, is not one whose literals are kept. -/
theorem isLiteral_eq_false {s : Store} {id : TypeId}
    (h : ∀ value, s.literalValue? id = some value → ∃ truth, value = .boolean truth) :
    isLiteral s id = false := by
  rw [Store.literalValue?] at h
  rw [isLiteral, Store.flagsOf]
  cases hdata : s.lookup id with
  | none =>
    dsimp only
    decide
  | some data =>
    rw [hdata] at h
    cases data with
    | literal value | enumLiteral enumName member value =>
      obtain ⟨truth, rfl⟩ := h value rfl
      dsimp only [TypeData.flags, LiteralValue.flags]
      decide
    | intrinsic kind =>
      dsimp only [TypeData.flags]
      cases kind <;> decide
    | union members =>
      dsimp only
      split_ifs <;> decide
    | _ =>
      dsimp only [TypeData.flags]
      decide

section

variable {p : TypeLint.Program} {f : SourceFile} {t : Oracle} {x : Spot} {id : TypeId}
  (hp : Disciplined p) (hplain : CommentFree p) (hf : Shown p f) (hx : x ∈ (wholeSpot p).all)

include hp hplain hf hx

/-- An assertion to the type of its operand is reported. -/
theorem check_returns {operand typeNode : NodeRef}
    (ha : x.node.assertion? = some ⟨operand, typeNode⟩)
    (hkind : x.green.kind ∈ assertionKinds)
    (hconst : TypeTable.isConstAssertion f.tree ⟨operand, typeNode⟩ = false)
    (hcast : t.typeAt? x.ref = some id) (huncast : t.typeAt? operand = some id)
    (hliteral : isLiteral t.store id = false) :
    ∃ e, (check .default x.ref).Returns f t [report f x.ref e] ∧
      removal? f.fileName x.offset x.green = some e := by
  have hkinds : x.green.kind = .asExpression ∨ x.green.kind = .typeAssertionExpression := by
    simpa [assertionKinds] using hkind
  obtain ⟨e, he, hremoval⟩ := exists_removal hp hplain hf hx hkinds ha
  refine ⟨e, ?_, hremoval⟩
  have hunnecessary : isUnnecessary f t x.ref ⟨operand, typeNode⟩ id id = true := by
    rw [isUnnecessary, isUnchanged, hliteral, hconst, beq_self_eq_true]
    rfl
  rw [check]
  refine Check.returns_bind Check.returns_file ?_
  rw [hf.shows.get?_eq hx]
  refine Check.returns_bind (Check.returns_orFail ha _) ?_
  rw [if_neg (by rintro ⟨⟩)]
  refine Check.returns_bind Check.returns_oracle (Check.returns_bind (Check.returns_typeAt hcast) ?_)
  rw [hliteral, Bool.false_and, Bool.false_and, if_neg Bool.false_ne_true]
  refine Check.returns_bind (Check.returns_typeAt huncast) ?_
  rw [hunnecessary, if_pos rfl, he]
  exact Check.returns_pure _

end

section

variable {inFront : Bool} {name typeText : String} {n k : Nat} {f : SourceFile} {t : TypeTable}
  {id : TypeId} {declaration ident annotation asserted x operand type : Spot}
  (hf : Shown (chain inFront name typeText n) f)
  (hparts : ChainParts inFront name typeText n declaration ident annotation asserted)
  (ht : t.Sound) (hnodes : t.nodeTypes = []) (htypes : t.typeNodeTypes = [])
  (hid : (t.bind f).typeOfTypeNode? annotation.ref = some id)
  (hx : x ∈ asserted.all) (hlayer : Layer inFront name typeText k x operand type)

include hparts hf in
theorem variableDeclaration?_eq_some {r : NodeRef} {d : VariableDeclaration}
    (hd : f.tree.variableDeclaration? r = some d) :
    r = declaration.ref ∧ d = ⟨ident.ref, false, annotation.ref, none⟩ := by
  obtain ⟨n, hn, hdeclared⟩ := Option.bind_eq_some_iff.mp hd
  obtain ⟨y, hy, rfl, rfl⟩ := hf.shows.exists_of_get? hn
  obtain ⟨statement, list, behind, last, hframe⟩ := hparts.frame
  obtain rfl := hframe.eq_declaration hy (Node.payload_of_variableDeclaration? hdeclared).2
  exact ⟨rfl, Option.some.inj (hdeclared.symm.trans hparts.declared)⟩

include hparts hx hlayer

theorem type_mem : type ∈ (wholeSpot (chain inFront name typeText n)).all :=
  Spot.all_subset_all hparts.asserted_mem (Spot.children_subset_all hx hlayer.type_mem)

include hf

theorem isConstAssertion_layer (hconst : typeText ≠ "const") :
    TypeTable.isConstAssertion f.tree ⟨operand.ref, type.ref⟩ = false := by
  obtain ⟨l, hwritten⟩ := hlayer.written
  exact isConstAssertion_eq_false hf.shows (type_mem hparts hx hlayer) hwritten hconst

include ht hnodes htypes hid

/-- Every assertion of the chain has the type of the constant. -/
theorem typeAt?_layer (hconst : typeText ≠ "const") : (t.bind f).typeAt? x.ref = some id := by
  obtain ⟨l, hwritten⟩ := hlayer.written
  obtain ⟨l', hannotation⟩ := hparts.written
  have hresolved := TypeTable.resolved_bind hf ht htypes _ _ hid
  rw [resolveType_eq_denotes hf.shows _ hparts.annotation_mem hannotation] at hresolved
  refine TypeTable.typeAt?_assertion (disciplined_chain inFront name typeText n) hf ht hnodes htypes
    (Spot.all_subset_all hparts.asserted_mem hx) hlayer.assertion ?_
    (isConstAssertion_layer hf hparts hx hlayer hconst) ?_
  · rw [hlayer.kind]
    cases inFront <;> rintro ⟨⟩
  · rwa [resolveType_eq_denotes hf.shows _ (type_mem hparts hx hlayer) hwritten]

/-- What an assertion of the chain is about has the type of the constant, too. -/
theorem typeAt?_operand (hname : name ≠ "undefined") (hconst : typeText ≠ "const") :
    (t.bind f).typeAt? operand.ref = some id := by
  have hchild := hlayer.wraps.mem_children
  have hoperand := Spot.children_subset_all hx hchild
  cases k with
  | succ k =>
    obtain ⟨inner, type', hinner⟩ := hlayer.asserted.exists_layer
    exact typeAt?_layer hf hparts ht hnodes htypes hid hoperand hinner hconst
  | zero =>
    have hwhole := Spot.all_subset_all hparts.asserted_mem hoperand
    have hkind : x.node.kind = assertionKind inFront := hlayer.kind
    have hread : f.tree.identifierText? operand.ref = some name := by
      rw [Tree.identifierText?, hf.shows.get?_eq hwhole]
      exact hlayer.asserted.identifier?_eq
    have href : isReference f.tree operand.ref = true := by
      rw [isReference, hf.shows.parent_eq hwhole, Spot.parent_of_mem_children hchild,
        hf.shows.get?_eq (Spot.all_subset_all hparts.asserted_mem hx)]
      simp only [hkind]
      cases inFront <;> rfl
    have hlt : declaration.number < operand.number :=
      hparts.before.trans_le (Spot.number_of_mem_all hoperand).1
    have hdeclared : f.tree.variableDeclaration? declaration.ref =
        some ⟨ident.ref, false, annotation.ref, none⟩ := by
      rw [Tree.variableDeclaration?, hf.shows.get?_eq hparts.declaration_mem]
      exact hparts.declared
    have hnamed : f.tree.identifierText? ident.ref = some name := by
      rw [Tree.identifierText?, hf.shows.get?_eq hparts.ident_mem]
      exact hparts.named
    exact TypeTable.typeAt?_reference (disciplined_chain inFront name typeText n) hf ht hnodes hread
      href hname hlt hdeclared hnamed
      (fun j d hd => Option.some.inj (variableDeclaration?_eq_some hf hparts hd).1) hid

end

theorem nodup_assertionKinds : assertionKinds.Nodup := by decide

section

variable {p : TypeLint.Program} {fileName : String} {b : Built} {x : Spot} (hp : Disciplined p)
  (hplain : CommentFree p) (hbuild : build fileName p = .ok b)

include hp hplain hbuild

/-- A report with the edit that takes an assertion away is a finding. -/
theorem length_findings_report (hx : x ∈ (wholeSpot p).all) {e : TextEdit}
    (he : removal? b.file.fileName x.offset x.green = some e) (category : Category) :
    ((ConfiguredRule.mk (rule .default) category).findings b.file
      [report b.file x.ref e]).length = 1 := by
  obtain ⟨hf, -⟩ := shown_of_build hbuild
  have hrange := SourceFile.range_eq hf.shows hx
  have hstop : x.stop ≤ byteLength b.file.text := by
    rw [hf.text]
    exact stop_le_of_mem_wholeSpot hx
  let fix : Fix := ⟨"Remove unnecessary type assertion", [e]⟩
  have hedits : fix.edits = [x].filterMap fun x => removal? b.file.fileName x.offset x.green := by
    rw [List.filterMap_cons, he]
    rfl
  obtain ⟨-, -, hvalid, -⟩ :=
    removals_apply hp hplain hbuild (List.singleton_subperm_iff.mpr hx) hedits
  have hfits : (info.diagnostic b.file.fileName category (report b.file x.ref e)).fits
      (byteLength b.file.text) = true := by
    simp only [Diagnostic.fits_iff, RuleInfo.diagnostic, report, Report.new, Report.fix, hrange,
      List.nil_append]
    exact ⟨⟨x.node_start_le_stop, hstop⟩, List.forall_mem_singleton.mpr hvalid⟩
  have hrule : (rule .default).info = info := rfl
  rw [ConfiguredRule.findings, List.map_singleton, List.filter_singleton, hrule, hfits]
  rfl

end

/-- If there is a finding at each assertion, there are as many findings as assertions. -/
theorem exists_lint_length {p : TypeLint.Program} {f : SourceFile} (hf : Shown p f) {t : Oracle}
    {category : Category} (hcheck : ∀ x ∈ assertions (wholeSpot p), ∃ reports,
      (check .default x.ref).Returns f t reports ∧
        ((ConfiguredRule.mk (rule .default) category).findings f reports).length = 1) :
    ∃ found, Linter.lint ⟨[⟨rule .default, category⟩]⟩ f (some t) = .ok (.ok (found, some t)) ∧
      found.length = (assertions (wholeSpot p)).length := by
  let reports (r : NodeRef) : List Report :=
    ((check .default r).run f ⟨some t, []⟩).1.toOption.getD []
  have hreports (x : Spot) (hx : x ∈ assertions (wholeSpot p)) :
      (check .default x.ref).Returns f t (reports x.ref) ∧
        ((ConfiguredRule.mk (rule .default) category).findings f (reports x.ref)).length = 1 := by
    obtain ⟨found, hreturns, hlength⟩ := hcheck x hx
    have heq : reports x.ref = found := by
      simp only [reports, hreturns []]
      rfl
    rw [heq]
    exact ⟨hreturns, hlength⟩
  have hnode (r : NodeRef) (kind : Kind) (hr : f.tree.kind? r = some kind)
      (hkind : kind ∈ assertionKinds) : (check .default r).Returns f t (reports r) := by
    obtain ⟨n, hn, rfl⟩ := Option.map_eq_some_iff.mp hr
    obtain ⟨x, hx, rfl, rfl⟩ := hf.shows.exists_of_get? hn
    exact (hreports x (List.mem_filter.mpr ⟨hx, List.contains_iff_mem.mpr hkind⟩)).1
  have hrule : (ConfiguredRule.mk (rule .default) category).rule.subscription =
      .kinds assertionKinds := rfl
  obtain ⟨found, hlint, hperm⟩ :=
    Linter.lint_returns hrule nodup_assertionKinds hnode (Check.returns_pure [])
  have hwalk := (wholeSpot p).walk_perm_all
  have hvisited : (f.tree.preorder f.root).filter
      (fun r => (f.tree.kind? r).any assertionKinds.contains) =
      ((wholeSpot p).walk.filter fun x => assertionKinds.contains x.green.kind).map Spot.ref := by
    rw [hf.root, hf.shows.preorder_eq (Spot.self_mem_all _), List.filter_map]
    refine congrArg _ (List.filter_congr fun x hx => ?_)
    rw [Function.comp_apply, hf.shows.kind?_eq (hwalk.mem_iff.mp hx), Option.any_some]
  have hone : ∀ x ∈ (wholeSpot p).walk.filter fun x => assertionKinds.contains x.green.kind,
      ((ConfiguredRule.mk (rule .default) category).findings f (reports x.ref)).length = 1 :=
    fun x hx => (hreports x ((hwalk.filter _).mem_iff.mp hx)).2
  refine ⟨found, hlint, ?_⟩
  rw [hperm.length_eq, hvisited, List.flatMap_map, List.length_flatMap, List.map_congr_left hone,
    List.map_const', List.sum_replicate, smul_eq_mul, mul_one]
  exact (hwalk.filter _).length_eq

/-- The rule with its default options takes assertions away. -/
theorem mem_assertions_of_removes {p : TypeLint.Program} {f : SourceFile} (hf : Shown p f)
    {d : Diagnostic} {x : Spot} (hx : x ∈ (wholeSpot p).all)
    (h : Removes f (rule .default) d x) : x ∈ assertions (wholeSpot p) := by
  obtain ⟨kinds, kind, hkinds, hmem, hkind⟩ := h.about.kind
  cases hkinds
  cases (hf.shows.kind?_eq hx).symm.trans hkind
  exact List.mem_filter.mpr ⟨hx, List.contains_iff_mem.mpr hmem⟩

theorem exists_fix_of_removes {f : SourceFile} {d : Diagnostic} {x : Spot}
    (h : Removes f (rule .default) d x) : ∃ fix, d.fixes = [fix] := by
  obtain ⟨e, hedits, -⟩ := h.edits
  obtain ⟨fix, hfix, -⟩ := List.map_eq_singleton_iff.mp hedits
  exact ⟨fix, hfix⟩

section

variable {inFront : Bool} {name typeText fileName : String} {n : Nat} {b : Built}
  (hbuild : build fileName (chain inFront name typeText n) = .ok b)

include hbuild

/-- The fixes of any of the findings in the file of a chain leave the file of a shorter chain. -/
theorem fixes_shorten {category : Category} {oracle oracle' : Option Oracle}
    {found : List Diagnostic}
    (hlint : Linter.lint ⟨[⟨rule .default, category⟩]⟩ b.file oracle = .ok (.ok (found, oracle')))
    {S : List Diagnostic} (hS : S.Subperm found) :
    (∀ d ∈ S, ∃ fix, d.fixes = [fix]) ∧
      ∃ b', build fileName (chain inFront name typeText (n - S.length)) = .ok b' ∧
        ∀ fix : Fix, fix.edits = (allFixes S).edits →
          fix.validate (byteLength b.file.text) = .ok () ∧
            fix.apply b.file.text = .ok b'.file.text := by
  have hp := disciplined_chain inFront name typeText n
  have hplain := commentFree_chain inFront name typeText n
  obtain ⟨hf, -⟩ := shown_of_build hbuild
  have hrule : rule .default ∈ removalRules := List.mem_cons_self
  obtain ⟨kinds, hremoval⟩ := removalRule_of_mem hp hplain hf hrule
  obtain ⟨ds, xs, hperm, hxs, hforall⟩ := exists_removals hremoval hf hlint
  obtain ⟨ys, hys, hforall⟩ := exists_of_subperm (hS.trans hperm.subperm) hforall
  have hall : ys.Subperm (wholeSpot (chain inFront name typeText n)).all :=
    (hys.trans hxs.subperm).trans (wholeSpot _).walk_perm_all.subperm
  have hfixes : ∀ d ∈ S, ∃ fix, d.fixes = [fix] :=
    ((List.forall₂_and_left _ _).mp (hforall.imp fun d y h => ⟨exists_fix_of_removes h, h⟩)).1
  have hflipped : List.Forall₂ (fun y d => Removes b.file (rule .default) d y) ys S := hforall.flip
  have habout : ∀ y ∈ ys, ∃ d, Removes b.file (rule .default) d y :=
    ((List.forall₂_and_left _ _).mp (hflipped.imp fun y d h => ⟨⟨d, h⟩, h⟩)).1
  have hassertions : ys ⊆ assertions (wholeSpot (chain inFront name typeText n)) := fun y hy =>
    let ⟨_, hd⟩ := habout y hy
    mem_assertions_of_removes hf (hall.subset hy) hd
  have hwithout := without_chain (nodup_map_number hall).of_map hassertions
  rw [← hforall.length_eq] at hwithout
  refine ⟨hfixes, ?_⟩
  obtain ⟨b', hbuild', -⟩ := removals_apply hp hplain hbuild hall (edits_allFixes hforall)
  rw [hwithout] at hbuild'
  refine ⟨b', hbuild', fun fix hfix => ?_⟩
  obtain ⟨b'', hbuild'', hfixed⟩ :=
    removals_apply hp hplain hbuild hall (hfix.trans (edits_allFixes hforall))
  rw [hwithout] at hbuild''
  cases hbuild'.symm.trans hbuild''
  exact hfixed

/-- Every assertion to the type of the constant is reported. -/
theorem exists_found {t : TypeTable} (ht : t.Sound) (hnodes : t.nodeTypes = [])
    (htypes : t.typeNodeTypes = []) (hname : name ≠ "undefined") (hconst : typeText ≠ "const")
    {r : NodeRef} {d : VariableDeclaration} {id : TypeId}
    (hd : b.file.tree.variableDeclaration? r = some d)
    (hid : (t.bind b.file).typeOfTypeNode? d.typeAnnotation = some id)
    (hliteral : isLiteral (t.bind b.file).store id = false) (category : Category) :
    ∃ found, Linter.lint ⟨[⟨rule .default, category⟩]⟩ b.file (some (t.bind b.file).oracle) =
      .ok (.ok (found, some (t.bind b.file).oracle)) ∧ found.length = n := by
  have hp := disciplined_chain inFront name typeText n
  have hplain := commentFree_chain inFront name typeText n
  obtain ⟨hf, -⟩ := shown_of_build hbuild
  obtain ⟨declaration, ident, annotation, asserted, hparts⟩ :=
    exists_chainParts inFront name typeText n
  obtain ⟨statement, list, behind, last, hframe⟩ := hparts.frame
  obtain ⟨rfl, rfl⟩ := variableDeclaration?_eq_some hf hparts hd
  have hcheck (x : Spot) (hx : x ∈ assertions (wholeSpot (chain inFront name typeText n))) :
      ∃ reports, (check .default x.ref).Returns b.file (t.bind b.file).oracle reports ∧
        ((ConfiguredRule.mk (rule .default) category).findings b.file reports).length = 1 := by
    obtain ⟨hwhole, hkind⟩ := List.mem_filter.mp hx
    rw [hframe.assertions_eq] at hx
    have hinside : x ∈ asserted.all := (List.mem_filter.mp hx).1
    obtain ⟨k, operand, type, hlayer⟩ := exists_layer_of_mem hframe.chained hx
    obtain ⟨e, hreturns, he⟩ := check_returns (t := (t.bind b.file).oracle) hp hplain hf hwhole
      hlayer.assertion
      (List.contains_iff_mem.mp hkind) (isConstAssertion_layer hf hparts hinside hlayer hconst)
      (typeAt?_layer hf hparts ht hnodes htypes hid hinside hlayer hconst)
      (typeAt?_operand hf hparts ht hnodes htypes hid hinside hlayer hname hconst) hliteral
    exact ⟨_, hreturns, length_findings_report hp hplain hbuild hwhole he category⟩
  obtain ⟨found, hlint, hlength⟩ := exists_lint_length hf hcheck
  exact ⟨found, hlint, hlength.trans length_assertions_chain⟩

end

/-- Without an assertion there is nothing to report. -/
theorem lint_unasserted {p : TypeLint.Program} {f : SourceFile} (hf : Shown p f)
    (hnone : assertions (wholeSpot p) = []) (t : Oracle) (category : Category) :
    Linter.lint ⟨[⟨rule .default, category⟩]⟩ f (some t) = .ok (.ok ([], some t)) := by
  obtain ⟨found, hlint, hlength⟩ : ∃ found,
      Linter.lint ⟨[⟨rule .default, category⟩]⟩ f (some t) = .ok (.ok (found, some t)) ∧ _ :=
    exists_lint_length hf fun x hx => by
      rw [hnone] at hx
      cases hx
  obtain rfl : found = [] :=
    List.eq_nil_of_length_eq_zero (hlength.trans (congrArg List.length hnone))
  exact hlint

/-- A constant of any type but a literal one is read under a number of assertions to its type, all
    behind or all in front of what they are about. Each of the assertions is reported, with one fix;
    a fix alone leaves the file with one assertion less, and all of them together leave the file
    without assertions, in which nothing is reported. -/
theorem lint_chain {inFront : Bool} {name typeText fileName : String} {n : Nat} {b : Built}
    (hbuild : build fileName (chain inFront name typeText n) = .ok b) {t : TypeTable}
    (ht : t.Sound) (hnodes : t.nodeTypes = []) (htypes : t.typeNodeTypes = [])
    (hname : name ≠ "undefined") (hconst : typeText ≠ "const") {r : NodeRef}
    {d : VariableDeclaration} {id : TypeId} (hd : b.file.tree.variableDeclaration? r = some d)
    (hid : (t.bind b.file).typeOfTypeNode? d.typeAnnotation = some id)
    (hvalue : ∀ value, (t.bind b.file).store.literalValue? id = some value →
      ∃ truth, value = .boolean truth) (category : Category) :
    ∃ found bare,
      Linter.lint ⟨[⟨rule .default, category⟩]⟩ b.file (some (t.bind b.file).oracle) =
        .ok (.ok (found, some (t.bind b.file).oracle)) ∧
      found.length = n ∧
      (∀ x ∈ found, ∃ fix less, x.fixes = [fix] ∧
        build fileName (chain inFront name typeText (n - 1)) = .ok less ∧
        fix.apply b.file.text = .ok less.file.text) ∧
      build fileName (chain inFront name typeText 0) = .ok bare ∧
      (allFixes found).apply b.file.text = .ok bare.file.text ∧
      Linter.lint ⟨[⟨rule .default, category⟩]⟩ bare.file (some (t.bind bare.file).oracle) =
        .ok (.ok ([], some (t.bind bare.file).oracle)) := by
  obtain ⟨found, hlint, hlength⟩ := exists_found hbuild ht hnodes htypes hname hconst hd hid
    (isLiteral_eq_false hvalue) category
  obtain ⟨-, bare, hbare, hall⟩ := fixes_shorten hbuild hlint (List.Subperm.refl found)
  rw [hlength, Nat.sub_self] at hbare
  have hnone : assertions (wholeSpot (chain inFront name typeText 0)) = [] :=
    List.eq_nil_of_length_eq_zero length_assertions_chain
  refine ⟨found, bare, hlint, hlength, fun x hx => ?_, hbare, (hall _ rfl).2,
    lint_unasserted (shown_of_build hbare).1 hnone _ category⟩
  obtain ⟨hfixes, less, hless, hone⟩ :=
    fixes_shorten hbuild hlint (List.singleton_subperm_iff.mpr hx)
  obtain ⟨fix, hfix⟩ := hfixes x List.mem_cons_self
  have hedits : fix.edits = (allFixes [x]).edits := by
    rw [allFixes, List.flatMap_singleton, hfix, List.flatMap_singleton]
  exact ⟨fix, less, hfix, hless, (hone fix hedits).2⟩

/-- `declare const x: string; x as string as string;` -/
theorem lint_chain_twice :
    ∃ b found bare, build "a.ts" (chain false "x" "string" 2) = .ok b ∧
      ((TypeTable.new .strict).bind b.file).typeOfTypeNode? (some 4) = some TypeId.string ∧
      Linter.lint ⟨[⟨rule .default, .warning⟩]⟩ b.file
        (some ((TypeTable.new .strict).bind b.file).oracle) =
          .ok (.ok (found, some ((TypeTable.new .strict).bind b.file).oracle)) ∧
      found.length = 2 ∧
      (∀ x ∈ found, ∃ fix less, x.fixes = [fix] ∧
        build "a.ts" (chain false "x" "string" 1) = .ok less ∧
        fix.apply b.file.text = .ok less.file.text) ∧
      build "a.ts" (chain false "x" "string" 0) = .ok bare ∧
      (allFixes found).apply b.file.text = .ok bare.file.text ∧
      Linter.lint ⟨[⟨rule .default, .warning⟩]⟩ bare.file
        (some ((TypeTable.new .strict).bind bare.file).oracle) =
          .ok (.ok ([], some ((TypeTable.new .strict).bind bare.file).oracle)) := by
  obtain ⟨b, hb⟩ := exists_build "a.ts" (p := chain false "x" "string" 2) (by decide +kernel)
  obtain ⟨hd, hid, hvalue⟩ := of_build hb (fun b =>
    b.file.tree.variableDeclaration? (some 5) = some ⟨some 2, false, some 4, none⟩ ∧
      ((TypeTable.new .strict).bind b.file).typeOfTypeNode? (some 4) = some TypeId.string ∧
      ((TypeTable.new .strict).bind b.file).store.literalValue? TypeId.string = none)
    (by decide +kernel)
  have hnone (value : LiteralValue) (h : ((TypeTable.new .strict).bind b.file).store.literalValue?
      TypeId.string = some value) : ∃ truth, value = .boolean truth := by
    rw [hvalue] at h
    cases h
  obtain ⟨found, bare, hchain⟩ := lint_chain hb (TypeTable.interned_new .strict).sound rfl rfl
    (by decide) (by decide) hd hid hnone .warning
  exact ⟨b, found, bare, hb, hid, hchain⟩

end TypeLint.Rules.TypeAssertion
