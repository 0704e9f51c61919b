import TypeLint.Proofs.Lint.Sources
import TypeLint.Proofs.Program.Shapes
import TypeLint.Proofs.Program.WellFormed
import TypeLint.Proofs.Syntax.TokenTexts
import TypeLint.Rules.DuplicateCase

namespace TypeLint.Rules.DuplicateCase

open Syntax Program Text

variable {f : SourceFile} {clauses earlier : List NodeRef} {c clause r : NodeRef}

/-- The tokens of the test of a clause, if it has one. -/
def testTexts? (f : SourceFile) (clause : NodeRef) : Option (List (Option Kind × String)) :=
  (test? f.tree clause).map f.tokenTexts

/-- The clause stands in a list behind tests with some sequences of tokens, and its own test has
    one of these or that of a clause in front of it. -/
def RepeatsAfter (f : SourceFile) (seen : List (List (Option Kind × String)))
    (clauses : List NodeRef) (c : NodeRef) : Prop :=
  ∃ front back texts, clauses = front ++ c :: back ∧ testTexts? f c = some texts ∧
    (texts ∈ seen ∨ ∃ e ∈ front, testTexts? f e = some texts)

/-- A clause of a list has a test with the same tokens as the test of a clause in front of it. -/
def Repeats (f : SourceFile) (clauses : List NodeRef) (c : NodeRef) : Prop :=
  ∃ front back texts, clauses = front ++ c :: back ∧ testTexts? f c = some texts ∧
    ∃ e ∈ front, testTexts? f e = some texts

theorem repeatsAfter_nil : RepeatsAfter f [] clauses c ↔ Repeats f clauses c := by
  simp only [RepeatsAfter, Repeats, List.not_mem_nil, false_or]

theorem not_repeatsAfter_nil {seen : List (List (Option Kind × String))} :
    ¬RepeatsAfter f seen [] c := by
  rintro ⟨front, back, texts, heq, -⟩
  simp at heq

/-- A clause of a list is the first one, or it stands behind its test. -/
theorem repeatsAfter_cons {seen : List (List (Option Kind × String))} :
    RepeatsAfter f seen (clause :: clauses) c ↔
      (c = clause ∧ ∃ texts ∈ seen, testTexts? f clause = some texts) ∨
        RepeatsAfter f ((testTexts? f clause).toList ++ seen) clauses c := by
  constructor
  · rintro ⟨front, back, texts, heq, htexts, hseen⟩
    cases front with
    | nil =>
      obtain ⟨rfl, rfl⟩ := List.cons.inj heq
      rcases hseen with hseen | ⟨e, he, -⟩
      · exact .inl ⟨rfl, texts, hseen, htexts⟩
      · cases he
    | cons first front =>
      obtain ⟨rfl, rfl⟩ := List.cons.inj heq
      refine .inr ⟨front, back, texts, rfl, htexts, ?_⟩
      rcases hseen with hseen | ⟨e, he, hsame⟩
      · exact .inl (List.mem_append_right _ hseen)
      · rcases List.mem_cons.mp he with rfl | he
        · exact .inl (List.mem_append_left _ (Option.mem_toList.mpr hsame))
        · exact .inr ⟨e, he, hsame⟩
  · rintro (⟨rfl, texts, hseen, htexts⟩ | ⟨front, back, texts, rfl, htexts, hseen⟩)
    · exact ⟨[], clauses, texts, rfl, htexts, .inl hseen⟩
    · refine ⟨clause :: front, back, texts, rfl, htexts, ?_⟩
      rcases hseen with hseen | ⟨e, he, hsame⟩
      · rcases List.mem_append.mp hseen with hfirst | hseen
        · exact .inr ⟨clause, List.mem_cons_self, Option.mem_toList.mp hfirst⟩
        · exact .inl hseen
      · exact .inr ⟨e, List.mem_cons_of_mem _ he, hsame⟩

theorem RepeatsAfter.imp {seen seen' : List (List (Option Kind × String))}
    (hseen : ∀ texts ∈ seen, texts ∈ seen') (h : RepeatsAfter f seen clauses c) :
    RepeatsAfter f seen' clauses c := by
  obtain ⟨front, back, texts, heq, htexts, hrepeated⟩ := h
  exact ⟨front, back, texts, heq, htexts, hrepeated.imp_left (hseen texts)⟩

/-- A test is compared with those that have been kept. -/
theorem any_tokensEqual_iff {test : NodeRef} :
    (earlier.any fun e => f.tokensEqual e test) = true ↔
      f.tokenTexts test ∈ earlier.map f.tokenTexts := by
  simp only [List.any_eq_true, SourceFile.tokensEqual_iff, List.mem_map]

/-- The loop comes by every repeated clause, since the tests that it keeps have the same sequences
    of tokens as all tests that it has come by. -/
theorem mem_duplicates_iff {seen : List (List (Option Kind × String))}
    (hseen : ∀ texts, texts ∈ earlier.map f.tokenTexts ↔ texts ∈ seen) :
    c ∈ duplicates f earlier clauses ↔ RepeatsAfter f seen clauses c := by
  induction clauses generalizing earlier seen with
  | nil => exact iff_of_false List.not_mem_nil not_repeatsAfter_nil
  | cons clause rest ih =>
    rw [duplicates, repeatsAfter_cons, testTexts?]
    cases htest : test? f.tree clause with
    | none =>
      dsimp only [Option.map_none, Option.toList_none]
      rw [List.nil_append, ih hseen]
      simp
    | some test =>
      dsimp only [Option.map_some, Option.toList_some]
      rw [List.singleton_append]
      by_cases hkept : f.tokenTexts test ∈ earlier.map f.tokenTexts
      · rw [if_pos (any_tokensEqual_iff.mpr hkept), List.mem_cons, ih hseen]
        have htexts : f.tokenTexts test ∈ seen := (hseen _).mp hkept
        refine or_congr (by simp [htexts]) ⟨RepeatsAfter.imp fun _ => List.mem_cons_of_mem _,
          RepeatsAfter.imp fun texts hmem => ?_⟩
        rcases List.mem_cons.mp hmem with rfl | hmem
        · exact htexts
        · exact hmem
      · have htexts : f.tokenTexts test ∉ seen := mt (hseen _).mpr hkept
        have hkeep (texts : List (Option Kind × String)) :
            texts ∈ (earlier ++ [test]).map f.tokenTexts ↔ texts ∈ f.tokenTexts test :: seen := by
          rw [List.map_append, List.mem_append, hseen, List.mem_cons, or_comm, List.map_singleton,
            List.mem_singleton]
        rw [if_neg (mt any_tokensEqual_iff.mp hkept), ih hkeep]
        simp [htexts]

theorem duplicates_sublist (f : SourceFile) (earlier clauses : List NodeRef) :
    (duplicates f earlier clauses).Sublist clauses := by
  induction clauses generalizing earlier with
  | nil => exact .slnil
  | cons clause rest ih =>
    rw [duplicates]
    split
    · exact (ih _).cons clause
    · split_ifs
      · exact (ih _).cons_cons clause
      · exact (ih _).cons clause

/-- The clauses that are reported at a node. -/
def reported (f : SourceFile) (r : NodeRef) : List NodeRef :=
  match clauses? f.tree r with
  | none => []
  | some clauses => duplicates f [] clauses

/-- The report of a clause. -/
def report (f : SourceFile) (clause : NodeRef) : Report := .new "unexpected" (f.range clause)

/-- The diagnostic for a clause. -/
def finding (f : SourceFile) (category : Category) (clause : NodeRef) : Diagnostic :=
  info.diagnostic f.fileName category (report f clause)

theorem mem_reported_iff :
    c ∈ reported f r ↔ ∃ clauses, clauses? f.tree r = some clauses ∧ Repeats f clauses c := by
  rw [reported]
  cases clauses? f.tree r with
  | none => simp
  | some clauses =>
    have hnone (texts : List (Option Kind × String)) :
        texts ∈ ([] : List NodeRef).map f.tokenTexts ↔ texts ∈ [] := Iff.rfl
    dsimp only
    rw [mem_duplicates_iff hnone, repeatsAfter_nil]
    simp

theorem check_returns (f : SourceFile) (known : Option Oracle) (r : NodeRef) :
    (check r).Returns f known ((reported f r).map (report f)) := by
  refine Check.returns_bind Check.returns_file ?_
  rw [reported]
  cases clauses? f.tree r with
  | none => exact Check.returns_pure _
  | some clauses => exact Check.returns_pure _

variable {p : TypeLint.Program}

theorem places_inner (count : Nat) : (places 0 (count + 2)).tail.dropLast = places 1 count := by
  rw [places, List.range'_succ, List.map_cons, List.tail_cons, List.range'_concat, List.map_append,
    List.map_singleton, List.dropLast_concat]
  rfl

/-- The statements of a block stand between its braces. -/
theorem block?_of_form {x : Spot} {flags : Nat} {links : Payload} {gs : List Green}
    {labels : List String} (hgreen : x.green = .node .caseBlock flags links gs labels)
    (hform : Form .caseBlock flags links gs) :
    x.node.block? = some (x.children.map Spot.ref).tail.dropLast := by
  cases hform with
  | compositeType kind h | prefixed kind h | jump kind h => rcases h with h | h <;> cases h
  | block kind h opening closing items =>
    have hlength : (x.children.map Spot.ref).length = items.length + 2 := by
      rw [Spot.children_of_node hgreen, List.length_map, Spot.length_row]
      simp
    have hall := map_resolveLink_places (x.children.map Spot.ref)
    have hpayload : x.node.block? =
        some ((places 1 items.length).map (Emission.resolveLink (x.children.map Spot.ref))) := by
      rw [Spot.node, hgreen]
      rfl
    rw [hpayload, ← places_inner, ← hlength, List.map_dropLast, List.map_tail, hall]

/-- Every switch of a file has a case block, and its clauses are what stands between the braces of
    that block. -/
theorem exists_caseBlock (hf : Shown p f) (hkind : f.tree.kind? r = some .switchStatement)
    (hchildren : f.tree.children r ≠ []) :
    ∃ s, (f.tree.get? r).bind Node.switch? = some s ∧ s.caseBlock ∈ f.tree.children r ∧
      f.tree.kind? s.caseBlock = some .caseBlock ∧
      clauses? f.tree r = some (f.tree.children s.caseBlock).tail.dropLast ∧
      (f.tree.children s.caseBlock).tail.dropLast.Nodup := by
  obtain ⟨n, hn, hkind⟩ := Option.map_eq_some_iff.mp hkind
  obtain ⟨x, hx, rfl, rfl⟩ := hf.shows.exists_of_get? hn
  change x.green.kind = .switchStatement at hkind
  rw [hf.shows.children_eq hx] at hchildren
  obtain ⟨c, hc⟩ := List.exists_mem_of_ne_nil _ (mt (congrArg (List.map Spot.ref)) hchildren)
  obtain ⟨flags, links, gs, labels, hgreen, hform⟩ := exists_form_of_mem_children hx hc
  rw [hkind] at hgreen hform
  cases hform with
  | compositeType kind h | prefixed kind h | block kind h | jump kind h =>
    rcases h with h | h <;> cases h
  | switch word opening test closing block hblock =>
    obtain ⟨e, s, he, rfl, hs, href⟩ : ∃ (e : Spot) (s : Switch), e ∈ x.children ∧
        e.green = block ∧ x.node.switch? = some s ∧ s.caseBlock = e.ref := by
      rw [Spot.node, Spot.children_of_node hgreen, hgreen]
      exact ⟨_, _, List.mem_of_getElem? (i := 4) rfl, rfl, rfl, rfl⟩
    have hmem := Spot.children_subset_all hx he
    obtain ⟨flags', links', gs', labels', hgreen', hform'⟩ :=
      (hasShape_of_mem_all hmem).exists_form hblock.2
    rw [hblock.1] at hgreen' hform'
    have hswitch : (f.tree.get? x.ref).bind Node.switch? = some s := by
      rw [hf.shows.get?_eq hx, Option.bind_some, hs]
    refine ⟨s, hswitch, ?_, ?_, ?_, ?_⟩
    · rw [href, hf.shows.children_eq hx]
      exact List.mem_map_of_mem he
    · rw [href, hf.shows.kind?_eq hmem, hblock.1]
    · rw [clauses?, hswitch, href, hf.shows.children_eq hmem]
      dsimp only [Option.bind_eq_bind, Option.bind_some]
      rw [href, hf.shows.get?_eq hmem, Option.bind_some]
      exact block?_of_form hgreen' hform'
    · rw [href, hf.shows.children_eq hmem]
      exact e.nodup_map_ref_children.sublist
        ((List.dropLast_sublist _).trans (List.tail_sublist _))

/-- A node with clauses is a switch with a case block around them. -/
theorem exists_switch_of_clauses? (hf : Shown p f) (hclauses : clauses? f.tree r = some clauses) :
    f.tree.kind? r = some .switchStatement ∧ f.tree.children r ≠ [] ∧
      r ∈ f.tree.preorder f.root := by
  obtain ⟨s, hs, -⟩ := Option.bind_eq_some_iff.mp hclauses
  obtain ⟨n, hn, hs⟩ := Option.bind_eq_some_iff.mp hs
  have hpayload := payload?_of_switch? hs
  obtain ⟨x, hx, rfl, rfl, flags, links, gs, labels, hgreen, hform, -⟩ :=
    hf.exists_form hn hpayload rfl
  have hkind : x.node.kind = .switchStatement := beq_iff_eq.mp (of_payload? hpayload).2
  refine ⟨?_, ?_, hf.mem_preorder hx⟩
  · rw [Tree.kind?, hn, Option.map_some, hkind]
  · rw [hf.shows.children_eq hx]
    exact mt List.map_eq_nil_iff.mp (Spot.children_ne_nil_of_form hgreen hform)

/-- The clauses of a switch are different nodes two levels below it, and so none of another
    switch. -/
theorem of_clauses? (hf : Shown p f) (hclauses : clauses? f.tree r = some clauses) :
    clauses.Nodup ∧ ∀ c ∈ clauses, f.tree.parent (f.tree.parent c) = r ∧
      ∃ x ∈ (wholeSpot p).all, c = x.ref := by
  obtain ⟨hkind, hchildren, -⟩ := exists_switch_of_clauses? hf hclauses
  obtain ⟨s, -, hblock, -, hbetween, hnodup⟩ := exists_caseBlock hf hkind hchildren
  obtain rfl := Option.some.inj (hclauses.symm.trans hbetween)
  refine ⟨hnodup, fun c hc => ?_⟩
  have hchild := List.mem_of_mem_tail (List.dropLast_subset _ hc)
  refine ⟨?_, ?_⟩
  · rw [hf.parent_of_mem_children hchild, hf.parent_of_mem_children hblock]
  · obtain ⟨n, hn, hmem⟩ : ∃ n, f.tree.get? s.caseBlock = some n ∧ c ∈ n.children := by
      cases hn : f.tree.get? s.caseBlock with
      | none => simp [Tree.children, hn] at hchild
      | some n => exact ⟨n, rfl, by simpa [Tree.children, hn] using hchild⟩
    obtain ⟨x, hx, -, rfl⟩ := hf.shows.exists_of_get? hn
    obtain ⟨y, hy, rfl⟩ := List.mem_map.mp hmem
    exact ⟨y, Spot.children_subset_all hx hy, rfl⟩

/-- The diagnostic for a node of a built file lies in its text. -/
theorem fits_finding (hf : Shown p f) (category : Category) {x : Spot}
    (hx : x ∈ (wholeSpot p).all) : (finding f category x.ref).fits (byteLength f.text) = true := by
  have hrange : f.range x.ref = (x.start, x.stop) := by
    rw [SourceFile.range, hf.shows.get?_eq hx]
    rfl
  have hstop : x.stop ≤ byteLength f.text := by
    rw [hf.text]
    exact stop_le_of_mem_wholeSpot hx
  have hstart : (finding f category x.ref).start = x.start := congrArg Prod.fst hrange
  have hend : (finding f category x.ref).stop = x.stop := congrArg Prod.snd hrange
  have hfixes : (finding f category x.ref).fixes = [] := rfl
  rw [Diagnostic.fits_iff, hstart, hend, hfixes]
  exact ⟨⟨x.node_start_le_stop, hstop⟩, List.forall_mem_nil _⟩

theorem findings_reported (hf : Shown p f) (category : Category) (r : NodeRef) :
    ConfiguredRule.findings ⟨rule, category⟩ f ((reported f r).map (report f)) =
      (reported f r).map (finding f category) := by
  rw [ConfiguredRule.findings, List.map_map]
  refine List.filter_eq_self.mpr fun d hd => ?_
  obtain ⟨c, hc, rfl⟩ := List.mem_map.mp hd
  obtain ⟨clauses, hclauses, front, back, -, rfl, -⟩ := mem_reported_iff.mp hc
  obtain ⟨-, x, hx, rfl⟩ := (of_clauses? hf hclauses).2 c (by simp)
  exact fits_finding hf category hx

/-- No clause is reported twice: neither at one switch, nor at two. -/
theorem nodup_flatMap_reported (hf : Shown p f) {refs : List NodeRef} (hrefs : refs.Nodup) :
    (refs.flatMap (reported f)).Nodup := by
  have hbelow {r c : NodeRef} (hc : c ∈ reported f r) : f.tree.parent (f.tree.parent c) = r := by
    obtain ⟨clauses, hclauses, front, back, -, rfl, -⟩ := mem_reported_iff.mp hc
    exact ((of_clauses? hf hclauses).2 c (by simp)).1
  refine List.nodup_flatMap.mpr ⟨fun r _ => ?_, hrefs.imp fun {r r'} hne c hc hc' => ?_⟩
  · rw [reported]
    cases hclauses : clauses? f.tree r with
    | none => exact .nil
    | some clauses => exact (of_clauses? hf hclauses).1.sublist (duplicates_sublist f [] clauses)
  · exact hne ((hbelow hc).symm.trans (hbelow hc'))

/-- In every built file, comparing two nodes token by token is an equivalence, the equality of the
    sequences of the kinds and texts of their tokens. Every switch has its clauses between the
    braces of its case block. Alone, the rule reports exactly the clauses of a switch whose test has
    the tokens of the test of a clause in front of it, each once. -/
theorem lint_repeated {fileName : String} {p : TypeLint.Program} {b : Built}
    (hb : build fileName p = .ok b) (category : Category) (oracle : Option Oracle) :
    (Equivalence fun x y => b.file.tokensEqual x y = true) ∧
    (∀ x y, b.file.tokensEqual x y = true ↔ b.file.tokenTexts x = b.file.tokenTexts y) ∧
    (∀ r, b.file.tree.kind? r = some .switchStatement → b.file.tree.children r ≠ [] →
      ∃ s, (b.file.tree.get? r).bind Node.switch? = some s ∧
        s.caseBlock ∈ b.file.tree.children r ∧ b.file.tree.kind? s.caseBlock = some .caseBlock ∧
        clauses? b.file.tree r = some (b.file.tree.children s.caseBlock).tail.dropLast ∧
        (b.file.tree.children s.caseBlock).tail.dropLast.Nodup) ∧
    ∃ (repeated : List NodeRef) (found : List Diagnostic),
      Linter.lint ⟨[⟨rule, category⟩]⟩ b.file oracle = .ok (.ok (found, oracle)) ∧
      repeated.Nodup ∧
      (∀ c, c ∈ repeated ↔
        ∃ r clauses, clauses? b.file.tree r = some clauses ∧ Repeats b.file clauses c) ∧
      found.Perm (repeated.map (finding b.file category)) := by
  have hf := (shown_of_build hb).1
  refine ⟨SourceFile.tokensEqual_equivalence b.file, fun x y => SourceFile.tokensEqual_iff,
    fun r => exists_caseBlock hf, ?_⟩
  have hkinds : (ConfiguredRule.mk rule category).rule.subscription = .kinds [.switchStatement] :=
    rfl
  obtain ⟨found, hlint, hfound⟩ := Linter.lint_returns_of hkinds (List.nodup_singleton _)
    (fun r _ _ _ => check_returns b.file oracle r) (Check.returns_pure []) (.inr rfl)
  simp only [findings_reported hf] at hfound
  rw [← List.map_flatMap] at hfound
  refine ⟨_, found, hlint, nodup_flatMap_reported hf (hf.nodup_preorder.filter _), fun c => ?_,
    hfound⟩
  simp only [List.mem_flatMap, mem_reported_iff, List.mem_filter]
  constructor
  · rintro ⟨r, -, clauses, hclauses, hrepeats⟩
    exact ⟨r, clauses, hclauses, hrepeats⟩
  · rintro ⟨r, clauses, hclauses, hrepeats⟩
    obtain ⟨hkind, -, hwalk⟩ := exists_switch_of_clauses? hf hclauses
    refine ⟨r, ⟨hwalk, ?_⟩, clauses, hclauses, hrepeats⟩
    rw [hkind]
    rfl

/-- A switch with a case that is repeated twice, around another switch with a repeated case. -/
def repeatedCases : TypeLint.Program :=
  [.statement (.switch (.identifier "x")
    [.caseOf (.identifier "a")
      [.statement (.switch (.identifier "y") [.caseOf (.number "1") [], .caseOf (.number "1") []])],
      .caseOf (.commentBefore "/**/" (.identifier "a")) [], .caseOf (.identifier "a") []])]

theorem lint_repeated_nested :
    ∃ b found, build "a.ts" repeatedCases = .ok b ∧
      Linter.lint ⟨[⟨rule, .error⟩]⟩ b.file none = .ok (.ok (found, none)) ∧
      ∀ c ∈ [some 20, some 28, some 32], finding b.file .error c ∈ found := by
  obtain ⟨b, hb⟩ : ∃ b, build "a.ts" repeatedCases = .ok b := exists_build _ (by decide +kernel)
  obtain ⟨-, -, -, repeated, found, hlint, -, hrepeated, hfound⟩ := lint_repeated hb .error none
  obtain ⟨⟨hinner, htexts⟩, houter, htexts'⟩ :
      (clauses? b.file.tree (some 23) = some [some 16, some 20] ∧
        ∀ c ∈ [some 16, some 20], testTexts? b.file c = some [(some .numericLiteral, "1")]) ∧
      clauses? b.file.tree (some 35) = some [some 24, some 28, some 32] ∧
        ∀ c ∈ [some 24, some 28, some 32], testTexts? b.file c = some [(some .identifier, "a")] :=
    of_build hb (fun b =>
      (clauses? b.file.tree (some 23) = some [some 16, some 20] ∧
        ∀ c ∈ [some 16, some 20], testTexts? b.file c = some [(some .numericLiteral, "1")]) ∧
      clauses? b.file.tree (some 35) = some [some 24, some 28, some 32] ∧
        ∀ c ∈ [some 24, some 28, some 32], testTexts? b.file c = some [(some .identifier, "a")])
      (by decide +kernel)
  refine ⟨b, found, hb, hlint, fun c hc => hfound.mem_iff.mpr (List.mem_map_of_mem ?_)⟩
  rw [hrepeated]
  simp only [List.mem_cons, List.not_mem_nil, or_false] at hc
  rcases hc with rfl | rfl | rfl
  · exact ⟨some 23, _, hinner, [some 16], [], _, rfl, htexts _ (by simp), some 16, by simp,
      htexts _ (by simp)⟩
  · exact ⟨some 35, _, houter, [some 24], [some 32], _, rfl, htexts' _ (by simp), some 24, by simp,
      htexts' _ (by simp)⟩
  · exact ⟨some 35, _, houter, [some 24, some 28], [], _, rfl, htexts' _ (by simp), some 28,
      by simp, htexts' _ (by simp)⟩

end TypeLint.Rules.DuplicateCase
