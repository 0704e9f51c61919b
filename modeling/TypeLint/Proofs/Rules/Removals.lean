import TypeLint.Proofs.Emission.Comments
import TypeLint.Proofs.Emission.Neighbours
import TypeLint.Proofs.Lint.Runs
import TypeLint.Proofs.Program.CommentOrder
import TypeLint.Proofs.Program.Lossless
import TypeLint.Proofs.Program.RemovalPatch
import TypeLint.Rules.NonNullAssertion
import TypeLint.Rules.OptionalChain
import TypeLint.Rules.TypeAssertion

namespace TypeLint.Rules

open Syntax Check MemberNullability

variable {f : SourceFile} {r : NodeRef}

/-- A type assertion is reported with the edit that takes it away. -/
theorem TypeAssertion.check_gives (o : TypeAssertion.Options) :
    (TypeAssertion.check o r).Gives f fun reports => reports = [] ∨ ∃ n a edit,
      f.tree.get? r = some n ∧ n.assertion? = some a ∧
        TypeAssertion.removal f r n.kind a = .ok edit ∧
          reports = [TypeAssertion.report f r edit] := by
  rw [TypeAssertion.check]
  refine gives_bind gives_file ?_
  rintro _ rfl
  split
  · exact gives_pure (.inl rfl)
  · next n hn =>
    refine gives_bind (gives_orFail _ _) fun a ha => ?_
    split
    · exact gives_pure (.inl rfl)
    refine gives_bind (gives_any _) fun t _ => ?_
    refine gives_bind (gives_any _) fun cast _ => ?_
    split
    · exact gives_pure (.inl rfl)
    refine gives_bind (gives_any _) fun uncast _ => ?_
    split
    · split
      · next edit hedit => exact gives_pure (.inr ⟨n, a, edit, hn, ha, hedit, rfl⟩)
      · exact gives_fail _ _
    · exact gives_pure (.inl rfl)

/-- A non-null assertion is reported with one of two messages. -/
theorem NonNullAssertion.check_gives :
    (NonNullAssertion.check r).Gives f fun reports =>
      reports = [] ∨ ∃ messageId, NonNullAssertion.reports f r messageId = .ok reports := by
  have hnone : ([] : List Report) = [] ∨
      ∃ messageId, NonNullAssertion.reports f r messageId = .ok [] := .inl rfl
  have hreports (messageId : String) : (lift (NonNullAssertion.reports f r messageId)).Gives f
      fun reports => reports = [] ∨
        ∃ messageId, NonNullAssertion.reports f r messageId = .ok reports :=
    (gives_lift _).imp fun _ h => .inr ⟨messageId, h⟩
  rw [NonNullAssertion.check]
  refine gives_bind gives_file ?_
  rintro _ rfl
  refine gives_bind (gives_any _) fun expression _ => ?_
  split
  · split
    · exact hreports _
    · exact gives_pure hnone
  refine gives_bind (gives_any _) fun t _ => ?_
  refine gives_bind (gives_any _) fun operand _ => ?_
  split
  · split
    · exact gives_pure hnone
    · exact hreports _
  · split
    · exact gives_pure hnone
    · split
      · exact hreports _
      · exact gives_pure hnone

theorem ExtraNonNullAssertion.check_gives :
    (ExtraNonNullAssertion.check r).Gives f fun reports => reports = [] ∨
      ∃ messageId description,
        ExtraNonNullAssertion.reports f r messageId description = .ok reports := by
  rw [ExtraNonNullAssertion.check]
  refine gives_bind gives_file ?_
  rintro _ rfl
  split
  · exact gives_pure (.inl rfl)
  · split
    · exact (gives_lift _).imp fun _ h => .inr ⟨_, _, h⟩
    · exact gives_pure (.inl rfl)

/-- An optional step is reported at its `?.`. -/
theorem OptionalChain.check_gives :
    (OptionalChain.check r).Gives f fun reports => reports = [] ∨ ∃ receiver token,
      chainLink? f.tree r = some (receiver, true) ∧
        f.tree.tokenAfter? receiver (fun n => n.kind == .questionDotToken) = some token ∧
          reports = [OptionalChain.report f r token] := by
  rw [OptionalChain.check]
  refine gives_bind gives_file ?_
  rintro _ rfl
  split
  · exact gives_pure (.inl rfl)
  · exact gives_pure (.inl rfl)
  · next receiver hlink =>
    refine gives_bind (gives_any _) fun readsIndex _ => ?_
    split
    · exact gives_pure (.inl rfl)
    refine gives_bind (gives_any _) fun optionable _ => ?_
    split
    · exact gives_pure (.inl rfl)
    refine gives_bind (gives_orFail _ _) fun token htoken => ?_
    exact gives_pure (.inr ⟨receiver, token, hlink, htoken, rfl⟩)

end TypeLint.Rules

namespace TypeLint.Rules

open Syntax Program Text Green

/-- The range in which an assertion or an optional step is reported: that of the assertion, or that
    of the `?.`. -/
def reportedRange? (f : SourceFile) (r : NodeRef) : Option (Nat × Nat) := do
  let n ← f.tree.get? r
  match n.kind with
  | .asExpression | .typeAssertionExpression | .nonNullExpression => some (f.range r)
  | .propertyAccessExpression | .elementAccessExpression =>
    n.access?.bind fun a => if a.questionDot.isSome then some (f.range a.questionDot) else none
  | .callExpression =>
    n.call?.bind fun c => if c.questionDot.isSome then some (f.range c.questionDot) else none
  | _ => none

/-- A rule reports nothing at a spot, or it reports the assertion or the optional step there with
    the edit that takes it away. -/
def ReportsRemoval (f : SourceFile) (x : Spot) (reports : List Report) : Prop :=
  reports = [] ∨ ∃ report e, reports = [report] ∧ report.fixes.map Fix.edits = [[e]] ∧
    removal? f.fileName x.offset x.green = some e ∧
    reportedRange? f x.ref = some (report.start, report.stop)

theorem cutEdit_eq {file : String} {offset start stop : Nat} {front cut : List Green}
    {kept new : String} (hstart : offset + byteLength (textAll front) + byteLength kept = start)
    (hstop : offset + byteLength (textAll front) + byteLength (textAll cut) = stop) :
    Spot.cutEdit file offset front cut kept new = ⟨file, start, stop, new⟩ := by
  rw [Spot.cutEdit, hstart, hstop]

section

variable {p : TypeLint.Program} {f : SourceFile} {x : Spot} (hp : Disciplined p)
  (hplain : CommentFree p) (hf : Shown p f) (hx : x ∈ (wholeSpot p).all)

theorem stop_eq_of_node {kind : Kind} {flags : Nat} {payload : Payload} {operand : Green}
    {others : List Green} {labels : List String}
    (hgreen : x.green = .node kind flags payload (operand :: others) labels) :
    x.offset + byteLength (textAll [operand]) + byteLength (textAll others) = x.stop := by
  rw [Spot.stop, hgreen, Green.text, textAll, textAll, textAll, String.append_empty,
    byteLength_append, Nat.add_assoc]

include hf hx

/-- The comments in front of a keyword end in the trivia in front of it, which they cut in two. -/
theorem exists_kept_of_comments :
    ∃ kept dropped, x.green.lead = kept ++ dropped ∧
      (f.leadingComments x.ref = [] → kept = "") ∧ x.offset + byteLength kept =
        match (f.leadingComments x.ref).getLast? with
        | some comment => max comment.stop x.offset
        | none => x.offset := by
  split
  · next comment hcomment =>
    have hmem := List.mem_of_getLast? hcomment
    have hboundary := (hf.isBoundary_comment (Shown.mem_comments_of_mem_leadingComments hmem)).2
    have hsome : f.leadingComments x.ref ≠ [] := List.ne_nil_of_mem hmem
    rw [SourceFile.leadingComments, hf.shows.get?_eq hx] at hmem
    obtain ⟨hin, hpos, hstop⟩ := (Comment.mem_inRange_iff hf.comments_ordered).mp hmem
    have hnonempty := hf.comments_ordered.nonempty comment (Array.mem_toList_iff.mpr hin)
    have hpos : x.offset ≤ comment.pos := hpos
    have hstop : comment.stop ≤ x.start := hstop
    obtain ⟨before, after, htext, hoffset⟩ := Spot.exists_text_eq hx
    rw [x.green.text_eq] at htext
    have hzero : x.offset = byteLength before := hoffset.trans (Nat.zero_add _)
    obtain ⟨front, rest, hfront, hlength⟩ := isBoundary_iff.mp hboundary
    have hwhole : before ++ (x.green.lead ++ (x.green.body ++ after)) = front ++ rest := by
      rw [← hfront, hf.text]
      refine Eq.trans ?_ htext.symm
      simp only [String.append_assoc]
    obtain ⟨kept, rfl, hrest⟩ := exists_append_of_le hwhole (by omega)
    rw [byteLength_append] at hlength
    rw [Spot.start] at hstop
    obtain ⟨dropped, hlead, -⟩ := exists_append_of_le hrest.symm (by omega)
    refine ⟨kept, dropped, hlead, fun hnone => absurd hnone hsome, ?_⟩
    rw [max_eq_left (hpos.trans hnonempty.le), hzero, hlength]
  · exact ⟨"", x.green.lead, String.empty_append.symm, fun _ => rfl, rfl⟩

/-- What follows the operand of a type assertion is taken out, without the comments in front of the
    keyword. -/
theorem exists_removal_asType {flags : Nat} {inner type : Green} {lead : String}
    {labels : List String}
    (hgreen : x.green = .node .asExpression flags (.assertion ⟨some 0, some 2⟩)
      [inner, mark lead .asKeyword, type] labels) {a : Assertion}
    (ha : x.node.assertion? = some a) :
    ∃ kept dropped, lead = kept ++ dropped ∧
      (f.leadingComments (Spot.mk (x.first + inner.size) (x.offset + byteLength inner.text) x.ref
        (mark lead .asKeyword)).ref = [] → kept = "") ∧
      TypeAssertion.removal f x.ref .asExpression a =
        .ok (Spot.cutEdit f.fileName x.offset [inner] [mark lead .asKeyword, type] kept "") := by
  let operand : Spot := ⟨x.first, x.offset, x.ref, inner⟩
  let word : Spot :=
    ⟨x.first + inner.size, x.offset + byteLength inner.text, x.ref, mark lead .asKeyword⟩
  have hchildren := Spot.children_of_node hgreen
  have hoperand : operand ∈ (wholeSpot p).all :=
    Spot.children_subset_all hx (by rw [hchildren]; exact List.mem_cons_self ..)
  have hword : word ∈ (wholeSpot p).all :=
    Spot.children_subset_all hx
      (by rw [hchildren]; exact List.mem_cons_of_mem _ (List.mem_cons_self ..))
  have hnode : a.expression = operand.ref := by
    obtain ⟨first, offset, parent, green⟩ := x
    subst hgreen
    exact (congrArg Assertion.expression (Option.some.inj ha)).symm
  have hkeyword : f.tree.tokenAfter? operand.ref (fun n => n.kind == .asKeyword) =
      some word.ref :=
    hf.shows.tokenAfter?_eq [] hx hchildren rfl rfl rfl
  obtain ⟨kept, dropped, hlead, hkept, hstart⟩ := exists_kept_of_comments hf hword
  refine ⟨kept, dropped, hlead, hkept, ?_⟩
  have hoffset : word.offset = x.offset + byteLength (textAll [inner]) := by
    rw [textAll, textAll, String.append_empty]
  rw [TypeAssertion.removal, if_neg (by decide), TypeAssertion.removeSuffix, hnode, hkeyword]
  simp only [SourceFile.range_eq hf.shows hoperand, SourceFile.range_eq hf.shows hx]
  exact congrArg Except.ok (cutEdit_eq (hoffset ▸ hstart) (stop_eq_of_node hgreen)).symm

/-- The finding at a non-null assertion takes the exclamation mark out. -/
theorem nonNull_reports_eq {flags : Nat} {payload : Payload} {inner : Green} {lead : String}
    {labels : List String}
    (hgreen : x.green = .node .nonNullExpression flags payload [inner, mark lead .exclamationToken]
      labels) (messageId description : String) :
    ExtraNonNullAssertion.reports f x.ref messageId description =
      .ok [(Report.new messageId (f.range x.ref)).fix ⟨description,
        [Spot.cutEdit f.fileName x.offset [inner] [mark lead .exclamationToken] lead ""]⟩] := by
  have hstop := stop_eq_of_node hgreen
  have hmark : byteLength (textAll [mark lead .exclamationToken]) = byteLength lead + 1 := by
    rw [textAll, textAll, String.append_empty]
    exact byteLength_append lead "!"
  have hcut : Spot.cutEdit f.fileName x.offset [inner] [mark lead .exclamationToken] lead "" =
      ⟨f.fileName, _, x.stop, ""⟩ := cutEdit_eq rfl hstop
  rw [hmark, ← Nat.add_assoc] at hstop
  rw [hcut, ExtraNonNullAssertion.reports, SourceFile.range_eq hf.shows hx, ← hstop]
  rfl

include hp hplain

theorem removal_as {flags : Nat} {payload : Payload} {gs : List Green} {labels : List String}
    (hgreen : x.green = .node .asExpression flags payload gs labels) {a : Assertion}
    (ha : x.node.assertion? = some a) :
    ∃ e, TypeAssertion.removal f x.ref .asExpression a = .ok e ∧
      removal? f.fileName x.offset x.green = some e := by
  have hform := hasForm_of_mem_wholeSpot hp hx
  have htight := ((whole_tight hplain).of_mem_all hx).self
  rw [hgreen] at hform htight
  have hshape := Form.shape hform rfl
  cases hshape with
  | asType inner type lead htype =>
    obtain rfl : lead = " " := htight 1 " " rfl rfl
    obtain ⟨kept, dropped, -, hkept, hremoval⟩ := exists_removal_asType hf hx hgreen ha
    have hword := Spot.children_subset_all hx (by
      rw [Spot.children_of_node hgreen]
      exact List.mem_cons_of_mem _ (List.mem_cons_self ..))
    obtain rfl := hkept (SourceFile.leadingComments_eq_nil hf.shows hf.comments_eq hf.text rfl
      (whole_kindFits hp) hword rfl rfl)
    exact ⟨_, hremoval, by rw [hgreen]; rfl⟩

omit hplain in
theorem removal_typeAssertion {flags : Nat} {payload : Payload} {gs : List Green}
    {labels : List String}
    (hgreen : x.green = .node .typeAssertionExpression flags payload gs labels) {a : Assertion}
    (ha : x.node.assertion? = some a) :
    ∃ e, TypeAssertion.removal f x.ref .typeAssertionExpression a = .ok e ∧
      removal? f.fileName x.offset x.green = some e := by
  have hform := hasForm_of_mem_wholeSpot hp hx
  obtain ⟨first, offset, parent, green⟩ := x
  subst hgreen
  cases Form.shape hform rfl with
  | typeAssertion type inner lead lead' htype =>
    let x : Spot := ⟨first, offset, parent, .node .typeAssertionExpression flags
      (.assertion ⟨some 3, some 1⟩)
      [mark lead .lessThanToken, type, mark lead' .greaterThanToken, inner] labels⟩
    let opening : Spot := ⟨first, offset, x.ref, mark lead .lessThanToken⟩
    let middle : Spot := ⟨first + 1, offset + byteLength (lead ++ "<"), x.ref, type⟩
    let closing : Spot := ⟨first + 1 + type.size,
      offset + byteLength (lead ++ "<") + byteLength type.text, x.ref,
      mark lead' .greaterThanToken⟩
    obtain rfl : (⟨_, middle.ref⟩ : Assertion) = a := Option.some.inj ha
    have hopening : opening ∈ (wholeSpot p).all :=
      Spot.children_subset_all hx (List.mem_cons_self ..)
    have hclosing : closing ∈ (wholeSpot p).all :=
      Spot.children_subset_all hx
        (List.mem_cons_of_mem _ (List.mem_cons_of_mem _ (List.mem_cons_self ..)))
    have hbefore : f.tree.tokenBefore? middle.ref (fun n => n.kind == .lessThanToken) =
        some opening.ref :=
      hf.shows.tokenBefore?_eq [] hx rfl rfl rfl rfl
    have hafter : f.tree.tokenAfter? middle.ref (fun n => n.kind == .greaterThanToken) =
        some closing.ref :=
      hf.shows.tokenAfter?_eq [opening] hx rfl rfl rfl rfl
    refine ⟨f.removeRange opening.start closing.stop, ?_, congrArg some (cutEdit_eq ?_ ?_)⟩
    · rw [TypeAssertion.removal, if_pos rfl, TypeAssertion.removeBrackets, hbefore]
      simp only [hafter, SourceFile.range_eq hf.shows hopening,
        SourceFile.range_eq hf.shows hclosing]
    · rfl
    · have hspelling : (mark lead .lessThanToken).text = lead ++ "<" := rfl
      simp only [closing, Spot.stop, textAll, hspelling, byteLength_append, byteLength_empty]
      omega

/-- An assertion can be taken away, and the edit is the one that takes it away from the tree. -/
theorem exists_removal
    (hkind : x.green.kind = .asExpression ∨ x.green.kind = .typeAssertionExpression)
    {a : Assertion} (ha : x.node.assertion? = some a) :
    ∃ e, TypeAssertion.removal f x.ref x.node.kind a = .ok e ∧
      removal? f.fileName x.offset x.green = some e := by
  have hnode : x.node.kind = x.green.kind := rfl
  have htoken : x.green.kind.isToken = false := by
    rcases hkind with hkind | hkind <;> rw [hkind] <;> rfl
  obtain ⟨flags, payload, gs, labels, hgreen⟩ :=
    (hasForm_of_mem_wholeSpot hp hx).exists_node htoken
  rw [hnode]
  rcases hkind with hkind | hkind <;> rw [hkind] at hgreen ⊢
  · exact removal_as hp hplain hf hx hgreen ha
  · exact removal_typeAssertion hp hf hx hgreen ha

omit hp hplain in
theorem reportedRange?_eq (hkind : x.green.kind = .asExpression ∨
      x.green.kind = .typeAssertionExpression ∨ x.green.kind = .nonNullExpression) :
    reportedRange? f x.ref = some (f.range x.ref) := by
  have hnode : x.node.kind = x.green.kind := rfl
  rw [reportedRange?, hf.shows.get?_eq hx]
  simp only [bind, Option.bind_some, hnode]
  rcases hkind with hkind | hkind | hkind <;> rw [hkind]

theorem typeAssertion_reports (o : TypeAssertion.Options)
    (hkind : x.green.kind = .asExpression ∨ x.green.kind = .typeAssertionExpression) :
    (TypeAssertion.check o x.ref).Gives f (ReportsRemoval f x) := by
  refine (TypeAssertion.check_gives o).imp fun reports hreports => ?_
  rcases hreports with rfl | ⟨n, a, edit, hn, ha, hedit, rfl⟩
  · exact .inl rfl
  · obtain rfl := Option.some.inj ((hf.shows.get?_eq hx).symm.trans hn)
    obtain ⟨e, he, hremoval⟩ := exists_removal hp hplain hf hx hkind ha
    obtain rfl : e = edit := Except.ok.inj (he.symm.trans hedit)
    exact .inr ⟨_, e, rfl, rfl, hremoval, reportedRange?_eq hf hx (hkind.imp_right .inl)⟩

/-- The finding at a non-null assertion takes it away. -/
theorem nonNull_reports (hkind : x.green.kind = .nonNullExpression)
    {messageId description : String} {reports : List Report}
    (h : ExtraNonNullAssertion.reports f x.ref messageId description = .ok reports) :
    ReportsRemoval f x reports := by
  have hform := hasForm_of_mem_wholeSpot hp hx
  have htight := ((whole_tight hplain).of_mem_all hx).self
  obtain ⟨flags, payload, gs, labels, hgreen⟩ :=
    (hasForm_of_mem_wholeSpot hp hx).exists_node (by rw [hkind]; rfl)
  rw [hkind] at hgreen
  rw [hgreen] at hform htight
  have hshape := Form.shape hform rfl
  cases hshape with
  | nonNull inner lead =>
    obtain rfl : lead = "" := htight 1 "" rfl rfl
    obtain rfl := Except.ok.inj ((nonNull_reports_eq hf hx hgreen _ _).symm.trans h)
    exact .inr ⟨_, _, rfl, rfl, by rw [hgreen]; rfl, reportedRange?_eq hf hx (.inr (.inr hkind))⟩

theorem nonNullAssertion_reports (hkind : x.green.kind = .nonNullExpression) :
    (NonNullAssertion.check x.ref).Gives f (ReportsRemoval f x) := by
  refine NonNullAssertion.check_gives.imp fun reports hreports => ?_
  rcases hreports with rfl | ⟨messageId, hreports⟩
  · exact .inl rfl
  · exact nonNull_reports hp hplain hf hx hkind hreports

theorem extraNonNullAssertion_reports (hkind : x.green.kind = .nonNullExpression) :
    (ExtraNonNullAssertion.check x.ref).Gives f (ReportsRemoval f x) := by
  refine ExtraNonNullAssertion.check_gives.imp fun reports hreports => ?_
  rcases hreports with rfl | ⟨messageId, description, hreports⟩
  · exact .inl rfl
  · exact nonNull_reports hp hplain hf hx hkind hreports

omit hp hplain in
/-- The `?.` behind a receiver is found, and a text in its place is the edit that is asked for. -/
theorem questionDot_found {kind : Kind} {flags : Nat} {payload : Payload} {inner : Green}
    {lead kept : String} (new : String) {after : List Green} {labels : List String}
    (hgreen : x.green =
      .node kind flags payload (inner :: mark lead .questionDotToken :: after) labels)
    (hkept : byteLength kept = byteLength lead) :
    let word : Spot := ⟨x.first + inner.size, x.offset + byteLength inner.text, x.ref,
      mark lead .questionDotToken⟩
    f.tree.tokenAfter? (Spot.mk x.first x.offset x.ref inner).ref
        (fun n => n.kind == .questionDotToken) = some word.ref ∧
      Spot.cutEdit f.fileName x.offset [inner] [mark lead .questionDotToken] kept new =
        f.replace word.ref new := by
  intro word
  have hchildren := Spot.children_of_node hgreen
  have hword : word ∈ (wholeSpot p).all :=
    Spot.children_subset_all hx (by rw [hchildren]; exact List.mem_cons_of_mem _ (List.mem_cons_self ..))
  refine ⟨hf.shows.tokenAfter?_eq [] hx hchildren rfl rfl rfl, ?_⟩
  rw [SourceFile.replace, SourceFile.range_eq hf.shows hword]
  refine cutEdit_eq ?_ ?_
  · rw [textAll, textAll, String.append_empty, hkept]
    rfl
  · rw [textAll, textAll, String.append_empty, textAll, textAll, String.append_empty]
    rfl

/-- The `?.` of an optional step is found, and putting the plain step in its place takes the
    optional one away. -/
theorem exists_questionDot
    (hkind : x.green.kind = .propertyAccessExpression ∨ x.green.kind = .elementAccessExpression ∨
      x.green.kind = .callExpression) {receiver : NodeRef}
    (hlink : MemberNullability.chainLink? f.tree x.ref = some (receiver, true)) :
    ∃ token, f.tree.tokenAfter? receiver (fun n => n.kind == .questionDotToken) = some token ∧
      removal? f.fileName x.offset x.green =
        some (f.replace token (OptionalChain.plainStep (f.tree.kind? x.ref))) ∧
      reportedRange? f x.ref = some (f.range token) := by
  have hform := hasForm_of_mem_wholeSpot hp hx
  have htight := ((whole_tight hplain).of_mem_all hx).self
  have htoken : x.green.kind.isToken = false := by
    rcases hkind with hkind | hkind | hkind <;> rw [hkind] <;> rfl
  obtain ⟨flags, payload, gs, labels, hgreen⟩ :=
    (hasForm_of_mem_wholeSpot hp hx).exists_node htoken
  obtain ⟨first, offset, parent, green⟩ := x
  rw [hf.shows.kind?_eq hx]
  rw [MemberNullability.chainLink?, hf.shows.get?_eq hx] at hlink
  rw [reportedRange?, hf.shows.get?_eq hx]
  rcases hkind with hkind | hkind | hkind
  · rw [hkind] at hgreen
    obtain rfl : green = _ := hgreen
    cases Form.shape hform rfl with
    | property inner name optional lead =>
      cases optional
      · cases hlink
      · cases hlink
        obtain ⟨hafter, hedit⟩ := questionDot_found hf hx "." rfl rfl
        exact ⟨_, hafter, congrArg some hedit, rfl⟩
  · rw [hkind] at hgreen
    obtain rfl : green = _ := hgreen
    cases Form.shape hform rfl with
    | element inner argument closing optional lead lead' =>
      cases optional
      · cases hlink
      · cases hlink
        obtain rfl : lead = "" := htight 1 "" rfl rfl
        obtain ⟨hafter, hedit⟩ := questionDot_found hf hx "" rfl rfl
        exact ⟨_, hafter, congrArg some hedit, rfl⟩
  · rw [hkind] at hgreen
    obtain rfl : green = _ := hgreen
    cases Form.shape hform rfl with
    | call inner closing items optional lead lead' =>
      cases optional
      · cases hlink
      · cases hlink
        obtain rfl : lead = "" := htight 1 "" rfl rfl
        obtain ⟨hafter, hedit⟩ := questionDot_found hf hx "" rfl rfl
        exact ⟨_, hafter, congrArg some hedit, rfl⟩

theorem optionalChain_reports
    (hkind : x.green.kind = .propertyAccessExpression ∨ x.green.kind = .elementAccessExpression ∨
      x.green.kind = .callExpression) :
    (OptionalChain.check x.ref).Gives f (ReportsRemoval f x) := by
  refine OptionalChain.check_gives.imp fun reports hreports => ?_
  rcases hreports with rfl | ⟨receiver, found, hlink, hfound, rfl⟩
  · exact .inl rfl
  · obtain ⟨token, htoken, hremoval, hrange⟩ := exists_questionDot hp hplain hf hx hkind hlink
    obtain rfl : token = found := Option.some.inj (htoken.symm.trans hfound)
    exact .inr ⟨_, _, rfl, rfl, hremoval, hrange⟩

end

end TypeLint.Rules
