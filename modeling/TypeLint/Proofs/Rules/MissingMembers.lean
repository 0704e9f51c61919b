import TypeLint.Proofs.Types.Canonical
import TypeLint.Proofs.Rules.SteadyRules
import TypeLint.Proofs.Lint.Outcomes
import TypeLint.Proofs.Text.Searching

namespace TypeLint.Types.Store

variable {s : Store}

theorem mem_atomicParts_iff {id part : TypeId} :
    part ∈ s.atomicParts id ↔ ∃ m ∈ s.unionMembers id, part ∈ s.intersectionMembers m :=
  List.mem_flatMap

/-- A part stands among the parts of a type as often as there are members of the union that it
    stands in. -/
theorem Canonical.count_atomicParts (h : s.Canonical) (id part : TypeId) :
    (s.atomicParts id).count part =
      (s.unionMembers id).countP fun m => (s.intersectionMembers m).contains part := by
  rw [atomicParts]
  induction s.unionMembers id with
  | nil => rfl
  | cons m rest ih =>
    have hdistinct : (s.intersectionMembers m).Nodup :=
      (h.pairwise_members .intersection m).imp Nat.ne_of_lt
    rw [List.flatMap_cons, List.count_append, ih, List.countP_cons, Nat.add_comm,
      hdistinct.count]
    simp only [List.contains_iff_mem]

/-- A part of a type is listed once just if it stands in one member of the union only. -/
theorem Canonical.count_atomicParts_eq_one_iff (h : s.Canonical) {id part : TypeId} :
    (s.atomicParts id).count part = 1 ↔
      ∃! m, m ∈ s.unionMembers id ∧ part ∈ s.intersectionMembers m := by
  have hdistinct : (s.unionMembers id).Nodup :=
    (h.pairwise_members .union id).imp Nat.ne_of_lt
  rw [h.count_atomicParts, List.countP_eq_length_filter,
    ← List.toFinset_card_of_nodup (hdistinct.filter _), Finset.card_eq_one_iff_existsUnique]
  simp only [List.mem_toFinset, List.mem_filter, List.contains_iff_mem]

end TypeLint.Types.Store

namespace TypeLint.Rules.SwitchExhaustiveness

open Syntax Binding Check TypeLint.Types TypeLint.Types.Store

variable {t : Oracle} {f : SourceFile}

/-- A clause among the given ones has a test of this type. A type parameter stands for its
    constraint. -/
def IsCase (t : Oracle) (f : SourceFile) (clauses : List NodeRef) (id : TypeId) : Prop :=
  ∃ clause ∈ clauses, ∃ data declared, (f.tree.get? clause).bind Node.caseClause? = some data ∧
    data.expression.isNone = false ∧ t.typeAt? data.expression = some declared ∧
    t.store.baseConstraint declared = id

theorem isCase_cons_iff {clause : NodeRef} {rest : List NodeRef} {id : TypeId} :
    IsCase t f (clause :: rest) id ↔ IsCase t f [clause] id ∨ IsCase t f rest id := by
  simp only [IsCase, List.exists_mem_cons_iff, List.not_mem_nil, false_and, exists_false, or_false]

theorem isCase_singleton_iff {clause : NodeRef} {id : TypeId} {data : CaseClause}
    (hdata : (f.tree.get? clause).bind Node.caseClause? = some data) :
    IsCase t f [clause] id ↔ data.expression.isNone = false ∧
      ∃ declared, t.typeAt? data.expression = some declared ∧
        t.store.baseConstraint declared = id := by
  constructor
  · rintro ⟨_, hclause, data', declared, hdata', htest, htype⟩
    obtain rfl := List.mem_singleton.mp hclause
    obtain rfl := Option.some.inj (hdata.symm.trans hdata')
    exact ⟨htest, declared, htype⟩
  · rintro ⟨htest, declared, htype⟩
    exact ⟨clause, List.mem_singleton_self _, data, declared, hdata, htest, htype⟩

theorem givesOn_caseTypes (h : t.Closed) (clauses : List NodeRef) :
    (caseTypes f.tree clauses).GivesOn t f fun found =>
      ∀ id, id ∈ found.1 ↔ IsCase t f clauses id := by
  induction clauses with
  | nil => exact givesOn_pure fun id => ⟨nofun, fun ⟨_, hclause, _⟩ => nomatch hclause⟩
  | cons clause rest ih =>
    have hrest : (caseTypes f.tree rest).Steady t f := steady_caseTypes h f.tree rest
    rw [caseTypes]
    split
    · next hother =>
      refine ih.imp fun found hfound id => ?_
      rw [hfound, isCase_cons_iff, or_iff_right]
      rintro ⟨_, hclause, data, _, hdata, -⟩
      obtain rfl := List.mem_singleton.mp hclause
      cases hother.symm.trans hdata
    · next data hdata =>
      split_ifs with htest
      · refine givesOn_bind_of hrest ih fun found _ hfound => givesOn_pure fun id => ?_
        rw [hfound, isCase_cons_iff, isCase_singleton_iff hdata, htest, or_iff_right]
        exact fun hcase => Bool.noConfusion hcase.1
      · refine givesOn_bind_of (agree_constrainedTypeAt h _) (givesOn_constrainedTypeAt h _) ?_
        rintro _ - ⟨declared, htype, rfl⟩
        refine givesOn_bind_of hrest ih fun found _ hfound => givesOn_pure fun id => ?_
        rw [List.mem_cons, hfound, isCase_cons_iff, isCase_singleton_iff hdata, htype]
        simp [htest, eq_comm]

/-- A part of a type with one value that no case has as its type. -/
def IsMissing (t : Oracle) (f : SourceFile) (clauses : List NodeRef) (type id : TypeId) : Prop :=
  t.store.isLiteralLike id = true ∧
    (∃ part ∈ t.store.unionMembers type, id ∈ t.store.intersectionMembers part) ∧
    ¬IsCase t f clauses id

/-- What a check finds about a switch over a type: its parts and the types of its cases are those
    of the table. -/
structure Covers (t : Oracle) (f : SourceFile) (r : NodeRef) (type : TypeId) (c : Coverage) :
    Prop where
  node : (f.tree.get? r).bind Node.switch? = some ⟨c.discriminant, c.caseBlock⟩
  clauses : c.clauses = clausesOf f.tree c.caseBlock
  discriminant : ∃ declared, t.typeAt? c.discriminant = some declared ∧
    t.store.baseConstraint declared = type
  enumName : c.enumName = t.store.enumName? type
  missing : ∃ cases, c.missing = missingParts t.store type cases ∧
    ∀ id, id ∈ cases ↔ IsCase t f c.clauses id

theorem Covers.mem_missing_iff {r : NodeRef} {type : TypeId} {c : Coverage}
    (h : Covers t f r type c) (id : TypeId) :
    id ∈ c.missing ↔ IsMissing t f c.clauses type id := by
  obtain ⟨cases, hmissing, hcases⟩ := h.missing
  rw [hmissing, missingParts, List.mem_filter, mem_atomicParts_iff, Bool.and_eq_true,
    Bool.not_eq_true', ← Bool.not_eq_true, List.contains_iff_mem, hcases, IsMissing]
  exact and_left_comm

/-- No missing part is listed twice just if each stands in one member of the union only. -/
theorem Covers.nodup_missing_iff {r : NodeRef} {type : TypeId} {c : Coverage}
    (h : Covers t f r type c) (hs : t.store.Canonical) :
    c.missing.Nodup ↔ ∀ id ∈ c.missing,
      ∃! part, part ∈ t.store.unionMembers type ∧ id ∈ t.store.intersectionMembers part := by
  obtain ⟨cases, hmissing, -⟩ := h.missing
  rw [List.nodup_iff_count_eq_one]
  refine forall₂_congr fun id hid => ?_
  rw [hmissing, missingParts] at hid ⊢
  rw [← hs.count_atomicParts_eq_one_iff]
  exact iff_of_eq (congrArg (· = 1) (List.count_filter (List.mem_filter.mp hid).2))

theorem givesOn_coverage (h : t.Closed) (r : NodeRef) :
    (coverage r).GivesOn t f fun c => ∃ type, Covers t f r type c := by
  refine givesOn_bind agree_tree ?_
  rintro _ ⟨rfl, -⟩
  refine givesOn_bind (agree_orFail _ _) ?_
  rintro switch ⟨hswitch, -⟩
  refine givesOn_bind agree_store fun s hs => ?_
  refine givesOn_bind_of (agree_constrainedTypeAt h _) (givesOn_constrainedTypeAt h _) ?_
  rintro type ⟨hknown, -⟩ hdeclared
  refine givesOn_bind_of (steady_caseTypes h _ _) (givesOn_caseTypes h _) ?_
  rintro ⟨cases, default⟩ - hcases
  refine givesOn_pure ⟨type, ?_⟩
  exact {
    node := hswitch
    clauses := rfl
    discriminant := hdeclared
    enumName := hs.1.enumName?_eq h.store hknown
    missing := ⟨cases, missingParts_eq hs.1 h hknown cases, hcases⟩ }

/-- The text of a report about some members. -/
def notMatched (members : String) : String :=
  "Switch is not exhaustive. Cases not matched: " ++ members

theorem message_notMatched (members : String) :
    info.message "switchIsNotExhaustive" [members] = notMatched members := by
  have hfree : '\x7b' ∉ "Switch is not exhaustive. Cases not matched: ".toList := by decide
  exact Text.fill_append_placeholder hfree members

/-- What a report lists that a switch is not exhaustive: a default clause, or the missing members in
    the order of their fixes. -/
def Lists (t : Oracle) (f : SourceFile) (r : NodeRef) (c : Coverage) (members : String)
    (fixes : List Fix) : Prop :=
  (members = "default" ∧ fixes = [defaultFix f r c]) ∨
    (c.missing ≠ [] ∧ members = " | ".intercalate (c.missing.map (shownMember t.store)) ∧
      fixes = c.missing.map fun id =>
        caseFix f r c (caseTest t.store t.options.target c.enumName id))

/-- A report that a switch is not exhaustive stands at the discriminant and lists what is missing. -/
def Accounted (t : Oracle) (f : SourceFile) (report : Report) : Prop :=
  report.messageId = "switchIsNotExhaustive" →
    ∃ r type c members, Covers t f r type c ∧ f.range c.discriminant = (report.start, report.stop) ∧
      report.text = none ∧ report.args = [members] ∧ Lists t f r c members report.fixes

theorem accounted_missingReports {o : Options} {r : NodeRef} {type : TypeId} {c : Coverage}
    (h : Covers t f r type c) :
    ∀ report ∈ missingReports o f t.store t.options.target r c, Accounted t f report := by
  rw [missingReports]
  split_ifs with hquiet
  · exact List.forall_mem_nil _
  · have hmissing : c.missing ≠ [] := fun hnil => hquiet (by rw [hnil]; rfl)
    exact List.forall_mem_singleton.mpr fun _ =>
      ⟨r, type, c, _, h, rfl, rfl, rfl, .inr ⟨hmissing, rfl, rfl⟩⟩

theorem accounted_openReports {o : Options} {r : NodeRef} {type : TypeId} {c : Coverage}
    (h : Covers t f r type c) : ∀ report ∈ openReports o f r c, Accounted t f report := by
  rw [openReports]
  split_ifs
  · exact List.forall_mem_singleton.mpr fun _ => ⟨r, type, c, _, h, rfl, rfl, rfl, .inl ⟨rfl, rfl⟩⟩
  · exact List.forall_mem_nil _

theorem accounted_defaultReports {o : Options} {c : Coverage} :
    ∀ report ∈ defaultReports o f c, Accounted t f report := by
  rw [defaultReports]
  split
  · split_ifs
    · have hother : "dangerousDefaultCase" ≠ "switchIsNotExhaustive" := by decide
      exact List.forall_mem_singleton.mpr fun hmessage => absurd hmessage hother
    · exact List.forall_mem_nil _
  · exact List.forall_mem_nil _

theorem accountedOn_check (h : t.Closed) (o : Options) (r : NodeRef) :
    (check o r).GivesOn t f fun reports => ∀ report ∈ reports, Accounted t f report := by
  refine givesOn_bind agree_file ?_
  rintro _ ⟨rfl, -⟩
  refine givesOn_bind_of (agree_coverage h r) (givesOn_coverage h r) ?_
  rintro c ⟨-, hknown⟩ ⟨type, hcovers⟩
  refine givesOn_bind agree_store fun s hs => ?_
  refine givesOn_bind agree_options ?_
  rintro _ ⟨rfl, -⟩
  rw [missingReports_eq hs.1 o _ r hknown]
  refine givesOn_pure (List.forall_mem_append.mpr ⟨List.forall_mem_append.mpr ⟨?_, ?_⟩, ?_⟩)
  · exact accounted_missingReports hcovers
  · exact accounted_defaultReports
  · exact accounted_openReports hcovers

/-- A finding that a switch is not exhaustive names the members that are listed for it. -/
theorem exists_lists_of_lint {o : Options} {category : Category} (ht : t.Closed)
    {found : List Diagnostic} {oracle : Option Oracle}
    (hlint : Linter.lint ⟨[⟨rule o, category⟩]⟩ f (some t) = .ok (.ok (found, oracle)))
    {d : Diagnostic} (hd : d ∈ found) (hmessage : d.messageId = "switchIsNotExhaustive") :
    ∃ r type c members, Covers t f r type c ∧ f.range c.discriminant = (d.start, d.stop) ∧
      d.messageText = notMatched members ∧ Lists t f r c members d.fixes := by
  obtain ⟨report, haccounted, rfl⟩ := Linter.exists_report
    (Rule.Builtin.switchExhaustiveness o |>.steady ht) (givesOn_pure (List.forall_mem_nil _))
    (fun r _ => accountedOn_check ht o r) hlint hd
  obtain ⟨r, type, c, members, hcovers, hrange, htext, hargs, hlists⟩ := haccounted hmessage
  refine ⟨r, type, c, members, hcovers, hrange, ?_, hlists⟩
  have hid : report.messageId = "switchIsNotExhaustive" := hmessage
  rw [RuleInfo.diagnostic, htext, hid, hargs]
  exact message_notMatched members

/-- Whenever linting finds that a switch is not exhaustive, it asks for a default clause, or the
    members in the message and the fixes stand for the same list of types. In this list are exactly
    the parts of the discriminant's type that have one value and that no case has as its type, and
    none of them twice just if each stands in one member of the union only. -/
theorem lint_members_missing {o : Options} {category : Category} (ht : t.Closed)
    (hmade : t.store.Made) {found : List Diagnostic} {oracle : Option Oracle}
    (hlint : Linter.lint ⟨[⟨rule o, category⟩]⟩ f (some t) = .ok (.ok (found, oracle)))
    {d : Diagnostic} (hd : d ∈ found) (hmessage : d.messageId = "switchIsNotExhaustive") :
    ∃ r type c members, Covers t f r type c ∧ f.range c.discriminant = (d.start, d.stop) ∧
      d.messageText = notMatched members ∧ Lists t f r c members d.fixes ∧
      (∀ id, id ∈ c.missing ↔ IsMissing t f c.clauses type id) ∧
      (c.missing.Nodup ↔ ∀ id ∈ c.missing,
        ∃! part, part ∈ t.store.unionMembers type ∧ id ∈ t.store.intersectionMembers part) := by
  obtain ⟨r, type, c, members, hcovers, hrange, htext, hlists⟩ :=
    exists_lists_of_lint ht hlint hd hmessage
  exact ⟨r, type, c, members, hcovers, hrange, htext, hlists, hcovers.mem_missing_iff,
    hcovers.nodup_missing_iff hmade.canonical⟩

/-- A store with `"a"`, objects `A` and `B`, `("a" & A) | ("a" & B)`, `"b"` and
    `("a" & A) | "b" | null`. -/
def mergedStore : Store :=
  initial.serve [.literalString "a",
    .object ⟨some "A", [⟨"a", TypeId.string, false, false⟩], [], []⟩, .intersection [14, 15],
    .object ⟨some "B", [⟨"b", TypeId.string, false, false⟩], [], []⟩, .intersection [14, 17],
    .union [16, 18], .literalString "b", .union [16, 20, TypeId.null]]

theorem made_mergedStore : mergedStore.Made := Made.initial.serve (by decide)

/-- A table in which the name in brackets behind `switch` has one type and the test of the first
    case another one. -/
def switchTable (discriminant test : TypeId) : TypeTable :=
  { TypeTable.new .strict with
    store := mergedStore
    nodeTypes := [(some 2, discriminant), (some 6, test)] }

theorem closed_switchTable {discriminant test : TypeId} (hd : mergedStore.Known discriminant)
    (ht : mergedStore.Known test) : (switchTable discriminant test).Closed :=
  TypeTable.closed_of_nodeTypes made_mergedStore.normal.closed
    (List.forall_mem_cons.mpr ⟨hd, List.forall_mem_singleton.mpr ht⟩) .strict

theorem typeAt?_switchTable {discriminant test id : TypeId} {r : NodeRef}
    (h : (switchTable discriminant test).typeAt? r = some id) : id = discriminant ∨ id = test := by
  simp only [TypeTable.typeAt?, switchTable, List.lookup_cons, List.lookup_nil] at h
  split at h
  · exact .inl (Option.some.inj h).symm
  · split at h
    · exact .inr (Option.some.inj h).symm
    · cases h

/-- `switch (x) { case 'b': }` -/
def oneCaseProgram : TypeLint.Program :=
  [.statement (.switch (.identifier "x") [.caseOf (.string "b") []])]

theorem lint_members_missing_nullable :
    ∃ b found oracle d, Program.build "a.ts" oneCaseProgram = .ok b ∧
      (switchTable 21 20).oracle.Closed ∧ (switchTable 21 20).store.Made ∧
      Linter.lint ⟨[⟨rule .default, .error⟩]⟩ b.file (some (switchTable 21 20).oracle) =
        .ok (.ok (found, oracle)) ∧
      d ∈ found ∧ d.messageId = "switchIsNotExhaustive" ∧
      ∃ r type c members, Covers (switchTable 21 20).oracle b.file r type c ∧
        b.file.range c.discriminant = (d.start, d.stop) ∧ d.messageText = notMatched members ∧
        Lists (switchTable 21 20).oracle b.file r c members d.fixes ∧ c.missing.Nodup := by
  have hclosed : (switchTable 21 20).oracle.Closed :=
    (closed_switchTable (by decide) (by decide)).oracle
  have hrun : Linter.messages? ⟨rule .default, .error⟩ oneCaseProgram (switchTable 21 20) =
      some [("switchIsNotExhaustive", 8, 9)] := by
    decide +kernel
  obtain ⟨b, found, oracle, d, hb, hlint, hd, hmessage, -⟩ := Linter.exists_of_messages? hrun
  obtain ⟨r, type, c, members, hcovers, hrange, htext, hlists, hmem, hnodup⟩ :=
    lint_members_missing hclosed made_mergedStore hlint hd hmessage
  refine ⟨b, found, oracle, d, hb, hclosed, made_mergedStore, hlint, hd, hmessage, r, type, c,
    members, hcovers, hrange, htext, hlists, hnodup.mpr fun id hid => ?_⟩
  have hpart : id ∈ mergedStore.atomicParts type := mem_atomicParts_iff.mpr ((hmem id).mp hid).2.1
  have hdistinct : (mergedStore.atomicParts type).Nodup := by
    obtain ⟨declared, hdeclared, rfl⟩ := hcovers.discriminant
    rcases typeAt?_switchTable hdeclared with rfl | rfl <;> decide
  exact made_mergedStore.canonical.count_atomicParts_eq_one_iff.mp
    (List.count_eq_one_of_mem hdistinct hpart)

/-- When two parts are missing of one of the two types, it is `("a" & A) | ("a" & B)`, and the
    literal is missing twice. -/
theorem missing_of_switchTable {r : NodeRef} {type : TypeId} {c : Coverage}
    (h : Covers (switchTable 19 20).oracle f r type c) (hlength : c.missing.length = 2) :
    type = 19 ∧ c.missing = [14, 14] := by
  obtain ⟨cases, hcases, hmem⟩ := h.missing
  have hopen : cases.contains 14 = false := by
    rw [← Bool.not_eq_true, List.contains_iff_mem, hmem]
    rintro ⟨_, -, _, declared, -, -, htype, hbase⟩
    rcases typeAt?_switchTable htype with rfl | rfl <;> exact absurd hbase (by decide)
  have hparts : mergedStore.atomicParts 19 = [14, 15, 14, 17] ∧
      mergedStore.atomicParts 20 = [20] := by
    decide
  have hliteral : mergedStore.isLiteralLike 14 = true ∧ mergedStore.isLiteralLike 15 = false ∧
      mergedStore.isLiteralLike 17 = false := by
    decide
  have hbase : mergedStore.baseConstraint 19 = 19 ∧ mergedStore.baseConstraint 20 = 20 := by
    decide
  obtain ⟨declared, hdeclared, rfl⟩ := h.discriminant
  rw [hcases, missingParts, show (switchTable 19 20).oracle.store = mergedStore from rfl] at hlength ⊢
  rcases typeAt?_switchTable hdeclared with rfl | rfl
  · rw [hbase.1, hparts.1]
    simp only [List.filter_cons, List.filter_nil, hliteral, hopen, Bool.not_false, Bool.and_true,
      Bool.false_and, if_true, Bool.false_eq_true, if_false, and_self]
  · rw [hbase.2, hparts.2] at hlength
    have hle := hlength ▸ List.length_filter_le _ [20]
    exact absurd hle (by decide)

/-- Of `("a" & A) | ("a" & B)` nothing but the literal has one value, and yet it stands twice in the
    message, with a fix for each. -/
theorem lint_member_repeated :
    ∃ b found oracle d r c, Program.build "a.ts" oneCaseProgram = .ok b ∧
      Linter.lint ⟨[⟨rule .default, .error⟩]⟩ b.file (some (switchTable 19 20).oracle) =
        .ok (.ok (found, oracle)) ∧
      d ∈ found ∧ Covers (switchTable 19 20).oracle b.file r 19 c ∧
      (∀ id, IsMissing (switchTable 19 20).oracle b.file c.clauses 19 id ↔ id = 14) ∧
      d.messageText = notMatched "\"a\" | \"a\"" ∧
      d.fixes = [caseFix b.file r c "\"a\"", caseFix b.file r c "\"a\""] := by
  have hclosed : (switchTable 19 20).oracle.Closed :=
    (closed_switchTable (by decide) (by decide)).oracle
  have hrun : Linter.viewWith? ⟨rule .default, .error⟩ oneCaseProgram
      (fun _ => switchTable 19 20) (fun d => (d.messageId, d.fixes.length)) =
        some [("switchIsNotExhaustive", 2)] := by
    decide +kernel
  obtain ⟨b, oracle, d, hb, hlint, hd⟩ := Linter.exists_of_viewWith? hrun
  obtain ⟨hmessage, hfixes⟩ := Prod.mk.inj hd
  obtain ⟨r, type, c, members, hcovers, -, htext, hlists⟩ :=
    exists_lists_of_lint hclosed hlint (List.mem_singleton_self d) hmessage
  rcases hlists with ⟨-, hfix⟩ | ⟨-, hmembers, hfix⟩
  · cases hfixes.symm.trans (congrArg List.length hfix)
  · have hlength : c.missing.length = 2 := by rw [← hfixes, hfix, List.length_map]
    obtain ⟨rfl, hmissing⟩ := missing_of_switchTable hcovers hlength
    have hname : c.enumName = none := hcovers.enumName.trans (by decide)
    have hshown : shownMember (switchTable 19 20).oracle.store 14 = "\"a\"" := by decide
    have htest : caseTest (switchTable 19 20).oracle.store
        (switchTable 19 20).oracle.options.target none 14 = "\"a\"" := by
      decide
    rw [hmissing, hname] at hfix
    rw [hmissing] at hmembers
    refine ⟨b, [d], oracle, d, r, c, hb, hlint, List.mem_singleton_self d, hcovers,
      fun id => ?_, ?_, ?_⟩
    · rw [← hcovers.mem_missing_iff, hmissing, List.mem_cons, List.mem_singleton, or_self]
    · rw [htext, hmembers, List.map_cons, List.map_singleton, hshown]
      decide
    · rw [hfix, List.map_cons, List.map_singleton, htest]

end TypeLint.Rules.SwitchExhaustiveness
