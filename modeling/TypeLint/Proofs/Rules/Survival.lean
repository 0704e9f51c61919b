import TypeLint.Proofs.Binding.Order
import TypeLint.Proofs.Lint.Survival
import TypeLint.Proofs.Program.Boundaries
import TypeLint.Proofs.Rules.MixedLogical
import TypeLint.Proofs.Rules.SteadyRules
import TypeLint.Proofs.Types.Printing

namespace TypeLint

open Syntax Check TypeLint.Types

/-- What is cut out of the text of a file is there: comments begin and end between characters, and no
    non-null assertion ends where the text begins. -/
structure Syntax.SourceFile.Divisible (f : SourceFile) : Prop where
  comment : ∀ c ∈ f.comments,
    Text.isBoundary f.text c.pos = true ∧ Text.isBoundary f.text c.stop = true
  assertion : ∀ r, f.tree.kind? r = some .nonNullExpression → 0 < (f.range r).2

/-- A node refers to another one by a field of its own. -/
def Syntax.Tree.RefersTo (t : Tree) (r s : NodeRef) : Prop := s ∈ t.links r

/-- No node refers back to itself, whatever nodes are in between. -/
def Syntax.Tree.Grounded (t : Tree) : Prop := ∀ r, ¬ Relation.TransGen t.RefersTo r r

/-- A type is a member of a union. -/
def Types.Store.HasMember (s : Store) (union member : TypeId) : Prop :=
  s.isUnion union = true ∧ member ∈ s.unionMembers union

/-- No union is a member of itself, whatever unions are in between. -/
def Types.Store.Grounded (s : Store) : Prop := ∀ id, ¬ Relation.TransGen s.HasMember id id

/-- Where types mention types with smaller numbers only, no union is a member of itself. -/
theorem Types.Store.Ordered.grounded {s : Store} (h : s.Ordered) : s.Grounded := by
  have hmember {union member : TypeId} (hmember : s.HasMember union member) : member < union := by
    obtain ⟨hunion, hmem⟩ := hmember
    rw [Store.isUnion] at hunion
    split at hunion
    · next members hdata =>
      rw [Store.unionMembers, hdata] at hmem
      exact h union _ hdata member hmem
    · cases hunion
  have hdown {id id' : TypeId} (h : Relation.TransGen s.HasMember id id') : id' < id := by
    induction h with
    | single h => exact hmember h
    | tail _ hlast ih => exact (hmember hlast).trans ih
  exact fun id hcircle => Nat.lt_irrefl id (hdown hcircle)

namespace Text.Comment

/-- A comment that begins and ends between characters can be cut out of the text. -/
theorem exists_body {source : String} {c : Comment} (hpos : isBoundary source c.pos = true)
    (hstop : isBoundary source c.stop = true) : ∃ body, c.body source = .ok body := by
  rw [body, text]
  split_ifs with hinside
  · obtain ⟨front, behind, rfl, hfront⟩ := isBoundary_iff.mp hpos
    obtain ⟨front', behind', heq, hfront'⟩ := isBoundary_iff.mp hstop
    obtain ⟨middle, rfl, rfl⟩ := exists_append_of_le heq (by omega)
    rw [← String.append_assoc, ← hfront, ← hfront', byteLength_append, slice?_append]
    exact ⟨_, rfl⟩
  · exact ⟨_, rfl⟩

end Text.Comment

namespace Syntax.Tree

variable {t : Tree} {r s m : NodeRef} {n : Node}

theorem refersTo_of_mem (hn : t.get? r = some n) (h : s ∈ n.payload.fields.flatten) :
    t.RefersTo r s := by
  rw [RefersTo, links, hn]
  exact h

theorem refersTo_of_encloses (h : t.Encloses r s) : t.RefersTo r s := by
  obtain ⟨n, hn, hinner⟩ := Option.bind_eq_some_iff.mp h
  refine refersTo_of_mem hn ?_
  rw [Node.payload_of_wrapped? hinner]
  exact List.mem_singleton_self s

theorem refersTo_of_access? {a : Access} (hn : t.get? r = some n) (ha : n.access? = some a) :
    t.RefersTo r a.expression ∧ t.RefersTo r a.nameOrArgument := by
  constructor <;> refine refersTo_of_mem hn ?_ <;> rw [Node.payload_of_access? ha] <;>
    simp [Payload.fields]

/-- Where no node refers back to itself, nodes have a rank, and a node refers to nodes of lower
    ranks. -/
theorem Grounded.exists_rank (h : t.Grounded) :
    ∃ rank : NodeRef → Nat, (∀ r, rank r ≤ t.size) ∧ ∀ r s, t.RefersTo r s → rank s < rank r := by
  refine Tree.exists_rank t.RefersTo (fun r s hrs => ?_) h
  cases hn : t.get? r with
  | none =>
    rw [RefersTo, links, hn] at hrs
    cases hrs
  | some n => exact ⟨n, rfl⟩

theorem Grounded.exists_skipParentheses (h : t.Grounded) (r : NodeRef) :
    ∃ m, t.skipParentheses r = .ok m :=
  Tree.exists_skipParentheses fun s _ hcircle =>
    h s (hcircle.lift id fun _ _ => refersTo_of_encloses)

theorem Grounded.exists_nodesEqual (h : t.Grounded) (a b : NodeRef) :
    ∃ equal, t.nodesEqual a b = .ok equal := by
  obtain ⟨rank, hsize, hrank⟩ := h.exists_rank
  have henough (depth : Nat) (a b : NodeRef) (hdepth : rank a < depth) :
      ∃ equal, t.nodesEqualTo depth a b = .ok equal := by
    induction depth generalizing a b with
    | zero => omega
    | succ depth ih =>
      rw [nodesEqualTo]
      split
      · next left right hleft hright =>
        split_ifs
        · exact ⟨_, rfl⟩
        · split
          any_goals exact ⟨_, rfl⟩
          all_goals
            split
            · next l r hl hr =>
              split_ifs
              · exact ⟨_, rfl⟩
              · obtain ⟨hreceiver, hname⟩ := refersTo_of_access? hleft hl
                obtain ⟨names, hnames⟩ := ih l.nameOrArgument r.nameOrArgument
                  (by have := hrank _ _ hname; omega)
                obtain ⟨receivers, hreceivers⟩ := ih l.expression r.expression
                  (by have := hrank _ _ hreceiver; omega)
                rw [hnames]
                cases names with
                | true => exact ⟨_, hreceivers⟩
                | false => exact ⟨_, rfl⟩
            · exact ⟨_, rfl⟩
      · exact ⟨_, rfl⟩
  have hsquare := Nat.le_mul_self t.size
  have hle := hsize a
  exact henough _ a b (by omega)

/-- Skipping parentheses leads to nodes of lower ranks. -/
theorem rank_le_of_skipParentheses {rank : NodeRef → Nat}
    (hrank : ∀ r s, t.RefersTo r s → rank s < rank r) (h : t.skipParentheses r = .ok m) :
    rank m ≤ rank r := by
  have hwraps := (ends_enterStep_iff.mp (skipParentheses_eq_ok_iff.mp h)).1
  clear h
  induction hwraps with
  | refl => exact le_rfl
  | tail _ hinner ih => exact (hrank _ _ (refersTo_of_encloses hinner)).le.trans ih

end Syntax.Tree

variable {t : Oracle} {file : SourceFile}

namespace Rules

theorem survives_requireStrictNullChecks (allowed : Bool) :
    (requireStrictNullChecks allowed).Survives t file fun _ => True := by
  refine survives_bind survives_options fun _ _ => ?_
  split_ifs <;> exact survives_pure trivial

theorem DuplicateCase.survives_check (r : NodeRef) :
    (DuplicateCase.check r).Survives t file fun _ => True := by
  refine survives_bind survives_file fun _ _ => ?_
  split <;> exact survives_pure trivial

/-- A non-null assertion that ends behind the start of the text has a mark to take out. -/
theorem ExtraNonNullAssertion.survives_reports (hfile : file.Divisible) {r : NodeRef}
    (hkind : file.tree.kind? r = some .nonNullExpression) (messageId description : String) :
    (lift (ExtraNonNullAssertion.reports file r messageId description)).Survives t file
      fun _ => True := by
  refine (survives_lift ?_).imp fun _ _ => trivial
  have hstop := hfile.assertion r hkind
  rw [ExtraNonNullAssertion.reports]
  split
  · next hrange =>
    rw [hrange] at hstop
    exact (Nat.lt_irrefl 0 hstop).elim
  · exact ⟨_, rfl⟩

theorem ExtraNonNullAssertion.survives_check (hfile : file.Divisible) {r : NodeRef}
    (hkind : file.tree.kind? r = some .nonNullExpression) :
    (ExtraNonNullAssertion.check r).Survives t file fun _ => True := by
  refine survives_bind survives_file ?_
  rintro _ rfl
  split
  · exact survives_pure trivial
  · split_ifs
    · exact ExtraNonNullAssertion.survives_reports hfile hkind _ _
    · exact survives_pure trivial

theorem SuppressionComment.survives_checkComments (hfile : file.Divisible)
    {comments : List Text.Comment} (hcomments : ∀ c ∈ comments, c ∈ file.comments) :
    (SuppressionComment.checkComments file comments).Survives t file fun _ => True := by
  induction comments with
  | nil => exact survives_pure trivial
  | cons c rest ih =>
    obtain ⟨hc, hrest⟩ := List.forall_mem_cons.mp hcomments
    have hreports : ∃ reports, SuppressionComment.reports file c = .ok reports := by
      obtain ⟨body, hbody⟩ :=
        Text.Comment.exists_body (hfile.comment c hc).1 (hfile.comment c hc).2
      rw [SuppressionComment.reports, hbody]
      exact ⟨_, rfl⟩
    refine survives_bind (survives_firstSight _) fun first _ => ?_
    refine survives_ite_bind ((survives_lift hreports).imp fun _ _ => trivial)
      (survives_pure trivial) fun _ _ => ?_
    exact survives_bind (ih hrest) fun _ _ => survives_pure trivial

theorem SuppressionComment.survives_check (hfile : file.Divisible) (r : NodeRef) :
    (SuppressionComment.check r).Survives t file fun _ => True := by
  refine survives_bind survives_file ?_
  rintro _ rfl
  exact SuppressionComment.survives_checkComments hfile
    fun _ => Program.Shown.mem_comments_of_mem_leadingComments

section

variable (h : t.Closed)

include h

theorem TypeAssertion.survives_check (o : TypeAssertion.Options) (r : NodeRef) :
    (TypeAssertion.check o r).Survives t file fun _ => True := by
  refine survives_bind survives_file fun f _ => ?_
  split
  · exact survives_pure trivial
  · refine survives_bind (survives_orFail _ _) fun a _ => ?_
    split_ifs
    · exact survives_pure trivial
    · refine survives_bind survives_oracle fun _ _ => ?_
      refine survives_bind (survives_typeAt h _) fun cast _ => ?_
      split_ifs
      · exact survives_pure trivial
      · refine survives_bind (survives_typeAt h _) fun uncast _ => ?_
        split_ifs
        · split
          · exact survives_pure trivial
          · exact survives_fail _
        · exact survives_pure trivial

theorem NonNullAssertion.survives_check (hfile : file.Divisible) {r : NodeRef}
    (hkind : file.tree.kind? r = some .nonNullExpression) :
    (NonNullAssertion.check r).Survives t file fun _ => True := by
  have hreports (messageId : String) :
      (lift (NonNullAssertion.reports file r messageId)).Survives t file fun _ => True :=
    ExtraNonNullAssertion.survives_reports hfile hkind _ _
  refine survives_bind survives_file ?_
  rintro _ rfl
  refine survives_bind (survives_orFail _ _) fun expression _ => ?_
  split
  · split_ifs
    · exact hreports _
    · exact survives_pure trivial
  · refine survives_bind survives_oracle fun _ _ => ?_
    refine survives_bind (survives_constrainedTypeAt h _) fun operand _ => ?_
    split_ifs
    · exact survives_pure trivial
    · exact hreports _
    · split
      · exact survives_pure trivial
      · split_ifs
        · exact hreports _
        · exact survives_pure trivial

theorem SwitchExhaustiveness.survives_caseTypes (tree : Tree) (clauses : List NodeRef) :
    (SwitchExhaustiveness.caseTypes tree clauses).Survives t file fun _ => True := by
  induction clauses with
  | nil => exact survives_pure trivial
  | cons clause rest ih =>
    rw [SwitchExhaustiveness.caseTypes]
    split
    · exact ih
    · split_ifs
      · exact survives_bind ih fun _ _ => survives_pure trivial
      · refine survives_bind (survives_constrainedTypeAt h _) fun type _ => ?_
        exact survives_bind ih fun _ _ => survives_pure trivial

theorem SwitchExhaustiveness.survives_check (o : SwitchExhaustiveness.Options) (r : NodeRef) :
    (SwitchExhaustiveness.check o r).Survives t file fun _ => True := by
  have hcoverage : (SwitchExhaustiveness.coverage r).Survives t file fun _ => True := by
    refine survives_bind survives_tree fun _ _ => ?_
    refine survives_bind (survives_orFail _ _) fun _ _ => ?_
    refine survives_bind survives_store fun _ _ => ?_
    refine survives_bind (survives_constrainedTypeAt h _) fun _ _ => ?_
    exact survives_bind (SwitchExhaustiveness.survives_caseTypes h _ _)
      fun _ _ => survives_pure trivial
  refine survives_bind survives_file fun _ _ => ?_
  refine survives_bind hcoverage fun _ _ => ?_
  refine survives_bind survives_store fun _ _ => ?_
  exact survives_bind survives_options fun _ _ => survives_pure trivial

end

namespace NullishCoalescing

variable (htree : file.tree.Grounded) (h : t.Closed)

include htree

theorem exists_neighbours_of_grounded (r : NodeRef) : ∃ rs, neighbours file.tree r = .ok rs :=
  exists_neighbours fun b _ =>
    ⟨htree.exists_skipParentheses b.right, htree.exists_skipParentheses b.left⟩

theorem exists_isExempt (o : Options) (s : Store) (r : NodeRef) (left : TypeId) :
    ∃ exempt, isExempt o file.tree s r left = .ok exempt := by
  rw [isExempt]
  split_ifs
  · exact ⟨_, rfl⟩
  · obtain ⟨mixed, hmixed⟩ := exists_isMixedLogical (exists_neighbours_of_grounded htree) r
    rw [hmixed]
    exact ⟨_, rfl⟩
  · exact ⟨_, rfl⟩

theorem exists_tested (expected : NodeRef) (found : Tested) (operands : List NodeRef) :
    ∃ tested, tested? file.tree expected found operands = .ok tested := by
  induction operands generalizing found with
  | nil => exact ⟨_, rfl⟩
  | cons operand rest ih =>
    obtain ⟨inner, hinner⟩ := htree.exists_skipParentheses operand
    obtain ⟨equal, hequal⟩ := htree.exists_nodesEqual inner expected
    simp only [tested?, hinner, hequal, bind, Except.bind]
    split_ifs
    · exact ih _
    · exact ih _
    · exact ih _
    · exact ⟨_, rfl⟩

include h

theorem survives_checkLogicalOr (o : Options) (r : NodeRef) :
    (checkLogicalOr o r).Survives t file fun _ => True := by
  refine survives_bind survives_file ?_
  rintro _ rfl
  split
  · exact survives_pure trivial
  · refine survives_bind survives_store fun s _ => ?_
    refine survives_bind (survives_typeAt h _) fun left _ => ?_
    split_ifs
    · exact survives_pure trivial
    · refine survives_bind (survives_lift (exists_isExempt htree o s r left)) fun _ _ => ?_
      split_ifs
      · exact survives_pure trivial
      · exact survives_bind (survives_orFail _ _) fun _ _ => survives_pure trivial

omit htree in
theorem survives_testsNullish (operator : Kind) (found : Tested) (value : NodeRef) :
    (testsNullish operator found value).Survives t file fun _ => True := by
  rw [testsNullish]
  split_ifs
  · exact survives_pure trivial
  · exact survives_pure trivial
  · refine survives_bind survives_store fun _ _ => ?_
    exact survives_bind (survives_typeAt h _) fun _ _ => survives_pure trivial

theorem survives_checkTernary (r : NodeRef) :
    (checkTernary r).Survives t file fun _ => True := by
  have hskip (r : NodeRef) : (lift (file.tree.skipParentheses r)).Survives t file _ :=
    survives_lift (htree.exists_skipParentheses r)
  refine survives_bind survives_file ?_
  rintro _ rfl
  dsimp only
  split
  · exact survives_pure trivial
  · refine survives_bind (hskip _) fun test _ => ?_
    split
    · exact survives_pure trivial
    · refine survives_bind (hskip _) fun whenTrue _ => ?_
      refine survives_bind (hskip _) fun whenFalse _ => ?_
      refine survives_bind (survives_lift (exists_tested htree _ _ _)) fun tested _ => ?_
      split
      · exact survives_pure trivial
      · split
        · exact survives_pure trivial
        · refine survives_bind (survives_testsNullish h _ _ _) fun fixable _ => ?_
          split_ifs <;> exact survives_pure trivial

theorem survives_check (o : Options) (r : NodeRef) :
    (NullishCoalescing.check o r).Survives t file fun _ => True := by
  refine survives_bind survives_tree fun _ _ => ?_
  split
  · exact survives_checkLogicalOr htree h o r
  · split_ifs
    · exact survives_pure trivial
    · exact survives_checkTernary htree h r
  · exact survives_pure trivial

end NullishCoalescing

namespace MemberNullability

variable {s : Store} {object key : TypeId}

theorem exists_anyM {ids : List TypeId} {answer : TypeId → Result Bool}
    (h : ∀ id ∈ ids, ∃ yes, answer id = .ok yes) : ∃ yes, ids.anyM answer = .ok yes := by
  cases hany : ids.anyM answer with
  | ok yes => exact ⟨yes, rfl⟩
  | error c =>
    obtain ⟨id, hid, hcrash⟩ := exists_of_anyM_eq_error hany
    obtain ⟨yes, hyes⟩ := h id hid
    cases hcrash.symm.trans hyes

/-- Where no union is a member of itself, there is an answer for every key. -/
theorem exists_keyAnswerTo (hs : s.Grounded) (h : s.Closed) (object : TypeId)
    (hkey : s.Known key) : ∃ yes, keyAnswerTo s object s.size key = .ok yes := by
  have hunion (union member : TypeId) (hmember : s.HasMember union member) :
      union ∈ Finset.range s.size := by
    rw [Finset.mem_range]
    by_contra hunknown
    have hnone : s.lookup union = none := by
      rw [Store.lookup, Array.getElem?_eq_none (not_lt.mp hunknown)]
    have hfalse := hmember.1
    rw [Store.isUnion, hnone] at hfalse
    cases hfalse
  obtain ⟨rank, hsize, hrank⟩ := exists_rank _ hunion hs
  rw [Finset.card_range] at hsize
  have henough (depth : Nat) (key : TypeId) (hdepth : rank key < depth) :
      ∃ yes, keyAnswerTo s object depth key = .ok yes := by
    induction depth generalizing key with
    | zero => omega
    | succ depth ih =>
      rw [keyAnswerTo]
      split_ifs with hunion
      · refine exists_anyM fun part hpart => ih part ?_
        have hless := hrank key part ⟨hunion, hpart⟩
        omega
      · exact ⟨_, rfl⟩
  rw [← keyAnswerTo_of_le h object (Nat.le_succ s.size) hkey]
  exact henough _ key (Nat.lt_succ_of_le (hsize key))

variable (htree : file.tree.Grounded) (hstore : t.store.Grounded) (h : t.Closed)

include h

theorem survives_readsIndex (r : NodeRef) : (readsIndex r).Survives t file fun _ => True := by
  refine survives_bind survives_tree fun _ _ => ?_
  split
  · exact survives_pure trivial
  · refine survives_bind survives_store fun _ _ => ?_
    exact survives_bind (survives_typeAt h _) fun _ _ => survives_pure trivial

theorem survives_callInheritsNullish (r : NodeRef) :
    (callInheritsNullish r).Survives t file fun _ => True := by
  refine survives_bind survives_tree fun _ _ => ?_
  split
  · exact survives_pure trivial
  · refine survives_bind survives_store fun _ _ => ?_
    refine survives_bind (survives_constrainedTypeAt h _) fun _ _ => ?_
    split_ifs <;> exact survives_pure trivial

include htree in
theorem survives_optionalStepReadsIndex (r : NodeRef) :
    (optionalStepReadsIndex r).Survives t file fun _ => True := by
  obtain ⟨rank, hsize, hrank⟩ := htree.exists_rank
  have hlink {r receiver : NodeRef} {optional : Bool}
      (hreceiver : chainLink? file.tree r = some (receiver, optional)) :
      rank receiver < rank r := by
    obtain ⟨n, hn, hreceiver⟩ := Option.bind_eq_some_iff.mp hreceiver
    refine hrank _ _ ?_
    split at hreceiver
    · next access haccess =>
      cases hreceiver
      exact (Tree.refersTo_of_access? hn haccess).1
    · split_ifs at hreceiver
      obtain ⟨call, hcall, hpair⟩ := Option.map_eq_some_iff.mp hreceiver
      cases hpair
      refine Tree.refersTo_of_mem hn ?_
      rw [Node.payload_of_call? hcall]
      exact List.mem_cons_self
  have henough (depth : Nat) (r : NodeRef) (hdepth : rank r < depth) :
      (optionalStepReadsIndexTo depth r).Survives t file fun _ => True := by
    induction depth generalizing r with
    | zero => omega
    | succ depth ih =>
      refine survives_bind survives_tree ?_
      rintro _ rfl
      split
      · exact survives_pure trivial
      · next receiver hreceiver =>
        have hless := hlink hreceiver
        exact ih _ (by omega)
      · next receiver hreceiver =>
        have hless := hlink hreceiver
        refine survives_bind (survives_readsIndex h _) fun found _ => ?_
        split_ifs
        · exact survives_pure trivial
        · exact ih _ (by omega)
  refine survives_bind survives_tree ?_
  rintro _ rfl
  exact henough _ r (Nat.lt_succ_of_le (hsize r))

include hstore

theorem survives_memberInheritsNullish (r : NodeRef) :
    (memberInheritsNullish r).Survives t file fun _ => True := by
  refine survives_bind survives_tree fun _ _ => ?_
  split
  · exact survives_pure trivial
  · split
    · exact survives_pure trivial
    · next n access _ name _ =>
      refine survives_bind survives_store fun s hs => ?_
      refine survives_bind (survives_constrainedTypeAt h _) fun object hobject => ?_
      have hpart {part : TypeId} (hpart : part ∈ t.store.unionMembers object) : t.store.Known part :=
        h.store.known_of_mem_unionMembers hobject hpart
      rw [hs.unionMembers_eq hobject]
      split_ifs
      · exact survives_pure trivial
      · refine survives_bind (survives_constrainedTypeAt h _) fun key hkey => ?_
        refine survives_bind (survives_ask (answers_anyType fun part hmem =>
          answers_propertyNullable h.store (hpart hmem) hkey)) ?_
        rintro _ rfl
        exact survives_bind (survives_lift (exists_anyM fun part _ =>
          exists_keyAnswerTo hstore h.store part hkey)) fun _ _ => survives_pure trivial
      · refine survives_bind (survives_ask (answers_anyType fun part hmem =>
          answers_memberNullable h.store name (hpart hmem))) ?_
        rintro _ rfl
        exact survives_bind (survives_lift (exists_anyM fun _ _ => ⟨_, rfl⟩))
          fun _ _ => survives_pure trivial

theorem survives_memberMayBeMissing (r : NodeRef) :
    (memberMayBeMissing r).Survives t file fun _ => True := by
  refine survives_bind survives_tree fun _ _ => ?_
  split
  · exact survives_pure trivial
  · refine survives_bind survives_store fun _ _ => ?_
    refine survives_bind (survives_typeAt h _) fun object hobject => ?_
    split_ifs
    · refine survives_bind (survives_typeAt h _) fun key hkey => ?_
      refine survives_bind (survives_ask (answers_propertyNullable h.store hobject hkey)) ?_
      rintro _ rfl
      exact (survives_lift (exists_keyAnswerTo hstore h.store object hkey)).imp fun _ _ => trivial
    · split <;> exact survives_pure trivial

end MemberNullability

section

open MemberNullability

variable (htree : file.tree.Grounded) (hstore : t.store.Grounded) (h : t.Closed)

include htree hstore h

theorem OptionalChain.survives_check (r : NodeRef) :
    (OptionalChain.check r).Survives t file fun _ => True := by
  have hown (r : NodeRef) : (isOwnNullish r).Survives t file fun _ => True := by
    refine survives_bind survives_tree fun _ _ => ?_
    split
    · exact survives_bind (survives_memberInheritsNullish hstore h r)
        fun _ _ => survives_pure trivial
    · exact survives_bind (survives_memberInheritsNullish hstore h r)
        fun _ _ => survives_pure trivial
    · exact survives_bind (survives_callInheritsNullish h r) fun _ _ => survives_pure trivial
    · exact survives_pure trivial
  have hnullish (r : NodeRef) : (mayBeNullish r).Survives t file fun _ => True := by
    refine survives_bind survives_store fun _ _ => ?_
    refine survives_bind (survives_constrainedTypeAt h _) fun _ _ => ?_
    split_ifs
    · exact survives_pure trivial
    · exact survives_bind (hown r) fun _ _ => survives_pure trivial
  refine survives_bind survives_file fun _ _ => ?_
  split
  · exact survives_pure trivial
  · exact survives_pure trivial
  · refine survives_bind (survives_optionalStepReadsIndex htree h r) fun _ _ => ?_
    split_ifs
    · exact survives_pure trivial
    · refine survives_bind (hnullish _) fun _ _ => ?_
      split_ifs
      · exact survives_pure trivial
      · exact survives_bind (survives_orFail _ _) fun _ _ => survives_pure trivial

namespace Condition

omit hstore in
theorem survives_checkCondition (r : NodeRef) :
    (checkCondition r).Survives t file fun _ => True := by
  obtain ⟨rank, hsize, hrank⟩ := htree.exists_rank
  have henough (depth : Nat) (r : NodeRef) (negated : Bool) (hdepth : rank r < depth) :
      (checkConditionTo depth r negated).Survives t file fun _ => True := by
    induction depth generalizing r negated with
    | zero => omega
    | succ depth ih =>
      refine survives_bind survives_file ?_
      rintro _ rfl
      refine survives_bind (survives_lift (htree.exists_skipParentheses r)) fun m hm => ?_
      have hle := Tree.rank_le_of_skipParentheses hrank hm
      split
      · exact survives_pure trivial
      · next n hn =>
        split
        · next operand hoperand =>
          obtain ⟨u, hu, hoperand⟩ := Option.bind_eq_some_iff.mp hoperand
          split_ifs at hoperand
          cases hoperand
          have hless := hrank m u.operand <| Tree.refersTo_of_mem hn <| by
            rw [Node.payload_of_unary? hu]
            exact List.mem_cons_self
          exact ih _ _ (by omega)
        · refine survives_bind survives_options fun _ _ => ?_
          refine survives_ite_bind (survives_pure trivial) (survives_readsIndex h _) fun _ _ => ?_
          dsimp only
          split_ifs
          · exact survives_pure trivial
          · split
            · next right hright =>
              obtain ⟨b, hb, hright⟩ := Option.bind_eq_some_iff.mp hright
              split_ifs at hright
              cases hright
              have hless := hrank m b.right <| Tree.refersTo_of_mem hn <| by
                rw [Node.payload_of_binary? hb]
                simp [Payload.fields]
              exact ih _ _ (by omega)
            · refine survives_bind survives_store fun _ _ => ?_
              exact survives_bind (survives_constrainedTypeAt h _) fun _ _ => survives_pure trivial
  refine survives_bind survives_tree ?_
  rintro _ rfl
  exact henough _ r false (Nat.lt_succ_of_le (hsize r))

theorem survives_checkNullish (r : NodeRef) :
    (checkNullish r).Survives t file fun _ => True := by
  have hanyway (r : NodeRef) : (mayBeNullishAnyway r).Survives t file fun _ => True := by
    refine survives_bind survives_tree fun _ _ => ?_
    refine survives_bind (survives_readsIndex h r) fun index _ => ?_
    by_cases hindex : index = true
    · rw [if_pos hindex]
      exact survives_pure trivial
    · rw [if_neg hindex]
      refine survives_ite_bind (survives_optionalStepReadsIndex htree h r) (survives_pure trivial)
        fun chain _ => ?_
      dsimp only
      split_ifs
      · exact survives_pure trivial
      · exact survives_memberMayBeMissing hstore h r
  refine survives_bind survives_file ?_
  rintro _ rfl
  refine survives_bind (survives_lift (htree.exists_skipParentheses r)) fun _ _ => ?_
  refine survives_bind survives_store fun _ _ => ?_
  refine survives_bind (survives_constrainedTypeAt h _) fun _ _ => ?_
  split_ifs
  · exact survives_pure trivial
  · exact survives_pure trivial
  · refine survives_bind (hanyway _) fun _ _ => ?_
    split_ifs <;> exact survives_pure trivial
  · exact survives_pure trivial
  · exact survives_pure trivial

omit htree hstore in
theorem survives_checkComparison (r : NodeRef) (b : Binary) :
    (checkComparison r b).Survives t file fun _ => True := by
  refine survives_bind survives_file fun _ _ => ?_
  refine survives_bind survives_store fun _ _ => ?_
  refine survives_bind (survives_constrainedTypeAt h _) fun _ _ => ?_
  refine survives_bind (survives_constrainedTypeAt h _) fun _ _ => ?_
  split_ifs
  · exact survives_pure trivial
  · refine survives_bind survives_options fun _ _ => ?_
    split_ifs <;> exact survives_pure trivial

omit hstore in
theorem survives_checkArrayPredicate (r : NodeRef) :
    (checkArrayPredicate r).Survives t file fun _ => True := by
  refine survives_bind survives_file fun _ _ => ?_
  split
  · exact survives_pure trivial
  · split
    · refine survives_bind survives_store fun _ _ => ?_
      refine survives_bind (survives_constrainedTypeAt h _) fun _ _ => ?_
      split_ifs
      · exact survives_pure trivial
      · split
        · exact survives_pure trivial
        · exact survives_checkCondition htree h _
        · exact survives_bind (survives_constrainedTypeAt h _) fun _ _ => survives_pure trivial
    · exact survives_pure trivial

theorem survives_checkBinary (r : NodeRef) (b : Binary) :
    (checkBinary r b).Survives t file fun _ => True := by
  rw [checkBinary]
  split
  · exact survives_checkNullish htree hstore h _
  · exact survives_checkNullish htree hstore h _
  · exact survives_checkCondition htree h _
  · exact survives_checkCondition htree h _
  · exact survives_checkCondition htree h _
  · exact survives_checkCondition htree h _
  · split_ifs
    · exact survives_checkComparison h r b
    · exact survives_pure trivial

omit hstore in
theorem survives_checkLoop (o : Options) (l : Loop) :
    (checkLoop o l).Survives t file fun _ => True := by
  rw [checkLoop]
  by_cases hnone : l.condition.isNone = true
  · rw [if_pos hnone]
    exact survives_pure trivial
  · rw [if_neg hnone]
    have hrest (constant : Bool) : (if constant then pure [] else checkCondition l.condition :
        Check (List Report)).Survives t file fun _ => True := by
      split_ifs
      · exact survives_pure trivial
      · exact survives_checkCondition htree h _
    dsimp only
    split_ifs
    · exact survives_bind (survives_constrainedTypeAt h _)
        fun id _ => hrest (id == TypeId.trueLiteral)
    · exact hrest false

theorem survives_check (o : Options) (r : NodeRef) :
    (Condition.check o r).Survives t file fun _ => True := by
  have hsome {α : Type} (value : Option α) {check : α → Check (List Report)}
      (hcheck : ∀ a, (check a).Survives t file fun _ => True) :
      (onSome value check).Survives t file fun _ => True := by
    cases value with
    | none => exact survives_pure trivial
    | some a => exact hcheck a
  refine survives_bind survives_tree fun _ _ => ?_
  split
  · exact survives_pure trivial
  · split
    · exact hsome _ fun _ => survives_checkCondition htree h _
    · exact hsome _ fun _ => survives_checkCondition htree h _
    · exact hsome _ (survives_checkLoop htree h o)
    · exact hsome _ (survives_checkLoop htree h o)
    · exact hsome _ (survives_checkLoop htree h o)
    · exact hsome _ (survives_checkBinary htree hstore h r)
    · exact survives_checkArrayPredicate htree h r
    · exact survives_pure trivial

end Condition

end

end Rules

open Rules

/-- A rule that asks for no types needs nothing but comments and assertions that can be taken
    apart. -/
theorem Rule.Builtin.survives_untyped {rule : Rule} (hrule : rule.Builtin)
    (huntyped : rule.info.requiresTypes = false) (hfile : file.Divisible) :
    rule.Survives t file := by
  cases hrule with
  | extraNonNullAssertion =>
    refine ⟨survives_pure trivial, fun r kind hkind hcalled => ?_⟩
    rw [List.mem_singleton.mp hcalled] at hkind
    exact ExtraNonNullAssertion.survives_check hfile hkind
  | suppressionComment =>
    exact ⟨survives_pure trivial, fun r _ _ _ => SuppressionComment.survives_check hfile r⟩
  | duplicateCase =>
    exact ⟨survives_pure trivial, fun r _ _ _ => DuplicateCase.survives_check r⟩
  | _ => cases huntyped

/-- A rule of the library does not crash on a file whose comments and assertions can be taken apart
    and whose nodes do not refer to each other in a circle, if no union is a member of itself. -/
theorem Rule.Builtin.survives {rule : Rule} (hrule : rule.Builtin) (h : t.Closed)
    (hstore : t.store.Grounded) (hfile : file.Divisible) (htree : file.tree.Grounded) :
    rule.Survives t file := by
  have huntyped (hrequires : rule.info.requiresTypes = false) : rule.Survives t file :=
    hrule.survives_untyped hrequires hfile
  cases hrule with
  | typeAssertion o =>
    exact ⟨survives_pure trivial, fun r _ _ _ => TypeAssertion.survives_check h o r⟩
  | nonNullAssertion =>
    refine ⟨survives_pure trivial, fun r kind hkind hcalled => ?_⟩
    rw [List.mem_singleton.mp hcalled] at hkind
    exact NonNullAssertion.survives_check h hfile hkind
  | extraNonNullAssertion | suppressionComment | duplicateCase => exact huntyped rfl
  | condition o =>
    exact ⟨survives_requireStrictNullChecks _,
      fun r _ _ _ => Condition.survives_check htree hstore h o r⟩
  | optionalChain =>
    exact ⟨survives_pure trivial, fun r _ _ _ => OptionalChain.survives_check htree hstore h r⟩
  | switchExhaustiveness o =>
    exact ⟨survives_pure trivial, fun r _ _ _ => SwitchExhaustiveness.survives_check h o r⟩
  | nullishCoalescing o =>
    exact ⟨survives_requireStrictNullChecks _,
      fun r _ _ _ => NullishCoalescing.survives_check htree h o r⟩

namespace Program

variable {p : TypeLint.Program} {f : SourceFile}

/-- The comments and assertions of a file that is built from a program can be taken apart. -/
theorem Shown.divisible (hp : Disciplined p) (hf : Shown p f) : f.Divisible where
  comment _ := hf.isBoundary_comment
  assertion r hkind := by
    obtain ⟨front, behind, -, hstop⟩ := hf.exists_mark hp hkind
    rw [hstop]
    exact Nat.succ_pos _

/-- In a file that is built from a program nodes refer to nodes in front of them only. -/
theorem Shown.grounded (hp : Disciplined p) (hf : Shown p f) : f.tree.Grounded := by
  have hdown {r s : NodeRef} (h : Relation.TransGen f.tree.RefersTo r s) :
      ∃ i, r = some i ∧ ∀ j, s = some j → j < i := by
    have hstep {r s : NodeRef} (h : f.tree.RefersTo r s) :
        ∃ i, r = some i ∧ ∀ j, s = some j → j < i := by
      cases hn : f.tree.get? r with
      | none =>
        rw [Tree.RefersTo, Tree.links, hn] at h
        cases h
      | some n =>
        obtain ⟨i, rfl, -⟩ := Tree.exists_of_get? hn
        refine ⟨i, rfl, fun j hj => ?_⟩
        rcases (hf.bottomUp hp).link _ s h with hnone | hchild
        · cases hnone.symm.trans hj
        · obtain ⟨k, hk, rfl⟩ := (hf.bottomUp hp).exists_of_mem_children hchild
          exact Option.some.inj hj ▸ hk
    induction h with
    | single h => exact hstep h
    | tail _ hlast ih =>
      obtain ⟨i, rfl, hi⟩ := ih
      obtain ⟨k, rfl, hk⟩ := hstep hlast
      exact ⟨i, rfl, fun j hj => (hk j hj).trans (hi k rfl)⟩
  intro r hcircle
  obtain ⟨i, rfl, hi⟩ := hdown hcircle
  exact Nat.lt_irrefl i (hi i rfl)

end Program

end TypeLint
