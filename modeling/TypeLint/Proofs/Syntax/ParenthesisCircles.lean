import TypeLint.Proofs.Syntax.Parentheses

namespace TypeLint.Syntax.Tree

variable {t : Tree}

/-- What stands in parentheses is one of their children, or it is not there. -/
def RefersInwards (t : Tree) : Prop :=
  ∀ r ∈ t.refs, ∀ inner ∈ (t.get? r).bind Node.parenthesized?,
    inner ∈ t.children r ∨ t.get? inner = none

instance (t : Tree) : Decidable t.RefersInwards :=
  inferInstanceAs (Decidable (∀ r ∈ t.refs, ∀ inner ∈ (t.get? r).bind Node.parenthesized?,
    inner ∈ t.children r ∨ t.get? inner = none))

/-- Where children come in front of their parents, what is in parentheses comes in front of them. -/
theorem ChildrenFirst.lt_of_encloses (h : t.ChildrenFirst) (hin : t.RefersInwards) {i : Nat}
    {inner : NodeRef} (hinner : t.Encloses (some i) inner) :
    t.get? inner = none ∨ ∃ j, inner = some j ∧ j < i := by
  obtain ⟨n, hn, -⟩ := Option.bind_eq_some_iff.mp hinner
  obtain ⟨j, hj, hlt⟩ := exists_of_get? hn
  have hmem : some i ∈ t.refs := List.mem_map_of_mem (List.mem_range.mpr (Option.some.inj hj ▸ hlt))
  refine (hin _ hmem inner hinner).symm.imp_right fun hchild => ?_
  obtain ⟨j, rfl, hlt, -⟩ := h.child_lt i inner hchild
  exact ⟨j, rfl, hlt⟩

/-- In a tree that a source file accepts, the loop that goes into parentheses ends from a node
    exactly if no circle of parentheses is reached from it. If it ends, what it ends with stands in
    all the parentheses and is no parenthesised expression with a payload itself. It ends from every
    node if what stands in parentheses is one of their children or is not there. -/
theorem Raw.skipParentheses_ends (h : t.Raw) {fileName text : String} {root : NodeRef}
    {f : SourceFile} (hf : SourceFile.ofTree fileName text t root = .ok f) :
    (∀ r, (∃ m, Ends t.enterStep r m) ↔
      ∀ s, t.Wraps r s → ¬ Relation.TransGen t.Encloses s s) ∧
    (∀ r m, Ends t.enterStep r m ↔ t.skipParentheses r = .ok m) ∧
    (∀ r m, Ends t.enterStep r m →
      t.Wraps r m ∧ (t.get? m).bind Node.parenthesized? = none) ∧
    (t.RefersInwards → ∀ r, ∃ m, Ends t.enterStep r m ∧ t.skipParentheses r = .ok m) := by
  refine ⟨fun r => exists_ends_enterStep_iff, fun r m => skipParentheses_eq_ok_iff.symm,
    fun r m hends => ?_, fun hin r => ?_⟩
  · obtain ⟨hwraps, hstop⟩ := ends_enterStep_iff.mp hends
    refine ⟨hwraps, Option.eq_none_iff_forall_ne_some.mpr fun inner hinner => ?_⟩
    cases hstop.symm.trans (enterStep_eq_inl.mpr hinner)
  · obtain ⟨m, hm⟩ := exists_skipParentheses_of_lt
      (fun i inner hinner => (h.childrenFirst hf).lt_of_encloses hin hinner) r
    exact ⟨m, skipParentheses_eq_ok_iff.mp hm, hm⟩

/-- An identifier in parentheses, with what the parenthesised expression refers to. -/
def parenthesizedTree (inner : NodeRef) : Tree :=
  let t := (empty.add .openParenToken 0 0 0 1 [] .empty).2
  let t := (t.add .identifier 0 1 1 2 [] (.identifier "a")).2
  let t := (t.add .closeParenToken 0 2 2 3 [] .empty).2
  let t := (t.add .parenthesizedExpression 0 0 0 3 [some 0, some 1, some 2] (.wrapped inner)).2
  let t := (t.add .endOfFileToken 0 3 3 3 [] .empty).2
  (t.add .sourceFile 0 0 0 3 [some 3, some 4] .empty).2

theorem raw_parenthesizedTree (inner : NodeRef) : (parenthesizedTree inner).Raw :=
  .add (.add (.add (.add (.add (.add .empty ..) ..) ..) ..) ..) ..

theorem skipParentheses_ends_child : ∃ t f, t = parenthesizedTree (some 1) ∧ t.Raw ∧
    SourceFile.ofTree "a.ts" "(a)" t (some 5) = .ok f ∧ t.RefersInwards ∧
      Ends t.enterStep (some 3) (some 1) ∧ t.skipParentheses (some 3) = .ok (some 1) ∧
      (t.get? (some 1)).bind Node.parenthesized? = none := by
  obtain ⟨f, hf⟩ : ∃ f,
      SourceFile.ofTree "a.ts" "(a)" (parenthesizedTree (some 1)) (some 5) = .ok f := ⟨_, rfl⟩
  have hin : (parenthesizedTree (some 1)).RefersInwards := by decide
  obtain ⟨-, hresult, hstands, hends⟩ := (raw_parenthesizedTree (some 1)).skipParentheses_ends hf
  have hinner : (parenthesizedTree (some 1)).skipParentheses (some 3) = .ok (some 1) := by
    decide
  obtain ⟨m, hend, hm⟩ := hends hin (some 3)
  obtain rfl := Except.ok.inj (hm.symm.trans hinner)
  exact ⟨_, f, rfl, raw_parenthesizedTree _, hf, hin, hend, hm, (hstands _ _ hend).2⟩

/-- From parentheses that refer to themselves the loop does not end. -/
theorem skipParentheses_circle : (parenthesizedTree (some 3)).Raw ∧
    (∃ f, SourceFile.ofTree "a.ts" "(a)" (parenthesizedTree (some 3)) (some 5) = .ok f) ∧
    ¬ ∃ m, Ends (parenthesizedTree (some 3)).enterStep (some 3) m := by
  refine ⟨raw_parenthesizedTree _, ⟨_, rfl⟩, fun hends => ?_⟩
  exact exists_ends_enterStep_iff.mp hends (some 3) .refl (.single rfl)

end TypeLint.Syntax.Tree
