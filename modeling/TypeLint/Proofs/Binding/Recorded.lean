import TypeLint.Proofs.Binding.Idempotent

namespace TypeLint.Binding.TypeTable

open Syntax TypeLint.Types TypeLint.Types.Store

variable {tree : Tree} {t t' : TypeTable} {r c : NodeRef} {n : Node} {k m : Nat}

theorem bindNode_of_expression (hn : tree.get? r = some n) (hd : n.variableDeclaration? = none)
    {scope : Scope} {answer : Option TypeId}
    (hbound : t.bindExpression tree scope r n = (answer, t')) :
    (bindNode tree (scope, t) r).2 = answer.elim t' (t'.addType r) := by
  rw [bindNode, hn]
  simp only [hd, hbound]
  cases answer <;> rfl

theorem ne_target (hname : ∀ r d, tree.variableDeclaration? r = some d → d.name ≠ c)
    (hne : c ≠ r) : c ≠ target tree r := by
  rw [target]
  cases hd : tree.variableDeclaration? r with
  | none => exact hne
  | some d => exact (hname r d hd).symm

section

variable (hb : tree.BottomUp) (ht : t.Sound) (hkm : k < m)

include hb ht hkm

/-- The type of an expression is recorded, and binding the expression again gives it. -/
theorem bindExpression_bindBefore (hnew : t.typeAt? (some k) = none)
    (hn : tree.get? (some k) = some n) (hd : n.variableDeclaration? = none)
    (hname : ∀ r d, tree.variableDeclaration? r = some d → d.name ≠ some k) :
    (bindBefore tree t m).2.bindExpression tree (scopeBefore tree k) (some k) n =
      ((bindBefore tree t m).2.typeAt? (some k), (bindBefore tree t m).2) := by
  have hsound := sound_bindBefore ht tree k
  have hstep := congrArg Prod.snd (bindBefore_succ tree t k)
  have hlater : (bindBefore tree t (k + 1)).2.Extends (bindBefore tree t m).2 :=
    extends_bindBefore tree t hkm
  have hlinks : tree.links (some k) = n.payload.fields.flatten := by
    rw [Tree.links, hn]
    rfl
  obtain ⟨-, hnodes, -, hagain⟩ :=
    rebinds_bindExpression hsound tree (scopeBefore tree k) (some k) n
  rcases hbound : (bindBefore tree t k).2.bindExpression tree (scopeBefore tree k) (some k) n with
    ⟨answer, t'⟩
  rw [hbound] at hnodes hagain
  rw [bindNode_of_expression hn hd hbound] at hstep
  -- The step records the answer for the node and nothing else.
  have hentry (c : NodeRef) : (bindBefore tree t (k + 1)).2.typeAt? c =
      if c = some k then ((bindBefore tree t k).2.typeAt? c).or answer
      else (bindBefore tree t k).2.typeAt? c := by
    have hold : t'.typeAt? c = (bindBefore tree t k).2.typeAt? c := by
      rw [typeAt?, hnodes, typeAt?]
    rw [hstep]
    cases answer with
    | none => simp only [Option.elim_none, hold, Option.or_none, ite_self]
    | some id =>
      rw [Option.elim_some, typeAt?_addType]
      split_ifs with hc
      · rw [← hc, hold]
        cases (bindBefore tree t k).2.typeAt? c <;> rfl
      · exact hold
  have hgrown : t'.Extends (bindBefore tree t m).2 := by
    rw [hstep] at hlater
    cases answer with
    | none => exact hlater
    | some id =>
      exact (t'.extends_addType _ id).trans hlater
  have htypeNodes (c : NodeRef) :
      (bindBefore tree t (k + 1)).2.typeOfTypeNode? c = t'.typeOfTypeNode? c := by
    rw [hstep]
    cases answer <;> rfl
  rw [hagain _ hgrown (fun c hc => ?_) fun c hc => ?_]
  · refine congrArg (·, _) ?_
    have hfresh : (bindBefore tree t k).2.typeAt? (some k) = none :=
      (typeAt?_bindBefore tree t k.zero_le fun j _ hj =>
        ne_target hname fun heq => by cases heq; omega).trans hnew
    rw [typeAt?_bindBefore tree t hkm fun j hj _ =>
      ne_target hname fun heq => by cases heq; omega, hentry, if_pos rfl, hfresh, Option.none_or]
  · have hkeys := self_not_mem_keys hb k
    rw [hlinks] at hkeys
    rw [(early_of_mem_keys hb (by rwa [hlinks])).typeAt?_eq hb t hkm, hentry,
      if_neg fun heq : c = some k => hkeys (heq ▸ hc)]
  · rw [(early_of_mem_links hb (by rwa [hlinks])).typeOfTypeNode?_eq hb t hkm, htypeNodes]

end

section

variable {d : VariableDeclaration} (hb : tree.BottomUp)
  (hd : tree.variableDeclaration? (some k) = some d)

include hb hd

theorem exists_name : ∃ j < k, d.name = some j :=
  hb.exists_of_mem_children (hb.name _ _ hd)

/-- A name is declared by one declaration only. -/
theorem eq_of_name_eq {r : NodeRef} {d' : VariableDeclaration}
    (hd' : tree.variableDeclaration? r = some d') (hname : d'.name = d.name) : r = some k :=
  hb.eq_of_mem_children (hb.name _ _ hd') (hname ▸ hb.name _ _ hd)

theorem isReference_declaredName : isReference tree d.name = false := by
  obtain ⟨n, hn, hd'⟩ := Option.bind_eq_some_iff.mp hd
  rw [isReference, (hb.child _ _ (hb.name _ _ hd)).1, hn]
  simp only [(Node.payload_of_variableDeclaration? hd').2, hd', Option.map_some, bne_self_eq_false,
    Option.getD_some]

/-- Until its declaration is bound, nothing is recorded for a declared name. -/
theorem typeAt?_name_bindBefore (hnew : t.typeAt? d.name = none) :
    (bindBefore tree t k).2.typeAt? d.name = none := by
  obtain ⟨j, hj, hname⟩ := exists_name hb hd
  obtain ⟨n, hn, hkind⟩ := Option.map_eq_some_iff.mp (hb.identifier _ _ hd)
  have hnot : n.variableDeclaration? = none := by
    cases hdeclared : n.variableDeclaration? with
    | none => rfl
    | some d' =>
      rw [(Node.payload_of_variableDeclaration? hdeclared).2] at hkind
      cases hkind
  have hother {i : Nat} (hne : i ≠ j) (hik : i < k) : d.name ≠ target tree (some i) := by
    rw [target]
    cases hdeclared : tree.variableDeclaration? (some i) with
    | none => exact fun heq => hne (Option.some.inj (heq.symm.trans hname))
    | some d' =>
      intro heq
      cases eq_of_name_eq hb hd hdeclared heq.symm
      omega
  have hsilent : ((bindBefore tree t j).2.bindExpression tree (scopeBefore tree j) (some j) n) =
      (none, (bindBefore tree t j).2) := by
    rw [bindExpression, hkind]
    simp only [bindIdentifier, ← hname, isReference_declaredName hb hd]
    split <;> rfl
  rw [hname] at hn
  have hstep := congrArg Prod.snd (bindBefore_succ tree t j)
  rw [bindNode_of_expression hn hnot hsilent, Option.elim_none] at hstep
  rw [typeAt?_bindBefore tree t hj fun i hi hik => hother (by omega) hik, hstep,
    typeAt?_bindBefore tree t j.zero_le fun i _ hij => hother (by omega) (by omega)]
  exact hnew

/-- The type of a declared name is recorded, and binding the declaration again gives it. -/
theorem declaredType_bindBefore (ht : t.Sound) (hkm : k < m) (hnew : t.typeAt? d.name = none) :
    (bindBefore tree t m).2.declaredType tree (some k) d =
      ((bindBefore tree t m).2.typeAt? d.name, (bindBefore tree t m).2) := by
  have hsound := sound_bindBefore ht tree k
  have hstep := congrArg Prod.snd (bindBefore_succ tree t k)
  have hlater : (bindBefore tree t (k + 1)).2.Extends (bindBefore tree t m).2 :=
    extends_bindBefore tree t hkm
  have hname : Early tree (k + 1) d.name := .inr ⟨k, k.lt_succ_self, hb.name _ _ hd⟩
  have hfresh := typeAt?_name_bindBefore hb hd hnew
  obtain ⟨n, hn, hd'⟩ := Option.bind_eq_some_iff.mp hd
  have hlinks : d.typeAnnotation ∈ tree.links (some k) ∧ d.initializer ∈ tree.links (some k) := by
    simp [Tree.links, hn, (Node.payload_of_variableDeclaration? hd').1, Payload.fields]
  have hannotation := (early_of_mem_links hb hlinks.1).typeOfTypeNode?_eq hb t hkm
  have hinitializer := (early_of_mem_links hb hlinks.2).typeAt?_eq hb t hkm
  rcases hbound : (bindBefore tree t k).2.declaredType tree (some k) d with ⟨answer, t'⟩
  obtain ⟨-, hnodes, -, hagain⟩ := declaredType_again hsound tree (some k) d hbound
  have hold : t'.typeAt? d.name = none := by rwa [typeAt?, hnodes]
  rw [bindNode, hn] at hstep
  simp only [hd', bindDeclaration, hbound] at hstep
  rw [hname.typeAt?_eq hb t hkm]
  cases answer with
  | none =>
    simp only at hstep
    rw [hstep] at hlater hannotation hinitializer ⊢
    rw [hagain _ hlater hannotation fun _ => hinitializer, hold]
  | some id =>
    simp only at hstep
    rw [hstep] at hlater hannotation ⊢
    have hgrown : t'.Extends (bindBefore tree t m).2 :=
      (t'.extends_addType _ id).trans hlater
    rw [hagain _ hgrown hannotation (by rintro ⟨⟩), typeAt?_addType, if_pos rfl, hold]
    rfl

end

end TypeLint.Binding.TypeTable
