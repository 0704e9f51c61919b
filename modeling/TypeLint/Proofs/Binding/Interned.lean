import TypeLint.Binding.Bind
import TypeLint.Proofs.Lint.Agreement
import TypeLint.Proofs.Types.HashConsing

namespace TypeLint.Types.Store

open Binding

variable {s s' : Store} {id : TypeId} {members : List TypeId} {data : TypeData}

theorem known_compose {ofNone : TypeId} (hnone : s.Known ofNone) (make : List TypeId → TypeData)
    (hknown : ∀ m ∈ members, s.Known m) :
    (s.compose ofNone make members).2.Known (s.compose ofNone make members).1 :=
  match members with
  | [] => hnone
  | [_] => hknown _ (List.mem_singleton_self _)
  | _ :: _ :: _ => known_of_lookup (s.lookup_intern _)

theorem Closed.known_union (h : s.Closed) (hknown : ∀ m ∈ members, s.Known m) :
    (s.union members).2.Known (s.union members).1 := by
  have hany : s.Known TypeId.any := h.known_builtin (by decide)
  have hunknown : s.Known TypeId.unknown := h.known_builtin (by decide)
  simp only [Store.union]
  split_ifs
  · exact hany
  · exact hunknown
  · refine known_compose (h.known_builtin (by decide)) _ fun part hpart => ?_
    rw [mem_sortIds] at hpart
    obtain ⟨m, hm, hpart⟩ :=
      List.mem_flatMap.mp (List.mem_of_mem_filter (List.mem_of_mem_filter hpart))
    exact h.known_of_mem_unionMembers (hknown m hm) hpart

theorem Closed.known_intersection (h : s.Closed) (hknown : ∀ m ∈ members, s.Known m) :
    (s.intersection members).2.Known (s.intersection members).1 := by
  have hnever : s.Known TypeId.never := h.known_builtin (by decide)
  have hany : s.Known TypeId.any := h.known_builtin (by decide)
  simp only [Store.intersection]
  split_ifs
  · exact hnever
  · exact hany
  · refine known_compose (h.known_builtin (by decide)) _ fun part hpart => ?_
    rw [mem_sortIds] at hpart
    obtain ⟨m, hm, hpart⟩ := List.mem_flatMap.mp (List.mem_of_mem_filter hpart)
    exact h.known_of_mem_intersectionMembers (hknown m hm) hpart

/-- A request leaves a store that the constructors have built, and the type is known there. -/
structure Makes (s : Store) (result : Option TypeId × Store) : Prop where
  made : result.2.Made
  grown : s.Extends result.2
  known : ∀ id, result.1 = some id → result.2.Known id

theorem Makes.after {result : Option TypeId × Store} (h : s'.Makes result) (hs : s.Extends s') :
    s.Makes result :=
  ⟨h.made, hs.trans h.grown, h.known⟩

section

variable (h : s.Made)

include h

theorem makes_none : s.Makes (none, s) := ⟨h, .refl s, fun _ hid => nomatch hid⟩

theorem makes_some (hid : s.Known id) : s.Makes (some id, s) :=
  ⟨h, .refl s, fun _ heq => Option.some.inj heq ▸ hid⟩

theorem makes_builtin (hid : id < TypeId.builtinCount) : s.Makes (some id, s) :=
  makes_some h (h.normal.closed.known_builtin hid)

theorem makes_intern (hsimple : data.isSimple = true) (hknown : ∀ m ∈ data.mentioned, s.Known m) :
    s.Makes (found (s.intern data)) where
  made := h.intern hsimple hknown
  grown := s.extends_intern data
  known _ heq := Option.some.inj heq ▸ known_of_lookup (s.lookup_intern data)

theorem makes_union (hknown : ∀ m ∈ members, s.Known m) : s.Makes (found (s.union members)) where
  made := h.union hknown
  grown := s.extends_union members
  known _ heq := Option.some.inj heq ▸ h.normal.closed.known_union hknown

theorem makes_intersection (hknown : ∀ m ∈ members, s.Known m) :
    s.Makes (found (s.intersection members)) where
  made := h.intersection hknown
  grown := s.extends_intersection members
  known _ heq := Option.some.inj heq ▸ h.normal.closed.known_intersection hknown

theorem makes_removeNullish (hid : s.Known id) : s.Makes (found (removeNullish s id)) :=
  makes_union h fun _ hm =>
    h.normal.closed.known_of_mem_unionMembers hid (List.mem_of_mem_filter hm)

theorem makes_propertyIn (name : String) {parts : List TypeId}
    (hparts : ∀ part ∈ parts, s.Known part) : s.Makes (s.propertyIn name parts) := by
  induction parts with
  | nil => exact makes_none h
  | cons part rest ih =>
    rw [propertyIn]
    split
    · next p hp =>
      have hknown := h.normal.closed.known_of_ownProperty? hp
      split_ifs
      · exact makes_union h (by simpa using ⟨hknown, h.normal.closed.known_builtin (by decide)⟩)
      · exact makes_some h hknown
    · split
      · next elements index helements _ =>
        exact ⟨h, .refl s, fun id hid =>
          h.normal.closed.known_of_mem_tupleElements? helements (List.mem_of_getElem? hid)⟩
      · exact ih fun other hother => hparts other (List.mem_cons_of_mem _ hother)

theorem makes_propertyType (hid : s.Known id) (name : String) : s.Makes (s.propertyType id name) :=
  makes_propertyIn h name fun _ hpart =>
    h.normal.closed.known_of_mem_intersectionMembers hid hpart

end

end TypeLint.Types.Store

namespace TypeLint.Binding

open Syntax TypeLint.Types TypeLint.Types.Store

variable {s : Store} {tree : Tree} {named : List (String × TypeId)}

theorem makes_stringType? (h : s.Made) (n : Node) : s.Makes (stringType? s n) := by
  rw [stringType?]
  split
  · exact makes_intern h rfl (List.forall_mem_nil _)
  · exact makes_none h

theorem makes_numberType? (h : s.Made) (n : Node) : s.Makes (numberType? s n) := by
  rw [numberType?]
  split
  · exact makes_intern h rfl (List.forall_mem_nil _)
  · exact makes_none h

theorem makes_literalNodeType? (h : s.Made) (n : Node) : s.Makes (literalNodeType? s n) := by
  rw [literalNodeType?]
  split
  · exact makes_builtin h (by decide)
  · exact makes_builtin h (by decide)
  · exact makes_builtin h (by decide)
  · exact makes_stringType? h n
  · exact makes_numberType? h n
  · exact makes_none h

theorem makes_keywordType? (h : s.Made) (kind : Kind) : s.Makes (keywordType? kind, s) := by
  unfold keywordType?
  split <;> first | exact makes_builtin h (by decide) | exact makes_none h

/-- Every store to which the names are known gives the types that are asked for. -/
def Serves (named : List (String × TypeId)) (one : NodeRef → Store → Option TypeId × Store) :
    Prop :=
  ∀ s : Store, s.Made → (∀ entry ∈ named, s.Known entry.2) → ∀ r, s.Makes (one r s)

section

variable {one : NodeRef → Store → Option TypeId × Store} (hone : Serves named one) (h : s.Made)
  (hnamed : ∀ entry ∈ named, s.Known entry.2)

include hone h hnamed

theorem collectTypes_known (rs : List NodeRef) :
    (collectTypes one rs s).2.Made ∧ s.Extends (collectTypes one rs s).2 ∧
      ∀ ids, (collectTypes one rs s).1 = some ids →
        ∀ id ∈ ids, (collectTypes one rs s).2.Known id := by
  induction rs generalizing s with
  | nil => exact ⟨h, .refl s, fun ids hids => Option.some.inj hids ▸ List.forall_mem_nil _⟩
  | cons r rest ih =>
    have hfirst := hone s h hnamed r
    rw [collectTypes]
    rcases hasked : one r s with ⟨_ | id, s'⟩ <;> rw [hasked] at hfirst
    · exact ⟨hfirst.made, hfirst.grown, fun ids hids => nomatch hids⟩
    · obtain ⟨hmade, hgrown, hknown⟩ := ih hfirst.made fun entry hentry =>
        hfirst.grown.known (hnamed entry hentry)
      refine ⟨hmade, hfirst.grown.trans hgrown, fun ids hids => ?_⟩
      obtain ⟨others, hothers, rfl⟩ := Option.map_eq_some_iff.mp hids
      exact List.forall_mem_cons.mpr ⟨hgrown.known (hfirst.known id rfl), hknown others hothers⟩

theorem makes_compositeType? {make : Store → List TypeId → TypeId × Store}
    (hmake : ∀ (s : Store) (members : List TypeId), s.Made → (∀ m ∈ members, s.Known m) →
      s.Makes (found (make s members)))
    (n : Node) : s.Makes (compositeType? make one n s) := by
  rw [compositeType?]
  split
  · exact makes_none h
  · next parts _ =>
    obtain ⟨hmade, hgrown, hknown⟩ := collectTypes_known hone h hnamed parts
    split
    · next ids s' hcollected =>
      rw [hcollected] at hmade hgrown hknown
      exact (hmake s' ids hmade (hknown ids rfl)).after hgrown
    · next s' hcollected =>
      rw [hcollected] at hmade hgrown
      exact ⟨hmade, hgrown, fun id hid => nomatch hid⟩

end

/-- The type that a type node denotes is made in order. -/
theorem serves_resolveTypeTo (tree : Tree) (named : List (String × TypeId)) (depth : Nat) :
    Serves named (resolveTypeTo tree named depth) := by
  induction depth with
  | zero => exact fun _ h _ _ => makes_none h
  | succ depth ih =>
    intro s h hnamed r
    rw [resolveTypeTo]
    split
    · exact makes_none h
    · next n _ =>
      split
      · split
        · exact makes_literalNodeType? h _
        · exact makes_none h
      · exact makes_compositeType? ih h hnamed (fun s members => makes_union) n
      · exact makes_compositeType? ih h hnamed (fun s members => makes_intersection) n
      · have helement := ih s h hnamed (n.wrappedType?.getD none)
        split
        · next element s' hresolved =>
          rw [hresolved] at helement
          have hmentioned : ∀ m ∈ (TypeData.array element).mentioned, s'.Known m :=
            List.forall_mem_singleton.mpr (helement.known _ rfl)
          exact (makes_intern helement.made rfl hmentioned).after helement.grown
        · next s' hresolved =>
          rw [hresolved] at helement
          exact ⟨helement.made, helement.grown, fun id hid => nomatch hid⟩
      · refine ⟨h, .refl s, fun id hid => ?_⟩
        obtain ⟨name, -, hid⟩ := Option.bind_eq_some_iff.mp hid
        obtain ⟨before, after, rfl, -⟩ := List.lookup_eq_some_iff.mp hid
        exact hnamed (name, id) (List.mem_append_right _ List.mem_cons_self)
      · exact makes_keywordType? h _

namespace TypeTable

variable {t t' : TypeTable} {r : NodeRef} {id : TypeId}

/-- The constructors have built the store of the table, and it knows all types that the table
    records or has names for. -/
structure Interned (t : TypeTable) : Prop where
  made : t.store.Made
  nodeTypes : ∀ entry ∈ t.nodeTypes, t.store.Known entry.2
  typeNodeTypes : ∀ entry ∈ t.typeNodeTypes, t.store.Known entry.2
  contextualTypes : ∀ entry ∈ t.contextualTypes, t.store.Known entry.2
  namedTypes : ∀ entry ∈ t.namedTypes, t.store.Known entry.2

theorem interned_new (options : CompilerOptions) : (TypeTable.new options).Interned :=
  ⟨.initial, List.forall_mem_nil _, List.forall_mem_nil _, List.forall_mem_nil _,
    List.forall_mem_nil _⟩

theorem Interned.closed (h : t.Interned) : t.Closed :=
  ⟨h.made.normal.closed, h.nodeTypes, h.typeNodeTypes, h.contextualTypes⟩

theorem Interned.withStore (h : t.Interned) (hmade : s.Made) (hs : t.store.Extends s) :
    TypeTable.Interned { t with store := s } :=
  ⟨hmade, fun entry hentry => hs.known (h.nodeTypes entry hentry),
    fun entry hentry => hs.known (h.typeNodeTypes entry hentry),
    fun entry hentry => hs.known (h.contextualTypes entry hentry),
    fun entry hentry => hs.known (h.namedTypes entry hentry)⟩

theorem Interned.defineType (h : t.Interned) (hid : t.store.Known id) (name : String) :
    (t.defineType name id).Interned :=
  { h with namedTypes := List.forall_mem_cons.mpr ⟨hid, h.namedTypes⟩ }

/-- The type of a node, and the table with the types that were made for it. No type of a node is
    recorded on the way. -/
structure Binds (t : TypeTable) (result : Option TypeId × TypeTable) : Prop where
  interned : result.2.Interned
  grown : t.store.Extends result.2.store
  nodeTypes : result.2.nodeTypes = t.nodeTypes
  known : ∀ id, result.1 = some id → result.2.store.Known id

theorem Binds.after {result : Option TypeId × TypeTable} (h : t'.Binds result)
    (hs : t.store.Extends t'.store) (hsame : t'.nodeTypes = t.nodeTypes) : t.Binds result :=
  ⟨h.interned, hs.trans h.grown, h.nodeTypes.trans hsame, h.known⟩

section

variable (h : t.Interned)

include h

theorem binds_of_known {result : Option TypeId}
    (hknown : ∀ id, result = some id → t.store.Known id) : t.Binds (result, t) :=
  ⟨h, .refl _, rfl, hknown⟩

theorem binds_none : t.Binds (none, t) := binds_of_known h fun _ hid => nomatch hid

theorem binds_builtin (hid : id < TypeId.builtinCount) : t.Binds (some id, t) :=
  binds_of_known h fun _ heq =>
    Option.some.inj heq ▸ h.made.normal.closed.known_builtin hid

theorem binds_keep {result : Option TypeId × Store} (hresult : t.store.Makes result) :
    t.Binds (t.keep result) :=
  ⟨h.withStore hresult.made hresult.grown, hresult.grown, rfl, hresult.known⟩

theorem binds_bindTypeNode (tree : Tree) (r : NodeRef) : t.Binds (t.bindTypeNode tree r) := by
  rw [bindTypeNode]
  split
  · next id hid =>
    exact binds_of_known h fun _ heq =>
      Option.some.inj heq ▸ known_of_lookup h.typeNodeTypes hid
  · have hmakes := serves_resolveTypeTo tree t.namedTypes tree.size t.store h.made h.namedTypes r
    split
    · next id s hresolved =>
      rw [resolveType] at hresolved
      rw [hresolved] at hmakes
      have hinterned := h.withStore hmakes.made hmakes.grown
      refine ⟨{ hinterned with typeNodeTypes := ?_ }, hmakes.grown, rfl, hmakes.known⟩
      exact List.forall_mem_cons.mpr ⟨hmakes.known id rfl, hinterned.typeNodeTypes⟩
    · next s hresolved =>
      rw [resolveType] at hresolved
      rw [hresolved] at hmakes
      exact ⟨h.withStore hmakes.made hmakes.grown, hmakes.grown, rfl, fun id hid => nomatch hid⟩

theorem binds_bindIdentifier (tree : Tree) (scope : Scope) (r : NodeRef) :
    t.Binds (t.bindIdentifier tree scope r) := by
  rw [bindIdentifier]
  split
  · exact binds_none h
  · split_ifs
    · exact binds_none h
    · exact binds_builtin h (by decide)
    · split
      · exact binds_none h
      · refine ⟨{ h with }, .refl _, rfl, fun id hid => ?_⟩
        obtain ⟨d, -, hid⟩ := Option.bind_eq_some_iff.mp hid
        exact h.closed.known_typeAt? hid

theorem binds_bindPropertyAccess (tree : Tree) (n : Node) :
    t.Binds (t.bindPropertyAccess tree n) := by
  rw [bindPropertyAccess]
  split
  · exact binds_none h
  · split
    · next object name hobject _ =>
      have hrest := makes_removeNullish h.made (h.closed.known_typeAt? hobject)
      rcases hremoved : removeNullish t.store object with ⟨nonNullish, s⟩
      rw [hremoved] at hrest
      have hproperty : t.store.Makes (s.propertyType nonNullish name) :=
        (makes_propertyType hrest.made (hrest.known _ rfl) name).after hrest.grown
      dsimp only
      rcases hread : s.propertyType nonNullish name with ⟨_ | property, s'⟩ <;>
        rw [hread] at hproperty
      · exact binds_keep h hproperty
      · split_ifs
        · refine binds_keep h ((makes_union hproperty.made ?_).after hproperty.grown)
          simpa using ⟨hproperty.known _ rfl,
            hproperty.made.normal.closed.known_builtin (by decide)⟩
        · exact binds_keep h hproperty
    · exact binds_none h

theorem binds_bindAssertion (tree : Tree) (n : Node) : t.Binds (t.bindAssertion tree n) := by
  rw [bindAssertion]
  split
  · exact binds_none h
  · next a _ =>
    have hasserted : t.Binds
        (if isConstAssertion tree a then (none, t) else t.bindTypeNode tree a.typeNode) := by
      split_ifs
      · exact binds_none h
      · exact binds_bindTypeNode h tree a.typeNode
    dsimp only
    generalize (if isConstAssertion tree a then (none, t) else t.bindTypeNode tree a.typeNode) =
      asserted at hasserted ⊢
    have hown (id : TypeId) (hid : t.typeAt? a.expression = some id) : asserted.2.store.Known id :=
      hasserted.grown.known (h.closed.known_typeAt? hid)
    split_ifs
    · exact ⟨hasserted.interned, hasserted.grown, hasserted.nodeTypes, hown⟩
    · refine ⟨hasserted.interned, hasserted.grown, hasserted.nodeTypes, fun id hid => ?_⟩
      exact (Option.or_eq_some_iff.mp hid).elim (hasserted.known id) fun hid => hown id hid.2

theorem binds_bindCall (n : Node) : t.Binds (t.bindCall n) := by
  rw [bindCall]
  split
  · exact binds_none h
  · exact binds_none h
  · next returns _ hreturns =>
    refine binds_keep h (makes_union h.made fun m hm => ?_)
    obtain ⟨callee, -, rfl⟩ := Option.map_eq_some_iff.mp hreturns
    exact h.made.normal.closed.known_of_mem_allCallReturns hm

theorem binds_bindNonNull (n : Node) : t.Binds (t.bindNonNull n) := by
  rw [bindNonNull]
  split
  · exact binds_none h
  · next id hid =>
    obtain ⟨operand, -, hid⟩ := Option.bind_eq_some_iff.mp hid
    exact binds_keep h (makes_removeNullish h.made (h.closed.known_typeAt? hid))

/-- Binding an expression makes its type in order. -/
theorem binds_bindExpression (tree : Tree) (scope : Scope) (r : NodeRef) (n : Node) :
    t.Binds (t.bindExpression tree scope r n) := by
  have hkeyword {id : TypeId} (hid : id < TypeId.builtinCount) :
      t.Binds (t.valueKeyword tree r id) := by
    rw [valueKeyword]
    split_ifs
    · exact binds_none h
    · exact binds_builtin h hid
  have hboolean {result : Option TypeId} (hresult : ∀ id, result = some id → id = TypeId.boolean) :
      t.Binds (result, t) :=
    binds_of_known h fun id hid =>
      hresult id hid ▸ h.made.normal.closed.known_builtin (by decide)
  rw [bindExpression]
  split
  · exact binds_keep h (makes_stringType? h.made n)
  · exact binds_keep h (makes_stringType? h.made n)
  · exact binds_keep h (makes_numberType? h.made n)
  · split
    · exact binds_keep h (makes_intern h.made rfl (List.forall_mem_nil _))
    · exact binds_none h
  · exact binds_builtin h (by decide)
  · exact binds_builtin h (by decide)
  · exact hkeyword (by decide)
  · exact hkeyword (by decide)
  · exact hkeyword (by decide)
  · exact binds_bindIdentifier h tree scope r
  · refine binds_of_known h fun id hid => ?_
    obtain ⟨inner, -, hid⟩ := Option.bind_eq_some_iff.mp hid
    exact h.closed.known_typeAt? hid
  · exact binds_bindNonNull h n
  · refine hboolean fun id hid => ?_
    obtain ⟨u, -, hid⟩ := Option.bind_eq_some_iff.mp hid
    split_ifs at hid
    exact (Option.some.inj hid).symm
  · refine hboolean fun id hid => ?_
    obtain ⟨b, -, hid⟩ := Option.bind_eq_some_iff.mp hid
    split_ifs at hid
    exact (Option.some.inj hid).symm
  · exact binds_bindPropertyAccess h tree n
  · exact binds_bindCall h n
  · exact binds_bindAssertion h tree n
  · exact binds_bindAssertion h tree n
  · exact binds_bindAssertion h tree n
  · exact binds_none h

theorem binds_declaredType (tree : Tree) (r : NodeRef) (d : VariableDeclaration) :
    t.Binds (t.declaredType tree r d) := by
  have hannotated := binds_bindTypeNode h tree d.typeAnnotation
  rw [declaredType]
  rcases hbound : t.bindTypeNode tree d.typeAnnotation with ⟨_ | annotated, t'⟩ <;>
    rw [hbound] at hannotated
  · refine Binds.after ?_ hannotated.grown hannotated.nodeTypes
    have h' : t'.Interned := hannotated.interned
    dsimp only
    split
    · exact binds_none h'
    · next initial hinitial =>
      have hknown := h'.closed.known_typeAt? hinitial
      split_ifs
      · exact binds_of_known h' fun id hid => Option.some.inj hid ▸ hknown
      · refine binds_keep h' (makes_union h'.made fun m hm => ?_)
        obtain ⟨part, hpart, rfl⟩ := List.mem_map.mp hm
        rw [widenPart]
        have hbuiltin {id : TypeId} : id < TypeId.builtinCount → t'.store.Known id :=
          h'.made.normal.closed.known_builtin
        split
        · exact hbuiltin (by decide)
        · exact hbuiltin (by decide)
        · exact hbuiltin (by decide)
        · exact hbuiltin (by decide)
        · exact h'.made.normal.closed.known_of_mem_unionMembers hknown hpart
  · exact hannotated

/-- What binding a node does: it makes types, and it may record one of them, for the name that the
    node declares or for the expression that the node is. -/
theorem bindNode_cases (tree : Tree) (scope : Scope) (r : NodeRef) :
    ∃ t', t'.Interned ∧ t.store.Extends t'.store ∧ t'.nodeTypes = t.nodeTypes ∧
      ((bindNode tree (scope, t) r).2 = t' ∨
        ∃ target id, (bindNode tree (scope, t) r).2 = t'.addType target id ∧ t'.store.Known id ∧
          ((∃ d, tree.variableDeclaration? r = some d ∧ d.name = target) ∨
            target = r ∧ ∃ n, tree.get? r = some n ∧
              t.bindExpression tree scope r n = (some id, t'))) := by
  rw [bindNode]
  split
  · exact ⟨t, h, .refl _, rfl, .inl rfl⟩
  · next n hn =>
    split
    · next d hd =>
      have hdeclared := binds_declaredType h tree r d
      have hdeclaration : tree.variableDeclaration? r = some d := by
        rw [Tree.variableDeclaration?, hn]
        exact hd
      rw [bindDeclaration]
      rcases hbound : t.declaredType tree r d with ⟨_ | id, t'⟩ <;> rw [hbound] at hdeclared
      · exact ⟨t', hdeclared.interned, hdeclared.grown, hdeclared.nodeTypes, .inl rfl⟩
      · exact ⟨t', hdeclared.interned, hdeclared.grown, hdeclared.nodeTypes,
          .inr ⟨d.name, id, rfl, hdeclared.known id rfl, .inl ⟨d, hdeclaration, rfl⟩⟩⟩
    · have hexpression := binds_bindExpression h tree scope r n
      rcases hbound : t.bindExpression tree scope r n with ⟨_ | id, t'⟩ <;>
        rw [hbound] at hexpression
      · exact ⟨t', hexpression.interned, hexpression.grown, hexpression.nodeTypes, .inl rfl⟩
      · exact ⟨t', hexpression.interned, hexpression.grown, hexpression.nodeTypes,
          .inr ⟨r, id, rfl, hexpression.known id rfl, .inr ⟨rfl, n, hn, hbound⟩⟩⟩

end

theorem mem_addNew {α : Type} {m : NodeMap α} {value : α} {entry : NodeRef × α}
    (h : entry ∈ m.addNew r value) : entry ∈ m ∨ entry = (r, value) := by
  rw [NodeMap.addNew] at h
  split at h
  · exact .inl h
  · exact (List.mem_cons.mp h).symm

theorem Interned.addType (h : t.Interned) (hid : t.store.Known id) : (t.addType r id).Interned :=
  { h with
    nodeTypes := fun entry hentry =>
      (mem_addNew hentry).elim (h.nodeTypes entry) fun heq => heq ▸ hid }

theorem interned_bindNode (h : t.Interned) (tree : Tree) (scope : Scope) (r : NodeRef) :
    (bindNode tree (scope, t) r).2.Interned := by
  obtain ⟨t', hinterned, -, -, heq | ⟨target, id, heq, hid, -⟩⟩ := bindNode_cases h tree scope r
  · exact heq ▸ hinterned
  · exact heq ▸ hinterned.addType hid

/-- Binding a file keeps the types of a table in order. -/
theorem interned_bind (h : t.Interned) (file : SourceFile) : (t.bind file).Interned := by
  have hfold (rs : List NodeRef) (scope : Scope) {t : TypeTable} (h : t.Interned) :
      (rs.foldl (bindNode file.tree) (scope, t)).2.Interned := by
    induction rs generalizing scope t with
    | nil => exact h
    | cons r rest ih => exact ih _ (interned_bindNode h file.tree scope r)
  exact hfold _ _ h

end TypeTable

end TypeLint.Binding
