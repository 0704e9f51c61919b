import TypeLint.Proofs.Binding.Order
import TypeLint.Proofs.Types.HashConsing

namespace TypeLint.Binding

open Syntax TypeLint.Types TypeLint.Types.Store

variable {s : Store} {tree : Tree} {named : List (String × TypeId)} {r c : NodeRef}

theorem NodeMap.lookup_set {α : Type} (m : NodeMap α) (r c : NodeRef) (value : α) :
    (m.set r value).lookup c = if c = r then some value else m.lookup c := by
  rw [set, List.lookup_cons]
  split_ifs with hc
  · rw [hc, beq_self_eq_true]
  · rw [beq_false_of_ne hc]

theorem NodeMap.lookup_addNew {α : Type} (m : NodeMap α) (r c : NodeRef) (value : α) :
    (m.addNew r value).lookup c = if c = r then some ((m.lookup r).getD value) else m.lookup c := by
  rw [addNew]
  cases hr : m.lookup r with
  | some old =>
    split_ifs with hc
    · rw [hc, hr]
      rfl
    · rfl
  | none => exact m.lookup_set r c value

theorem extends_stringType? (s : Store) (n : Node) : s.Extends (stringType? s n).2 := by
  rw [stringType?]
  split
  · exact s.extends_intern _
  · exact .refl s

theorem extends_numberType? (s : Store) (n : Node) : s.Extends (numberType? s n).2 := by
  rw [numberType?]
  split
  · exact s.extends_intern _
  · exact .refl s

theorem extends_literalNodeType? (s : Store) (n : Node) :
    s.Extends (literalNodeType? s n).2 := by
  rw [literalNodeType?]
  split
  · exact .refl s
  · exact .refl s
  · exact .refl s
  · exact extends_stringType? s n
  · exact extends_numberType? s n
  · exact .refl s

section

variable {one : NodeRef → Store → Option TypeId × Store} (hone : ∀ r (s : Store), s.Extends (one r s).2)

include hone

theorem extends_collectTypes (rs : List NodeRef) (s : Store) :
    s.Extends (collectTypes one rs s).2 := by
  induction rs generalizing s with
  | nil => exact .refl s
  | cons r rest ih =>
    have hfirst := hone r s
    rw [collectTypes]
    rcases hasked : one r s with ⟨_ | id, s'⟩ <;> rw [hasked] at hfirst
    · exact hfirst
    · exact hfirst.trans (ih s')

theorem extends_compositeType? {make : Store → List TypeId → TypeId × Store}
    (hmake : ∀ (s : Store) ids, s.Extends (make s ids).2) (n : Node) (s : Store) :
    s.Extends (compositeType? make one n s).2 := by
  rw [compositeType?]
  split
  · exact .refl s
  · next parts _ =>
    have hparts := extends_collectTypes hone parts s
    split
    · next ids s' hcollected =>
      rw [hcollected] at hparts
      exact hparts.trans (hmake s' ids)
    · next s' hcollected => rwa [hcollected] at hparts

end

theorem extends_resolveTypeTo (tree : Tree) (named : List (String × TypeId)) (depth : Nat)
    (r : NodeRef) (s : Store) : s.Extends (resolveTypeTo tree named depth r s).2 := by
  induction depth generalizing r s with
  | zero => exact .refl s
  | succ depth ih =>
    rw [resolveTypeTo]
    split
    · exact .refl s
    · next n _ =>
      split
      · split
        · exact extends_literalNodeType? s _
        · exact .refl s
      · exact extends_compositeType? ih extends_union n s
      · exact extends_compositeType? ih (fun s ids => s.extends_intersection ids) n s
      · have helement := ih (n.wrappedType?.getD none) s
        split
        · next element s' hresolved =>
          rw [hresolved] at helement
          exact helement.trans (s'.extends_intern _)
        · next s' hresolved => rwa [hresolved] at helement
      · exact .refl s
      · exact .refl s

theorem extends_resolveType (tree : Tree) (named : List (String × TypeId)) (r : NodeRef)
    (s : Store) : s.Extends (resolveType tree named r s).2 :=
  extends_resolveTypeTo tree named tree.size r s

namespace TypeTable

variable {t t' t'' : TypeTable} {id : TypeId}

/-- The second table has all entries of the first one, and no other contextual types, names and
    options. -/
structure Extends (t t' : TypeTable) : Prop where
  store : t.store.Extends t'.store
  typeAt? : ∀ c id, t.typeAt? c = some id → t'.typeAt? c = some id
  typeOfTypeNode? : ∀ c id, t.typeOfTypeNode? c = some id → t'.typeOfTypeNode? c = some id
  declarationOf? : ∀ c d, t.declarationOf? c = some d → t'.declarationOf? c = some d
  contextualTypes : t'.contextualTypes = t.contextualTypes
  namedTypes : t'.namedTypes = t.namedTypes
  options : t'.options = t.options

theorem Extends.refl (t : TypeTable) : t.Extends t :=
  ⟨.refl _, fun _ _ h => h, fun _ _ h => h, fun _ _ h => h, rfl, rfl, rfl⟩

theorem Extends.trans (h : t.Extends t') (h' : t'.Extends t'') : t.Extends t'' where
  store := h.store.trans h'.store
  typeAt? c id hid := h'.typeAt? c id (h.typeAt? c id hid)
  typeOfTypeNode? c id hid := h'.typeOfTypeNode? c id (h.typeOfTypeNode? c id hid)
  declarationOf? c d hd := h'.declarationOf? c d (h.declarationOf? c d hd)
  contextualTypes := h'.contextualTypes.trans h.contextualTypes
  namedTypes := h'.namedTypes.trans h.namedTypes
  options := h'.options.trans h.options

/-- The second table has new types only for some nodes, new types of type nodes only for some
    others, and new declarations only for some. An absent link denotes no type. -/
structure Adds (types typeNodes identifiers : List NodeRef) (t t' : TypeTable) : Prop
    extends t.Extends t' where
  typeAt?_eq : ∀ c ∉ types, t'.typeAt? c = t.typeAt? c
  typeOfTypeNode?_eq : ∀ c, c = none ∨ c ∉ typeNodes → t'.typeOfTypeNode? c = t.typeOfTypeNode? c
  declarationOf?_eq : ∀ c ∉ identifiers, t'.declarationOf? c = t.declarationOf? c

variable {types typeNodes identifiers : List NodeRef}

theorem Adds.refl (t : TypeTable) : Adds types typeNodes identifiers t t :=
  ⟨.refl t, fun _ _ => rfl, fun _ _ => rfl, fun _ _ => rfl⟩

theorem Adds.trans (h : Adds types typeNodes identifiers t t')
    (h' : Adds types typeNodes identifiers t' t'') : Adds types typeNodes identifiers t t'' where
  toExtends := h.toExtends.trans h'.toExtends
  typeAt?_eq c hc := (h'.typeAt?_eq c hc).trans (h.typeAt?_eq c hc)
  typeOfTypeNode?_eq c hc := (h'.typeOfTypeNode?_eq c hc).trans (h.typeOfTypeNode?_eq c hc)
  declarationOf?_eq c hc := (h'.declarationOf?_eq c hc).trans (h.declarationOf?_eq c hc)

theorem Adds.mono (h : Adds types typeNodes identifiers t t') {types' typeNodes' ids' : List NodeRef}
    (htypes : types ⊆ types') (htypeNodes : typeNodes ⊆ typeNodes') (hids : identifiers ⊆ ids') :
    Adds types' typeNodes' ids' t t' where
  toExtends := h.toExtends
  typeAt?_eq c hc := h.typeAt?_eq c fun hmem => hc (htypes hmem)
  typeOfTypeNode?_eq c hc := h.typeOfTypeNode?_eq c (hc.imp_right fun hc hmem => hc (htypeNodes hmem))
  declarationOf?_eq c hc := h.declarationOf?_eq c fun hmem => hc (hids hmem)

theorem adds_withStore (hs : t.store.Extends s) :
    Adds types typeNodes identifiers t { t with store := s } :=
  ⟨{ Extends.refl t with store := hs }, fun _ _ => rfl, fun _ _ => rfl, fun _ _ => rfl⟩

theorem adds_keep {result : Option TypeId × Store} (hs : t.store.Extends result.2) :
    Adds types typeNodes identifiers t (t.keep result).2 :=
  adds_withStore hs

theorem typeAt?_addType (t : TypeTable) (r c : NodeRef) (id : TypeId) :
    (t.addType r id).typeAt? c = if c = r then some ((t.typeAt? r).getD id) else t.typeAt? c :=
  t.nodeTypes.lookup_addNew r c id

theorem typeOfTypeNode?_setTypeNodeType (t : TypeTable) (r c : NodeRef) (id : TypeId) :
    (t.setTypeNodeType r id).typeOfTypeNode? c = if c = r then some id else t.typeOfTypeNode? c :=
  t.typeNodeTypes.lookup_set r c id

theorem declarationOf?_addDeclaration (t : TypeTable) (r c d : NodeRef) :
    (t.addDeclaration r d).declarationOf? c =
      if c = r then some ((t.declarationOf? r).getD d) else t.declarationOf? c :=
  t.declarations.lookup_addNew r c d

theorem adds_addType (t : TypeTable) (r : NodeRef) (id : TypeId) :
    Adds [r] typeNodes identifiers t (t.addType r id) where
  toExtends :=
    { Extends.refl t with
      typeAt? := fun c old hold => by
        rw [typeAt?_addType]
        split_ifs with hc
        · rw [← hc, hold]
          rfl
        · exact hold }
  typeAt?_eq c hc := by rw [typeAt?_addType, if_neg (by simpa using hc)]
  typeOfTypeNode?_eq _ _ := rfl
  declarationOf?_eq _ _ := rfl

theorem extends_addType (t : TypeTable) (r : NodeRef) (id : TypeId) :
    t.Extends (t.addType r id) :=
  (t.adds_addType r id : Adds [r] [] [] t _).toExtends

theorem adds_addDeclaration (t : TypeTable) (r d : NodeRef) :
    Adds types typeNodes [r] t (t.addDeclaration r d) where
  toExtends :=
    { Extends.refl t with
      declarationOf? := fun c old hold => by
        rw [declarationOf?_addDeclaration]
        split_ifs with hc
        · rw [← hc, hold]
          rfl
        · exact hold }
  typeAt?_eq _ _ := rfl
  typeOfTypeNode?_eq _ _ := rfl
  declarationOf?_eq c hc := by rw [declarationOf?_addDeclaration, if_neg (by simpa using hc)]

theorem adds_bindTypeNode (t : TypeTable) (tree : Tree) (r : NodeRef) :
    Adds types [r] identifiers t (t.bindTypeNode tree r).2 := by
  rw [bindTypeNode]
  have hgrown := extends_resolveType tree t.namedTypes r t.store
  cases hr : t.typeOfTypeNode? r with
  | some id => exact .refl t
  | none =>
    rcases hresolved : resolveType tree t.namedTypes r t.store with ⟨_ | id, s⟩ <;>
      rw [hresolved] at hgrown
    · exact adds_withStore hgrown
    · refine (adds_withStore hgrown).trans ⟨{ Extends.refl _ with
        typeOfTypeNode? := fun c old hold => ?_ }, fun _ _ => rfl, fun c hc => ?_, fun _ _ => rfl⟩
      · rw [typeOfTypeNode?_setTypeNodeType, if_neg fun heq => ?_]
        · exact hold
        · rw [heq] at hold
          cases hr.symm.trans hold
      · rw [typeOfTypeNode?_setTypeNodeType, if_neg fun heq => ?_]
        rcases hc with hnone | hc
        · have hnothing : (resolveType tree t.namedTypes none t.store).1 = none := by
            rw [resolveType]
            cases tree.size <;> rfl
          obtain rfl : r = none := heq.symm.trans hnone
          rw [hresolved] at hnothing
          cases hnothing
        · exact hc (heq ▸ List.mem_cons_self)

theorem adds_bindIdentifier (t : TypeTable) (tree : Tree) (scope : Scope) (r : NodeRef) :
    Adds types typeNodes [r] t (t.bindIdentifier tree scope r).2 := by
  rw [bindIdentifier]
  split
  · exact .refl t
  · split_ifs
    · exact .refl t
    · exact .refl t
    · split
      · exact .refl t
      · exact adds_addDeclaration t r _

theorem adds_bindPropertyAccess (t : TypeTable) (tree : Tree) (n : Node) :
    Adds types typeNodes identifiers t (t.bindPropertyAccess tree n).2 := by
  rw [bindPropertyAccess]
  split
  · exact .refl t
  · split
    · next object name _ _ =>
      have hremoved : t.store.Extends (removeNullish t.store object).2 := extends_union _ _
      have hread := (removeNullish t.store object).2.extends_propertyType
        (removeNullish t.store object).1 name
      dsimp only
      split
      · next s hproperty =>
        rw [hproperty] at hread
        exact adds_keep (hremoved.trans hread)
      · next property s hproperty =>
        rw [hproperty] at hread
        split_ifs
        · exact adds_keep ((hremoved.trans hread).trans (s.extends_union _))
        · exact adds_keep (hremoved.trans hread)
    · exact .refl t

theorem adds_bindAssertion (t : TypeTable) (tree : Tree) (n : Node) :
    Adds types (n.assertion?.map (·.typeNode)).toList identifiers t (t.bindAssertion tree n).2 := by
  rw [bindAssertion]
  split
  · exact .refl t
  · next a ha =>
    have hasserted : Adds types (n.assertion?.map (·.typeNode)).toList identifiers t
        (if isConstAssertion tree a then (none, t) else t.bindTypeNode tree a.typeNode).2 := by
      rw [ha]
      split_ifs
      · exact .refl t
      · exact t.adds_bindTypeNode tree a.typeNode
    dsimp only
    rw [apply_ite Prod.snd, ite_self]
    exact hasserted

theorem adds_bindCall (t : TypeTable) (n : Node) :
    Adds types typeNodes identifiers t (t.bindCall n).2 := by
  rw [bindCall]
  split
  · exact .refl t
  · exact .refl t
  · exact adds_keep (extends_union _ _)

theorem adds_bindNonNull (t : TypeTable) (n : Node) :
    Adds types typeNodes identifiers t (t.bindNonNull n).2 := by
  rw [bindNonNull]
  split
  · exact .refl t
  · exact adds_keep (extends_union _ _)

theorem bindExpression_of_assertion {n : Node} {a : Assertion} (ha : n.assertion? = some a)
    (t : TypeTable) (tree : Tree) (scope : Scope) (r : NodeRef) :
    t.bindExpression tree scope r n = t.bindAssertion tree n := by
  have hkind := (Node.payload_of_assertion? ha).2
  simp only [List.mem_cons, List.not_mem_nil, or_false] at hkind
  rw [bindExpression]
  rcases hkind with hkind | hkind | hkind <;> rw [hkind]

/-- Binding an expression adds no types of nodes but, it may be, the one of the asserted type, or
    its declaration. -/
theorem adds_bindExpression (t : TypeTable) (tree : Tree) (scope : Scope) (r : NodeRef) (n : Node) :
    Adds [] (n.assertion?.map (·.typeNode)).toList [r] t (t.bindExpression tree scope r n).2 := by
  rw [bindExpression]
  split
  · exact adds_keep (extends_stringType? t.store n)
  · exact adds_keep (extends_stringType? t.store n)
  · exact adds_keep (extends_numberType? t.store n)
  · split
    · exact adds_keep (t.store.extends_intern _)
    · exact .refl t
  · exact .refl t
  · exact .refl t
  · exact .refl t
  · exact .refl t
  · exact .refl t
  · exact adds_bindIdentifier t tree scope r
  · exact .refl t
  · exact adds_bindNonNull t n
  · exact .refl t
  · exact .refl t
  · exact adds_bindPropertyAccess t tree n
  · exact adds_bindCall t n
  · exact adds_bindAssertion t tree n
  · exact adds_bindAssertion t tree n
  · exact adds_bindAssertion t tree n
  · exact .refl t

theorem adds_declaredType (t : TypeTable) (tree : Tree) (r : NodeRef) (d : VariableDeclaration) :
    Adds types [d.typeAnnotation] identifiers t (t.declaredType tree r d).2 := by
  have hannotated : Adds types [d.typeAnnotation] identifiers t
      (t.bindTypeNode tree d.typeAnnotation).2 := t.adds_bindTypeNode tree d.typeAnnotation
  rw [declaredType]
  split
  · next annotated t' hbound => rwa [hbound] at hannotated
  · next t' hbound =>
    rw [hbound] at hannotated
    split
    · exact hannotated
    · split_ifs
      · exact hannotated
      · exact hannotated.trans (adds_keep (extends_union _ _))

/-- Binding a node adds at most a type of the name that it declares or else of itself. -/
theorem adds_bindNode (t : TypeTable) (tree : Tree) (scope : Scope) (r : NodeRef) :
    Adds [target tree r] (tree.links r) [r] t (bindNode tree (scope, t) r).2 := by
  rw [bindNode, target, Tree.variableDeclaration?, Tree.links]
  cases hn : tree.get? r with
  | none => exact .refl t
  | some n =>
    simp only [Option.bind_some, Option.map_some, Option.getD_some]
    cases hd : n.variableDeclaration? with
    | some d =>
      have hlink : [d.typeAnnotation] ⊆ n.payload.fields.flatten := by
        simp [(Node.payload_of_variableDeclaration? hd).1, Payload.fields]
      have hdeclared : Adds [d.name] n.payload.fields.flatten [r] t (t.declaredType tree r d).2 :=
        (t.adds_declaredType tree r d).mono (List.Subset.refl _) hlink (List.Subset.refl _)
      simp only [Option.map_some, Option.getD_some, bindDeclaration]
      split
      · next id t' hbound =>
        rw [hbound] at hdeclared
        exact hdeclared.trans (t'.adds_addType d.name id)
      · next t' hbound => rwa [hbound] at hdeclared
    | none =>
      have hlink : (n.assertion?.map (·.typeNode)).toList ⊆ n.payload.fields.flatten := by
        cases ha : n.assertion? with
        | none => exact List.nil_subset _
        | some a => simp [(Node.payload_of_assertion? ha).1, Payload.fields]
      have hexpression : Adds [r] n.payload.fields.flatten [r] t
          (t.bindExpression tree scope r n).2 :=
        (t.adds_bindExpression tree scope r n).mono (List.nil_subset _) hlink
          (List.Subset.refl _)
      simp only [Option.map_none, Option.getD_none]
      split
      · next id t' hbound =>
        rw [hbound] at hexpression
        exact hexpression.trans (t'.adds_addType r id)
      · next t' hbound => rwa [hbound] at hexpression

theorem extends_bindNode (t : TypeTable) (tree : Tree) (scope : Scope) (r : NodeRef) :
    t.Extends (bindNode tree (scope, t) r).2 :=
  (adds_bindNode t tree scope r).toExtends

/-- Whatever is recorded and whatever the tree is, binding leaves the entries alone. -/
theorem extends_bind (t : TypeTable) (f : SourceFile) : t.Extends (t.bind f) := by
  have hfold (rs : List NodeRef) (scope : Scope) (t : TypeTable) :
      t.Extends (rs.foldl (bindNode f.tree) (scope, t)).2 := by
    induction rs generalizing scope t with
    | nil => exact .refl t
    | cons r rest ih => exact (t.extends_bindNode f.tree scope r).trans (ih _ _)
  exact hfold _ _ t

end TypeTable

end TypeLint.Binding
