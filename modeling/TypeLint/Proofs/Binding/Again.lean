import TypeLint.Proofs.Binding.Entries
import TypeLint.Proofs.Binding.Interned
import TypeLint.Proofs.Types.Repeats

namespace TypeLint.Binding

open Syntax TypeLint.Types TypeLint.Types.Store

variable {s : Store} {tree : Tree} {named : List (String × TypeId)}

theorem repeats_stringType? (h : s.Closed) (n : Node) : s.Repeats fun s => stringType? s n := by
  cases htext : n.literal? with
  | none => exact (repeats_none h).congr fun s' _ => by rw [stringType?, htext]
  | some text =>
    exact (repeats_intern h (.literal (.string text)) (List.forall_mem_nil _)).congr
      fun s' _ => by
        rw [stringType?, htext]
        rfl

theorem repeats_numberType? (h : s.Closed) (n : Node) : s.Repeats fun s => numberType? s n := by
  cases hvalue : n.literal?.bind Decimal.read? with
  | none => exact (repeats_none h).congr fun s' _ => by rw [numberType?, hvalue]
  | some value =>
    exact (repeats_intern h (.literal (.number value)) (List.forall_mem_nil _)).congr
      fun s' _ => by
        rw [numberType?, hvalue]
        rfl

theorem repeats_literalNodeType? (h : s.Closed) (n : Node) :
    s.Repeats fun s => literalNodeType? s n := by
  simp only [literalNodeType?]
  split
  · exact repeats_builtin h _ (by decide)
  · exact repeats_builtin h _ (by decide)
  · exact repeats_builtin h _ (by decide)
  · exact repeats_stringType? h n
  · exact repeats_numberType? h n
  · exact repeats_none h

theorem repeats_keywordType? (h : s.Closed) (kind : Kind) :
    s.Repeats fun s => (keywordType? kind, s) := by
  unfold keywordType?
  split <;> first | exact repeats_builtin h _ (by decide) | exact repeats_none h

/-- Every store to which the names are known gives the types that are asked for once and for
    all. -/
def Settles (named : List (String × TypeId)) (one : NodeRef → Store → Option TypeId × Store) :
    Prop :=
  ∀ s : Store, s.Closed → (∀ entry ∈ named, s.Known entry.2) → ∀ r, s.Repeats (one r)

section

variable {one : NodeRef → Store → Option TypeId × Store} (hone : Settles named one) (h : s.Closed)
  (hnamed : ∀ entry ∈ named, s.Known entry.2)

include hone h hnamed

theorem collectTypes_again (rs : List NodeRef) {answer : Option (List TypeId)} {s₁ : Store}
    (heq : collectTypes one rs s = (answer, s₁)) :
    s₁.Closed ∧ s.Extends s₁ ∧ (∀ ids, answer = some ids → ∀ id ∈ ids, s₁.Known id) ∧
      ∀ s', s₁.Extends s' → collectTypes one rs s' = (answer, s') := by
  induction rs generalizing s answer s₁ with
  | nil =>
    cases heq
    exact ⟨h, .refl s, fun ids hids => Option.some.inj hids ▸ List.forall_mem_nil _, fun _ _ => rfl⟩
  | cons r rest ih =>
    obtain ⟨hclosed, hgrown, hknown, hagain⟩ := hone s h hnamed r
    rw [collectTypes] at heq
    rcases hasked : one r s with ⟨_ | id, s₂⟩ <;> rw [hasked] at heq hclosed hgrown hknown hagain
    · cases heq
      refine ⟨hclosed, hgrown, by rintro _ ⟨⟩, fun s' hs => ?_⟩
      rw [collectTypes, hagain s' hs]
    · rcases hothers : collectTypes one rest s₂ with ⟨others, s₃⟩
      simp only [hothers] at heq
      cases heq
      obtain ⟨hclosed', hgrown', hknown', hagain'⟩ := ih hclosed
        (fun entry hentry => hgrown.known (hnamed entry hentry)) hothers
      refine ⟨hclosed', hgrown.trans hgrown', fun ids hids => ?_, fun s' hs => ?_⟩
      · obtain ⟨rest, rfl, rfl⟩ := Option.map_eq_some_iff.mp hids
        exact List.forall_mem_cons.mpr ⟨hgrown'.known (hknown id rfl), hknown' rest rfl⟩
      · simp only [collectTypes, hagain s' (hgrown'.trans hs), hagain' s' hs]

theorem repeats_compositeType? {make : Store → List TypeId → TypeId × Store}
    (hmake : ∀ (s : Store) (members : List TypeId), s.Closed → (∀ m ∈ members, s.Known m) →
      s.Repeats fun s => found (make s members))
    (n : Node) : s.Repeats (compositeType? make one n) := by
  cases hparts : n.compositeType? with
  | none => exact (repeats_none h).congr fun s' _ => by rw [compositeType?, hparts]
  | some parts =>
    rcases hcollected : collectTypes one parts s with ⟨answer, s₁⟩
    obtain ⟨hclosed, hgrown, hknown, hagain⟩ := collectTypes_again hone h hnamed parts hcollected
    cases answer with
    | none =>
      refine .of_eq none (by rw [compositeType?, hparts]; simp only [hcollected])
        hclosed hgrown (by rintro _ ⟨⟩) fun s' hs => ?_
      rw [compositeType?, hparts]
      simp only [hagain s' hs]
    | some ids =>
      have hmade := hmake s₁ ids hclosed (hknown ids rfl)
      refine .of_eq _ (by rw [compositeType?, hparts]; simp only [hcollected]) hmade.closed
        (hgrown.trans hmade.grown) hmade.known fun s' hs => ?_
      rw [compositeType?, hparts]
      simp only [hagain s' (hmade.grown.trans hs)]
      exact hmade.again s' hs

end

/-- What a type node denotes is settled once it has been asked for. -/
theorem settles_resolveTypeTo (tree : Tree) (named : List (String × TypeId)) (depth : Nat) :
    Settles named (resolveTypeTo tree named depth) := by
  induction depth with
  | zero => exact fun s h _ _ => repeats_none h
  | succ depth ih =>
    intro s h hnamed r
    cases hn : tree.get? r with
    | none => exact (repeats_none h).congr fun s' _ => by rw [resolveTypeTo, hn]
    | some n =>
      change s.Repeats fun s => resolveTypeTo tree named (depth + 1) r s
      simp only [resolveTypeTo, hn]
      split
      · split
        · exact repeats_literalNodeType? h _
        · exact repeats_none h
      · exact repeats_compositeType? ih h hnamed (fun s members h => repeats_union h members) n
      · exact repeats_compositeType? ih h hnamed (fun s members h => repeats_intersection h members) n
      · obtain ⟨hclosed, hgrown, hknown, hagain⟩ := ih s h hnamed (n.wrappedType?.getD none)
        rcases hresolved : resolveTypeTo tree named depth (n.wrappedType?.getD none) s with
          ⟨_ | element, s₁⟩ <;> rw [hresolved] at hclosed hgrown hknown hagain
        · refine .of_eq none (by simp only [hresolved]) hclosed hgrown (by rintro _ ⟨⟩)
            fun s' hs => ?_
          simp only [hagain s' hs]
        · have hmade := repeats_intern hclosed (.array element)
            (List.forall_mem_singleton.mpr (hknown element rfl))
          refine .of_eq _ (by simp only [hresolved]; rfl) hmade.closed (hgrown.trans hmade.grown)
            hmade.known fun s' hs => ?_
          simp only [hagain s' (hmade.grown.trans hs)]
          exact hmade.again s' hs
      · refine repeats_read h (fun _ => _) (fun id hid => ?_) fun _ _ => rfl
        obtain ⟨name, -, hid⟩ := Option.bind_eq_some_iff.mp hid
        obtain ⟨before, after, rfl, -⟩ := List.lookup_eq_some_iff.mp hid
        exact hnamed (name, id) (List.mem_append_right _ List.mem_cons_self)
      · exact repeats_keywordType? h _

theorem settles_resolveType (tree : Tree) (named : List (String × TypeId)) :
    Settles named (resolveType tree named) :=
  settles_resolveTypeTo tree named tree.size

/-- The type of a property of an object, in an optional chain or outside of one. -/
def accessType (object : TypeId) (name : String) (inChain : Bool) (s : Store) :
    Option TypeId × Store :=
  let (nonNullish, s) := removeNullish s object
  match s.propertyType nonNullish name with
  | (none, s) => (none, s)
  | (some property, s) =>
    if inChain && nonNullish != object then found (s.union [property, TypeId.undefined])
    else (some property, s)

theorem repeats_accessType (h : s.Closed) {object : TypeId} (hobject : s.Known object)
    (name : String) (inChain : Bool) : s.Repeats (accessType object name inChain) := by
  obtain ⟨hclosed, hgrown, hknown, hagain⟩ := repeats_removeNullish h hobject
  rcases hremoved : removeNullish s object with ⟨nonNullish, s₁⟩
  simp only [found, hremoved] at hclosed hgrown hknown hagain
  have hremoved' {s' : Store} (hs : s₁.Extends s') : removeNullish s' object = (nonNullish, s') := by
    have heq := hagain s' hs
    simp only [Prod.mk.injEq, Option.some.injEq] at heq
    exact Prod.ext heq.1 heq.2
  obtain ⟨hclosed', hgrown', hknown', hagain'⟩ :=
    repeats_propertyType hclosed (hknown nonNullish rfl) name
  rcases hread : s₁.propertyType nonNullish name with ⟨_ | property, s₂⟩ <;>
    rw [hread] at hclosed' hgrown' hknown' hagain'
  · refine .of_eq none (by simp only [accessType, hremoved, hread]) hclosed'
      (hgrown.trans hgrown') (by rintro _ ⟨⟩) fun s' hs => ?_
    simp only [accessType, hremoved' (hgrown'.trans hs), hagain' s' hs]
  · have hlast : s₂.Repeats fun s =>
        if inChain && nonNullish != object then found (s.union [property, TypeId.undefined])
        else (some property, s) := by
      split_ifs
      · refine repeats_union hclosed' _ ?_
        simpa using ⟨hknown' property rfl, hclosed'.known_builtin (by decide)⟩
      · exact repeats_known hclosed' (hknown' property rfl)
    refine .of_eq _ (by simp only [accessType, hremoved, hread]) hlast.closed
      ((hgrown.trans hgrown').trans hlast.grown) hlast.known fun s' hs => ?_
    simp only [accessType, hremoved' (hgrown'.trans (hlast.grown.trans hs)),
      hagain' s' (hlast.grown.trans hs)]
    exact hlast.again s' hs

namespace TypeTable

variable {t t' T : TypeTable} {r c : NodeRef} {id : TypeId} {nodes typeNodes : List NodeRef}

/-- All types that the table records or has names for, and all that its types mention, are
    known. -/
structure Sound (t : TypeTable) : Prop extends t.Closed where
  namedTypes : ∀ entry ∈ t.namedTypes, t.store.Known entry.2

theorem Interned.sound (h : t.Interned) : t.Sound := { h.closed with namedTypes := h.namedTypes }

theorem Sound.withStore (h : t.Sound) (hclosed : s.Closed) (hs : t.store.Extends s) :
    Sound { t with store := s } where
  store := hclosed
  nodeTypes entry hentry := hs.known (h.nodeTypes entry hentry)
  typeNodeTypes entry hentry := hs.known (h.typeNodeTypes entry hentry)
  contextualTypes entry hentry := hs.known (h.contextualTypes entry hentry)
  namedTypes entry hentry := hs.known (h.namedTypes entry hentry)

theorem Sound.setTypeNodeType (h : t.Sound) (hid : t.store.Known id) (r : NodeRef) :
    (t.setTypeNodeType r id).Sound :=
  { h with typeNodeTypes := List.forall_mem_cons.mpr ⟨hid, h.typeNodeTypes⟩ }

theorem Sound.addType (h : t.Sound) (hid : t.store.Known id) (r : NodeRef) :
    (t.addType r id).Sound :=
  { h with
    nodeTypes := fun entry hentry =>
      (mem_addNew hentry).elim (h.nodeTypes entry) fun heq => heq ▸ hid }

/-- A request that records no type of a node, and to which later tables give the same answer and
    add nothing, unless they have a new type for one of some nodes or type nodes. -/
structure Rebinds (t : TypeTable) (request : TypeTable → Option TypeId × TypeTable)
    (nodes typeNodes : List NodeRef) : Prop where
  sound : (request t).2.Sound
  nodeTypes : (request t).2.nodeTypes = t.nodeTypes
  known : ∀ id, (request t).1 = some id → (request t).2.store.Known id
  again : ∀ T, (request t).2.Extends T → (∀ c ∈ nodes, T.typeAt? c = t.typeAt? c) →
    (∀ c ∈ typeNodes, T.typeOfTypeNode? c = (request t).2.typeOfTypeNode? c) →
    request T = ((request t).1, T)

theorem Rebinds.of_eq {request : TypeTable → Option TypeId × TypeTable} (answer : Option TypeId)
    (heq : request t = (answer, t')) (hsound : t'.Sound) (hsame : t'.nodeTypes = t.nodeTypes)
    (hknown : ∀ id, answer = some id → t'.store.Known id)
    (hagain : ∀ T, t'.Extends T → (∀ c ∈ nodes, T.typeAt? c = t.typeAt? c) →
      (∀ c ∈ typeNodes, T.typeOfTypeNode? c = t'.typeOfTypeNode? c) → request T = (answer, T)) :
    t.Rebinds request nodes typeNodes where
  sound := by rwa [heq]
  nodeTypes := by rwa [heq]
  known := by rwa [heq]
  again := by rwa [heq]

theorem Rebinds.mono {request : TypeTable → Option TypeId × TypeTable}
    (h : t.Rebinds request nodes typeNodes) {nodes' typeNodes' : List NodeRef}
    (hnodes : nodes ⊆ nodes') (htypeNodes : typeNodes ⊆ typeNodes') :
    t.Rebinds request nodes' typeNodes' :=
  { h with
    again := fun T hT hsame hsame' =>
      h.again T hT (fun c hc => hsame c (hnodes hc)) fun c hc => hsame' c (htypeNodes hc) }

/-- A request that is another one for later tables with the same types of some nodes. -/
theorem Rebinds.congr {request request' : TypeTable → Option TypeId × TypeTable}
    (h : t.Rebinds request nodes typeNodes) (hgrown : t.store.Extends (request t).2.store)
    (heq : ∀ T, t.store.Extends T.store → (∀ c ∈ nodes, T.typeAt? c = t.typeAt? c) →
      request' T = request T) : t.Rebinds request' nodes typeNodes :=
  .of_eq _ (heq t (.refl _) fun _ _ => rfl) h.sound h.nodeTypes h.known fun T hT hsame hsame' =>
    (heq T (hgrown.trans hT.store) hsame).trans (h.again T hT hsame hsame')

section

variable (h : t.Sound)

include h

/-- A question that the types of some nodes answer. -/
theorem rebinds_read {read : TypeTable → Option TypeId}
    (hknown : ∀ id, read t = some id → t.store.Known id)
    (hread : ∀ T, (∀ c ∈ nodes, T.typeAt? c = t.typeAt? c) → read T = read t) :
    t.Rebinds (fun t => (read t, t)) nodes typeNodes :=
  .of_eq _ rfl h rfl hknown fun T _ hsame _ => by rw [hread T hsame]

theorem rebinds_none : t.Rebinds (fun t => (none, t)) nodes typeNodes :=
  rebinds_read h (fun _ hid => nomatch hid) fun _ _ => rfl

theorem rebinds_builtin (hid : id < TypeId.builtinCount) :
    t.Rebinds (fun t => (some id, t)) nodes typeNodes :=
  rebinds_read h (fun _ heq => Option.some.inj heq ▸ h.store.known_builtin hid) fun _ _ => rfl

theorem rebinds_typeAt? (hc : c ∈ nodes) : t.Rebinds (fun t => (t.typeAt? c, t)) nodes typeNodes :=
  rebinds_read h (fun _ hid => h.toClosed.known_typeAt? hid) fun _ hsame => hsame c hc

theorem rebinds_keep {request : Store → Option TypeId × Store} (hr : t.store.Repeats request) :
    t.Rebinds (fun t => t.keep (request t.store)) nodes typeNodes :=
  .of_eq _ rfl (h.withStore hr.closed hr.grown) rfl hr.known fun T hT _ _ => by
    rw [hr.again T.store hT.store]
    rfl

theorem rebinds_bindTypeNode (tree : Tree) (r : NodeRef) :
    t.Rebinds (fun t => t.bindTypeNode tree r) [] [r] := by
  cases hr : t.typeOfTypeNode? r with
  | some id =>
    refine .of_eq (some id) (by rw [bindTypeNode, hr]) h rfl (fun _ heq => ?_)
      fun T hT _ _ => by rw [bindTypeNode, hT.typeOfTypeNode? r id hr]
    exact Option.some.inj heq ▸ known_of_lookup h.typeNodeTypes hr
  | none =>
    obtain ⟨hclosed, hgrown, hknown, hagain⟩ :=
      settles_resolveType tree t.namedTypes t.store h.store h.namedTypes r
    rcases hresolved : resolveType tree t.namedTypes r t.store with ⟨_ | id, s⟩ <;>
      rw [hresolved] at hclosed hgrown hknown hagain
    · refine .of_eq none (by simp only [bindTypeNode, hr, hresolved])
        (h.withStore hclosed hgrown) rfl (by rintro _ ⟨⟩) fun T hT _ hsame => ?_
      have hnone : T.typeOfTypeNode? r = none :=
        (hsame r List.mem_cons_self).trans hr
      have hnamed : T.namedTypes = t.namedTypes := hT.namedTypes
      rw [← hnamed] at hagain
      simp only [bindTypeNode, hnone, hagain T.store hT.store]
    · refine .of_eq (some id) (by simp only [bindTypeNode, hr, hresolved])
        ((h.withStore hclosed hgrown).setTypeNodeType (hknown id rfl) r) rfl hknown
        fun T hT _ _ => ?_
      have hnew : T.typeOfTypeNode? r = some id := hT.typeOfTypeNode? r id (by
        rw [typeOfTypeNode?_setTypeNodeType, if_pos rfl])
      rw [bindTypeNode, hnew]

theorem rebinds_bindIdentifier (tree : Tree) (scope : Scope) (r : NodeRef) :
    t.Rebinds (fun t => t.bindIdentifier tree scope r) (declaredNames tree scope) [] := by
  simp only [bindIdentifier]
  split
  · exact rebinds_none h
  · next name _ =>
    split_ifs
    · exact rebinds_none h
    · exact rebinds_builtin h (by decide)
    · split
      · exact rebinds_none h
      · next declaration hscope =>
        have hname {d : VariableDeclaration} (hd : tree.variableDeclaration? declaration = some d) :
            d.name ∈ declaredNames tree scope := by
          obtain ⟨before, after, rfl, -⟩ := List.lookup_eq_some_iff.mp hscope
          simp [declaredNames, hd]
        have hsound : (t.addDeclaration r declaration).Sound := { h with }
        refine .of_eq _ rfl hsound rfl
          (fun id hid => ?_) fun T hT hsame _ => ?_
        · obtain ⟨d, -, hid⟩ := Option.bind_eq_some_iff.mp hid
          exact h.toClosed.known_typeAt? hid
        · have hdeclared : T.declarationOf? r = some ((t.declarationOf? r).getD declaration) :=
            hT.declarationOf? r _ (by rw [declarationOf?_addDeclaration, if_pos rfl])
          have hadd : T.addDeclaration r declaration = T := by
            rw [addDeclaration, NodeMap.addNew, ← declarationOf?, hdeclared]
          rw [hadd]
          refine congrArg (·, T) ?_
          cases hd : tree.variableDeclaration? declaration with
          | none => rfl
          | some d => exact hsame d.name (hname hd)

theorem rebinds_bindPropertyAccess (tree : Tree) (n : Node) :
    t.Rebinds (fun t => t.bindPropertyAccess tree n) n.payload.fields.flatten [] := by
  simp only [bindPropertyAccess]
  split
  · exact rebinds_none h
  · next access haccess =>
    have hlink : access.expression ∈ n.payload.fields.flatten := by
      simp [Node.payload_of_access? haccess, Payload.fields]
    cases hname : tree.identifierText? access.nameOrArgument with
    | none =>
      refine (rebinds_none h).congr (.refl _) fun T _ _ => ?_
      cases T.typeAt? access.expression <;> rfl
    | some name =>
      cases hobject : t.typeAt? access.expression with
      | none =>
        refine (rebinds_none h).congr (.refl _) fun T _ hsame => ?_
        simp only [(hsame _ hlink).trans hobject]
      | some object =>
        have hread := repeats_accessType h.store (h.toClosed.known_typeAt? hobject) name
          n.isOptionalChain
        refine (rebinds_keep h hread).congr hread.grown fun T _ hsame => ?_
        simp only [(hsame _ hlink).trans hobject, accessType]
        rcases removeNullish T.store object with ⟨nonNullish, s⟩
        rcases s.propertyType nonNullish name with ⟨_ | property, s'⟩
        · rfl
        · dsimp only
          split_ifs <;> rfl

theorem rebinds_bindCall (n : Node) :
    t.Rebinds (fun t => t.bindCall n) n.payload.fields.flatten [] := by
  simp only [bindCall]
  cases hcall : n.call? with
  | none => exact rebinds_none h
  | some call =>
    have hlink : call.expression ∈ n.payload.fields.flatten := by
      simp [Node.payload_of_call? hcall, Payload.fields]
    cases hcallee : t.typeAt? call.expression with
    | none =>
      refine (rebinds_none h).congr (.refl _) fun T _ hsame => ?_
      simp only [Option.bind_some, (hsame _ hlink).trans hcallee, Option.map_none]
    | some callee =>
      have hknown := h.toClosed.known_typeAt? hcallee
      have hreturns {T : TypeTable} (hsame : ∀ c ∈ n.payload.fields.flatten,
          T.typeAt? c = t.typeAt? c) (hs : t.store.Extends T.store) :
          (T.typeAt? call.expression).map T.store.allCallReturns =
            some (t.store.allCallReturns callee) := by
        rw [(hsame _ hlink).trans hcallee, Option.map_some, hs.allCallReturns_eq h.store hknown]
      cases hlist : t.store.allCallReturns callee with
      | nil =>
        refine (rebinds_none h).congr (.refl _) fun T hs hsame => ?_
        simp only [Option.bind_some, hreturns hsame hs, hlist]
      | cons first rest =>
        have hunion : t.store.Repeats fun s => found (s.union (first :: rest)) :=
          repeats_union h.store _ fun m hm => h.store.known_of_mem_allCallReturns (hlist ▸ hm)
        refine (rebinds_keep h hunion).congr hunion.grown fun T hs hsame => ?_
        simp only [Option.bind_some, hreturns hsame hs, hlist]

theorem rebinds_bindNonNull (n : Node) :
    t.Rebinds (fun t => t.bindNonNull n) n.payload.fields.flatten [] := by
  simp only [bindNonNull]
  cases hnonNull : n.nonNull? with
  | none => exact rebinds_none h
  | some operand =>
    have hlink : operand ∈ n.payload.fields.flatten := by
      simp [Node.payload_of_wrapped? hnonNull, Payload.fields]
    cases hoperand : t.typeAt? operand with
    | none =>
      refine (rebinds_none h).congr (.refl _) fun T _ hsame => ?_
      simp only [Option.bind_some, (hsame _ hlink).trans hoperand]
    | some id =>
      have hrest := repeats_removeNullish h.store (h.toClosed.known_typeAt? hoperand)
      refine (rebinds_keep h hrest).congr hrest.grown fun T _ hsame => ?_
      simp only [Option.bind_some, (hsame _ hlink).trans hoperand]

theorem rebinds_bindAssertion (tree : Tree) (n : Node) :
    t.Rebinds (fun t => t.bindAssertion tree n) n.payload.fields.flatten
      n.payload.fields.flatten := by
  simp only [bindAssertion]
  split
  · exact rebinds_none h
  · next a ha =>
    have hlinks : a.expression ∈ n.payload.fields.flatten ∧
        [a.typeNode] ⊆ n.payload.fields.flatten := by
      simp [(Node.payload_of_assertion? ha).1, Payload.fields]
    have hasserted : t.Rebinds (fun t =>
        if isConstAssertion tree a then (none, t) else t.bindTypeNode tree a.typeNode)
          [] n.payload.fields.flatten := by
      split_ifs
      · exact rebinds_none h
      · exact (rebinds_bindTypeNode h tree a.typeNode).mono (List.nil_subset _) hlinks.2
    obtain ⟨hsound, hnodes, hknown, hagain⟩ := hasserted
    have hgrown : t.store.Extends
        (if isConstAssertion tree a then (none, t) else t.bindTypeNode tree a.typeNode).2.store := by
      split_ifs
      · exact .refl _
      · exact (t.adds_bindTypeNode tree a.typeNode : Adds [] _ [] t _).store
    have hown (id : TypeId) (hid : t.typeAt? a.expression = some id) := hgrown.known
      (h.toClosed.known_typeAt? hid)
    rcases hbound : (if isConstAssertion tree a then (none, t) else
      t.bindTypeNode tree a.typeNode) with ⟨asserted, t'⟩
    simp only [hbound] at hsound hnodes hknown hagain hown
    refine .of_eq (if n.kind = .satisfiesExpression then t.typeAt? a.expression
        else asserted.or (t.typeAt? a.expression)) ?_ hsound hnodes (fun id hid => ?_)
      fun T hT hsame hsame' => ?_
    · simp only [hbound]
      split_ifs <;> rfl
    · split_ifs at hid
      · exact hown id hid
      · exact (Option.or_eq_some_iff.mp hid).elim (hknown id) fun hid => hown id hid.2
    · simp only [hagain T hT (List.forall_mem_nil _) hsame', hsame _ hlinks.1]
      split_ifs <;> rfl

/-- Binding an expression again changes nothing. -/
theorem rebinds_bindExpression (tree : Tree) (scope : Scope) (r : NodeRef) (n : Node) :
    t.Rebinds (fun t => t.bindExpression tree scope r n)
      (n.payload.fields.flatten ++ declaredNames tree scope) n.payload.fields.flatten := by
  have hlinks {request : TypeTable → Option TypeId × TypeTable} {typeNodes : List NodeRef}
      (hr : t.Rebinds request n.payload.fields.flatten typeNodes)
      (hsub : typeNodes ⊆ n.payload.fields.flatten) :
      t.Rebinds request (n.payload.fields.flatten ++ declaredNames tree scope)
        n.payload.fields.flatten :=
    hr.mono (List.subset_append_left _ _) hsub
  have hkeyword {nodes typeNodes : List NodeRef} {id : TypeId} (hid : id < TypeId.builtinCount) :
      t.Rebinds (fun t => t.valueKeyword tree r id) nodes typeNodes := by
    simp only [valueKeyword]
    split_ifs
    · exact rebinds_none h
    · exact rebinds_builtin h hid
  have hboolean {nodes typeNodes : List NodeRef} {answer : Option TypeId}
      (hanswer : ∀ id, answer = some id → id = TypeId.boolean) :
      t.Rebinds (fun t => (answer, t)) nodes typeNodes :=
    rebinds_read h (fun id hid => hanswer id hid ▸ h.store.known_builtin (by decide)) fun _ _ => rfl
  simp only [bindExpression]
  split
  · exact rebinds_keep h (repeats_stringType? h.store n)
  · exact rebinds_keep h (repeats_stringType? h.store n)
  · exact rebinds_keep h (repeats_numberType? h.store n)
  · split
    · exact rebinds_keep h (repeats_intern h.store _ (List.forall_mem_nil _))
    · exact rebinds_none h
  · exact rebinds_builtin h (by decide)
  · exact rebinds_builtin h (by decide)
  · exact hkeyword (by decide)
  · exact hkeyword (by decide)
  · exact hkeyword (by decide)
  · exact (rebinds_bindIdentifier h tree scope r).mono (List.subset_append_right _ _)
      (List.nil_subset _)
  · cases hinner : n.parenthesized? with
    | none => exact rebinds_none h
    | some inner =>
      exact hlinks (rebinds_typeAt? h (by
        simp [Node.payload_of_wrapped? hinner, Payload.fields])) (List.nil_subset _)
  · exact hlinks (rebinds_bindNonNull h n) (List.nil_subset _)
  · refine hboolean fun id hid => ?_
    obtain ⟨u, -, hid⟩ := Option.bind_eq_some_iff.mp hid
    split_ifs at hid
    exact (Option.some.inj hid).symm
  · refine hboolean fun id hid => ?_
    obtain ⟨b, -, hid⟩ := Option.bind_eq_some_iff.mp hid
    split_ifs at hid
    exact (Option.some.inj hid).symm
  · exact hlinks (rebinds_bindPropertyAccess h tree n) (List.nil_subset _)
  · exact hlinks (rebinds_bindCall h n) (List.nil_subset _)
  · exact hlinks (rebinds_bindAssertion h tree n) (List.Subset.refl _)
  · exact hlinks (rebinds_bindAssertion h tree n) (List.Subset.refl _)
  · exact hlinks (rebinds_bindAssertion h tree n) (List.Subset.refl _)
  · exact rebinds_none h

/-- Where no type is found for a declared variable, later tables must have none for its initial
    value, either. -/
theorem declaredType_again (tree : Tree) (r : NodeRef) (d : VariableDeclaration)
    {answer : Option TypeId} (heq : t.declaredType tree r d = (answer, t')) :
    t'.Sound ∧ t'.nodeTypes = t.nodeTypes ∧ (∀ id, answer = some id → t'.store.Known id) ∧
      ∀ T, t'.Extends T →
        T.typeOfTypeNode? d.typeAnnotation = t'.typeOfTypeNode? d.typeAnnotation →
        (answer = none → T.typeAt? d.initializer = t'.typeAt? d.initializer) →
        T.declaredType tree r d = (answer, T) := by
  obtain ⟨hsound, hnodes, hknown, hagain⟩ := rebinds_bindTypeNode h tree d.typeAnnotation
  rw [declaredType] at heq
  rcases hbound : t.bindTypeNode tree d.typeAnnotation with ⟨_ | annotated, t₁⟩ <;>
    rw [hbound] at hsound hnodes hknown hagain heq
  · have hfirst {T : TypeTable} (hT : t₁.Extends T)
        (hsame : T.typeOfTypeNode? d.typeAnnotation = t₁.typeOfTypeNode? d.typeAnnotation) :
        T.bindTypeNode tree d.typeAnnotation = (none, T) :=
      hagain T hT (List.forall_mem_nil _) (List.forall_mem_singleton.mpr hsame)
    simp only at heq
    cases hinitial : t₁.typeAt? d.initializer with
    | none =>
      rw [hinitial] at heq
      cases heq
      refine ⟨hsound, hnodes, by rintro _ ⟨⟩, fun T hT hsame hinit => ?_⟩
      simp only [declaredType, hfirst hT hsame, (hinit rfl).trans hinitial]
    | some initial =>
      have hvalue := hsound.toClosed.known_typeAt? hinitial
      have hread {T : TypeTable} (hT : t₁.Extends T) : T.typeAt? d.initializer = some initial :=
        hT.typeAt? _ _ hinitial
      rw [hinitial] at heq
      simp only at heq
      by_cases hconstant : isConstant tree r = true
      · rw [if_pos hconstant] at heq
        cases heq
        refine ⟨hsound, hnodes, fun id hid => Option.some.inj hid ▸ hvalue,
          fun T hT hsame _ => ?_⟩
        simp only [declaredType, hfirst hT hsame, hread hT, if_pos hconstant]
      · have hwidened := repeats_widenLiteral hsound.store hvalue
        rw [if_neg hconstant] at heq
        have hlast : t₁.Rebinds (fun t => t.keep (found (widenLiteral t.store initial))) [] [] :=
          rebinds_keep hsound hwidened
        cases heq
        refine ⟨hlast.sound, hlast.nodeTypes.trans hnodes, hlast.known, fun T hT hsame _ => ?_⟩
        have hgrown : t₁.Extends T :=
          (adds_keep hwidened.grown : Adds [] [] [] t₁ _).toExtends.trans hT
        simp only [declaredType, hfirst hgrown hsame,
          hread hgrown, if_neg hconstant]
        exact hlast.again T hT (List.forall_mem_nil _) (List.forall_mem_nil _)
  · cases heq
    refine ⟨hsound, hnodes, hknown, fun T hT hsame _ => ?_⟩
    have hfirst := hagain T hT (List.forall_mem_nil _) (List.forall_mem_singleton.mpr hsame)
    simp only [declaredType, hfirst]

theorem sound_bindNode (tree : Tree) (scope : Scope) (r : NodeRef) :
    (bindNode tree (scope, t) r).2.Sound := by
  rw [bindNode]
  cases tree.get? r with
  | none => exact h
  | some n =>
    cases hd : n.variableDeclaration? with
    | some d =>
      rcases hbound : t.declaredType tree r d with ⟨answer, t'⟩
      obtain ⟨hsound, -, hknown, -⟩ := declaredType_again h tree r d hbound
      simp only [hd, bindDeclaration, hbound]
      cases answer with
      | none => exact hsound
      | some id => exact hsound.addType (hknown id rfl) d.name
    | none =>
      obtain ⟨hsound, -, hknown, -⟩ := rebinds_bindExpression h tree scope r n
      simp only [hd]
      rcases hbound : t.bindExpression tree scope r n with ⟨_ | id, t'⟩ <;>
        rw [hbound] at hsound hknown
      · exact hsound
      · exact hsound.addType (hknown id rfl) r

omit h in
theorem addType_of_typeAt? (hid : t.typeAt? r = some id) (other : TypeId) :
    t.addType r other = t := by
  rw [addType, NodeMap.addNew, ← typeAt?, hid]

/-- Binding a node once more changes nothing, unless there is something new about what it links to
    or about a declaration in scope. -/
theorem bindNode_again (tree : Tree) (scope : Scope) (r : NodeRef)
    (hown : r ∉ tree.links r ++ declaredNames tree scope)
    (hT : (bindNode tree (scope, t) r).2.Extends T)
    (hsame : ∀ c ∈ tree.links r ++ declaredNames tree scope,
      T.typeAt? c = (bindNode tree (scope, t) r).2.typeAt? c)
    (hsame' : ∀ c ∈ tree.links r,
      T.typeOfTypeNode? c = (bindNode tree (scope, t) r).2.typeOfTypeNode? c) :
    bindNode tree (scope, T) r = ((bindNode tree (scope, t) r).1, T) := by
  have hrecorded {t' : TypeTable} {c : NodeRef} {id : TypeId} (hT : (t'.addType c id).Extends T) :
      T.addType c id = T := by
    refine addType_of_typeAt? (hT.typeAt? c ((t'.typeAt? c).getD id) ?_) id
    rw [typeAt?_addType, if_pos rfl]
  rw [Tree.links] at hown hsame hsame'
  rw [bindNode] at hT hsame hsame'
  rw [bindNode, bindNode]
  cases hn : tree.get? r with
  | none => rfl
  | some n =>
    simp only [hn, Option.map_some, Option.getD_some] at hT hsame hsame' hown
    cases hd : n.variableDeclaration? with
    | some d =>
      have hlinks : d.typeAnnotation ∈ n.payload.fields.flatten ∧
          d.initializer ∈ n.payload.fields.flatten := by
        simp [(Node.payload_of_variableDeclaration? hd).1, Payload.fields]
      rcases hbound : t.declaredType tree r d with ⟨answer, t'⟩
      obtain ⟨-, -, -, hagain⟩ := declaredType_again h tree r d hbound
      simp only [hd, bindDeclaration, hbound] at hT hsame hsame' ⊢
      cases answer with
      | none =>
        rw [hagain T hT (hsame' _ hlinks.1) fun _ => hsame _ (List.mem_append_left _ hlinks.2)]
      | some id =>
        have hgrown : t'.Extends T :=
          (t'.extends_addType d.name id).trans hT
        rw [hagain T hgrown (hsame' _ hlinks.1) (by rintro ⟨⟩)]
        simp only [hrecorded hT]
    | none =>
      obtain ⟨-, hnodes, -, hagain⟩ := rebinds_bindExpression h tree scope r n
      simp only [hd] at hT hsame hsame' ⊢
      rcases hbound : t.bindExpression tree scope r n with ⟨answer, t'⟩
      rw [hbound] at hnodes hagain
      simp only [hbound] at hT hsame hsame' ⊢
      have hnode (c : NodeRef) : t'.typeAt? c = t.typeAt? c := by rw [typeAt?, hnodes, typeAt?]
      cases answer with
      | none =>
        rw [hagain T hT (fun c hc => (hsame c hc).trans (hnode c)) hsame']
      | some id =>
        have hgrown : t'.Extends T :=
          (t'.extends_addType r id).trans hT
        rw [hagain T hgrown (fun c hc => ?_) hsame']
        · simp only [hrecorded hT]
        · rw [hsame c hc, typeAt?_addType, if_neg fun heq : c = r => hown (heq ▸ hc), hnode]

end

end TypeTable

end TypeLint.Binding
