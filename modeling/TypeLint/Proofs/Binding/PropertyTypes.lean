import TypeLint.Proofs.Binding.Interned
import TypeLint.Proofs.Values.Properties

namespace TypeLint.Binding.TypeTable

open Syntax Values TypeLint.Types TypeLint.Types.Store

variable {t t' : TypeTable} {tree : Tree} {n : Node} {r target : NodeRef} {id other : TypeId}

theorem reading_of_removeNullish {s s₁ s₂ : Store} (h : s.Made) {object rest id : TypeId}
    {name : String} (hobject : s.Known object) (hname : Decimal.readIndex? name = none)
    (hremoved : removeNullish s object = (rest, s₁))
    (hread : s₁.propertyType rest name = (some id, s₂)) :
    ∃ property, s₂.Reading object name id rest property := by
  have hrest := makes_removeNullish h hobject
  have hmem {property : Property} (hdeclared : (removeNullish s object).2.partProperty? name
      (removeNullish s object).1 = some property) :
      (removeNullish s object).1 ∈ s.unionMembers object :=
    h.normal.removeNullish_mem_unionMembers hdeclared
  have hholds {w : World} {v : Value} (hv : Inhabits w s v object) (hnot : v.isNullish = false) :
      Inhabits w (removeNullish s object).2 v (removeNullish s object).1 :=
    h.normal.closed.inhabits_removeNullish hobject hv hnot
  rw [hremoved] at hrest hmem hholds
  have hn := hrest.made.normal
  rw [propertyType_eq hname] at hread
  cases hdeclared : s₁.partProperty? name rest with
  | none =>
    rw [hdeclared] at hread
    cases hread
  | some property =>
    rw [hdeclared] at hread
    have hproperty : s₁.Known property.type := by
      obtain ⟨m, -, hm⟩ := exists_member_of_partProperty? hdeclared
      exact hn.closed.known_of_ownProperty? hm
    have hreading {type : TypeId} {s₂ : Store} (hs : s₁.Extends s₂)
        (hwidens : s₂.Widens property.type type)
        (hmissing : property.optional = true → ∀ w, Inhabits w s₂ .undefined type) :
        s₂.Reading object name type rest property := {
      mem := by
        rw [(hrest.grown.trans hs).unionMembers_eq hobject]
        exact hmem hdeclared
      holds := fun w v hv hnot =>
        hs.inhabits
          (hholds (((hrest.grown.trans hs).inhabits_iff h.normal.closed hobject).mp hv) hnot)
      declared := by
        rw [hs.partProperty?_eq hn.closed (hrest.known rest rfl)]
        exact hdeclared
      widens := hwidens
      missing := hmissing }
    dsimp only at hread
    split_ifs at hread with hoptional
    · cases hread
      exact ⟨property, hreading (s₁.extends_union _) (hn.widens_union_undefined hproperty)
        fun _ => hn.inhabits_union_undefined hproperty⟩
    · cases hread
      exact ⟨property, hreading (.refl _) (.refl _ _) fun hyes => (hoptional hyes).elim⟩

/-- The type is that of reading the property of an access from values of the type that is recorded
    for the receiver. -/
def ReadsProperty (t : TypeTable) (tree : Tree) (n : Node) (id : TypeId) : Prop :=
  ∃ access object name, n.access? = some access ∧ t.typeAt? access.expression = some object ∧
    tree.identifierText? access.nameOrArgument = some name ∧
    (Decimal.readIndex? name = none →
      ∃ part property, t.store.Reading object name id part property)

/-- The type of a property access is that of reading the property. -/
theorem readsProperty_of_bindPropertyAccess (h : t.Interned)
    (hbound : t.bindPropertyAccess tree n = (some id, t')) : t'.ReadsProperty tree n id := by
  have hsame := (binds_bindPropertyAccess h tree n).nodeTypes
  rw [hbound] at hsame
  rw [bindPropertyAccess] at hbound
  split at hbound
  · cases hbound
  · next access haccess =>
    split at hbound
    · next object name hobject hname =>
      have hreceiver : t'.typeAt? access.expression = some object := by rwa [typeAt?, hsame]
      refine ⟨access, object, name, haccess, hreceiver, hname, fun hindex => ?_⟩
      have hknown := h.closed.known_typeAt? hobject
      have hrest := makes_removeNullish h.made hknown
      rcases hremoved : removeNullish t.store object with ⟨rest, s₁⟩
      rw [hremoved] at hbound hrest
      have hproperty : s₁.Makes (s₁.propertyType rest name) :=
        makes_propertyType hrest.made (hrest.known rest rfl) name
      dsimp only at hbound
      rcases hread : s₁.propertyType rest name with ⟨_ | type, s₂⟩ <;>
        rw [hread] at hbound hproperty
      · cases hbound
      · obtain ⟨property, hreading⟩ := reading_of_removeNullish h.made hknown hindex hremoved hread
        have htype := hproperty.known type rfl
        have hn := hproperty.made.normal
        split_ifs at hbound
        · cases hbound
          have hgrown := hreading.grown (s₂.extends_union [type, TypeId.undefined]) hn.closed
            ((hrest.grown.trans hproperty.grown).known hknown) htype
          exact ⟨rest, property, hgrown.wider (hn.widens_union_undefined htype)⟩
        · cases hbound
          exact ⟨rest, property, hreading⟩
    · cases hbound

theorem typeAt?_addType_of_some (h : t.typeAt? r = some id) :
    (t.addType target other).typeAt? r = some id := by
  rw [typeAt?, addType, NodeMap.addNew]
  split
  · exact h
  · next hnone =>
    rw [NodeMap.set, List.lookup_cons]
    split
    · next heq =>
      obtain rfl := beq_iff_eq.mp heq
      cases hnone.symm.trans h
    · exact h

theorem typeAt?_addType_cases (h : (t.addType target other).typeAt? r = some id) :
    t.typeAt? r = some id ∨ r = target ∧ id = other := by
  rw [typeAt?, addType, NodeMap.addNew] at h
  split at h
  · exact .inl h
  · rw [NodeMap.set, List.lookup_cons] at h
    split at h
    · next heq => exact .inr ⟨beq_iff_eq.mp heq, (Option.some.inj h).symm⟩
    · exact .inl h

theorem ReadsProperty.grown (h : t.ReadsProperty tree n id) (ht : t.Interned)
    (hid : t.store.Known id) (hs : t.store.Extends t'.store) (hsame : t'.nodeTypes = t.nodeTypes) :
    t'.ReadsProperty tree n id := by
  obtain ⟨access, object, name, haccess, hobject, hname, hreading⟩ := h
  have hreceiver : t'.typeAt? access.expression = some object := by rwa [typeAt?, hsame]
  refine ⟨access, object, name, haccess, hreceiver, hname, fun hindex => ?_⟩
  obtain ⟨part, property, hreading⟩ := hreading hindex
  exact ⟨part, property,
    hreading.grown hs ht.closed.store (ht.closed.known_typeAt? hobject) hid⟩

theorem ReadsProperty.addType (h : t.ReadsProperty tree n id) (target : NodeRef) (other : TypeId) :
    (t.addType target other).ReadsProperty tree n id := by
  obtain ⟨access, object, name, haccess, hobject, hrest⟩ := h
  exact ⟨access, object, name, haccess, typeAt?_addType_of_some hobject, hrest⟩

/-- The types that are recorded for property accesses are those of reading the properties. -/
def ReadsProperties (t : TypeTable) (tree : Tree) : Prop :=
  ∀ r n id, tree.get? r = some n → n.kind = .propertyAccessExpression → t.typeAt? r = some id →
    t.ReadsProperty tree n id

/-- No variable declaration declares a property access. -/
def DeclaresNames (tree : Tree) : Prop :=
  ∀ r d, tree.variableDeclaration? r = some d → tree.kind? d.name ≠ some .propertyAccessExpression

theorem ReadsProperties.grown (h : t.ReadsProperties tree) (ht : t.Interned)
    (hs : t.store.Extends t'.store) (hsame : t'.nodeTypes = t.nodeTypes) :
    t'.ReadsProperties tree := by
  intro r n id hn hkind hid
  have hid : t.typeAt? r = some id := by rwa [typeAt?, ← hsame]
  exact (h r n id hn hkind hid).grown ht (ht.closed.known_typeAt? hid) hs hsame

/-- A new entry for a property access is to be the type of reading the property. -/
theorem ReadsProperties.addType (h : t.ReadsProperties tree)
    (hnew : ∀ n, tree.get? target = some n → n.kind = .propertyAccessExpression →
      t.ReadsProperty tree n other) : (t.addType target other).ReadsProperties tree := by
  intro r n id hn hkind hid
  rcases typeAt?_addType_cases hid with hold | ⟨rfl, rfl⟩
  · exact (h r n id hn hkind hold).addType target other
  · exact (hnew n hn hkind).addType r id

/-- Binding a node keeps the types of property accesses right. -/
theorem readsProperties_bindNode (ht : t.Interned) (h : t.ReadsProperties tree)
    (hnames : DeclaresNames tree) (scope : Scope) (r : NodeRef) :
    (bindNode tree (scope, t) r).2.ReadsProperties tree := by
  obtain ⟨t', hinterned, hs, hsame, heq | ⟨target, id, heq, -, htarget⟩⟩ :=
    bindNode_cases ht tree scope r
  · rw [heq]
    exact h.grown ht hs hsame
  · rw [heq]
    refine (h.grown ht hs hsame).addType fun n hn hkind => ?_
    rcases htarget with ⟨d, hd, rfl⟩ | ⟨rfl, n', hn', hbound⟩
    · refine (hnames r d hd ?_).elim
      rw [Tree.kind?, hn, Option.map_some, hkind]
    · obtain rfl := Option.some.inj (hn'.symm.trans hn)
      rw [bindExpression, hkind] at hbound
      exact readsProperty_of_bindPropertyAccess ht hbound

/-- Binding a file on a table without types of nodes gives property accesses the types of reading
    their properties. -/
theorem readsProperties_bind (ht : t.Interned) (hnew : t.nodeTypes = []) {file : SourceFile}
    (hnames : DeclaresNames file.tree) : (t.bind file).ReadsProperties file.tree := by
  have hfold (rs : List NodeRef) (scope : Scope) {t : TypeTable} (ht : t.Interned)
      (h : t.ReadsProperties file.tree) :
      (rs.foldl (bindNode file.tree) (scope, t)).2.ReadsProperties file.tree := by
    induction rs generalizing scope t with
    | nil => exact h
    | cons r rest ih =>
      exact ih _ (interned_bindNode ht file.tree scope r)
        (readsProperties_bindNode ht h hnames scope r)
  refine hfold _ _ ht fun r n id _ _ hid => ?_
  rw [typeAt?, hnew] at hid
  cases hid

end TypeLint.Binding.TypeTable
