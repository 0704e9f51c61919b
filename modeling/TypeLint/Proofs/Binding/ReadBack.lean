import TypeLint.Proofs.Binding.References
import TypeLint.Proofs.Program.Declared
import TypeLint.Proofs.Program.TypeReading
import TypeLint.Proofs.Types.Printing

namespace TypeLint.Binding

open TypeLint.Types TypeLint.Types.Store Program Program.TypeText Text

variable {t : TypeTable} {id m : TypeId}

/-- A string that a type text can hold between its quotation marks as it is. -/
structure IsPlainString (value : String) : Prop where
  noQuote : '\x22' ∉ value.toList
  noBackslash : '\\' ∉ value.toList
  noBar : occursIn bar value.toList = false
  noAmpersand : occursIn ampersand value.toList = false

namespace TypeTable

/-- The types built from the keyword types, plain string literals, objects that are named as they are
    shown, arrays of types that need no grouping, intersections of types other than unions, where
    `boolean` counts as none, and unions of all these. What a constructor gives is in the store. -/
inductive Legible (t : TypeTable) : TypeId → Prop where
  | keyword {id : TypeId} (h : TypeId.isBuiltin id = true) : Legible t id
  | string {id : TypeId} {value : String} (hplain : IsPlainString value)
      (hmade : t.store.literalString value = (id, t.store)) : Legible t id
  | named {id : TypeId} {shape : ObjectShape} {name : String} (hname : shape.name = some name)
      (hplain : IsTypeName name) (hnamed : t.namedType? name = some id)
      (hmade : t.store.object shape = (id, t.store)) : Legible t id
  | array {id element : TypeId} (helement : Legible t element)
      (hplain : element = TypeId.boolean ∨
        t.store.isUnion element = false ∧ t.store.isIntersection element = false)
      (hmade : t.store.array element = (id, t.store)) : Legible t id
  | intersection {id : TypeId} {ids : List TypeId} (hids : ∀ m ∈ ids, Legible t m)
      (hplain : ∀ m ∈ ids, m = TypeId.boolean ∨ t.store.isUnion m = false)
      (hmade : t.store.intersection ids = (id, t.store)) : Legible t id
  | union {id : TypeId} {ids : List TypeId} (hids : ∀ m ∈ ids, Legible t m)
      (hmade : t.store.union ids = (id, t.store)) : Legible t id

end TypeTable

/-- A written type denotes a type of the table, and no quoted text in it is cut. -/
structure ReadAs (t : TypeTable) (written : TypeText) (id : TypeId) : Prop where
  denotes : denotes t.namedTypes written t.store = (some id, t.store)
  uncut : written.cutText? = none

theorem ReadAs.array {written : TypeText} {element : TypeId} (h : ReadAs t written element)
    (hmade : t.store.array element = (id, t.store)) : ReadAs t (.array written) id where
  denotes := by
    rw [Binding.denotes, h.denotes]
    exact congrArg found hmade
  uncut := h.uncut

theorem denotesIn_of_readAs {read : TypeId → TypeText} {ids : List TypeId}
    (h : ∀ m ∈ ids, ReadAs t (read m) m) :
    denotesIn t.namedTypes (ids.map read) t.store = (some ids, t.store) := by
  induction ids with
  | nil => rfl
  | cons first rest ih =>
    obtain ⟨hfirst, hrest⟩ := List.forall_mem_cons.mp h
    rw [List.map_cons, denotesIn, hfirst.denotes]
    simp only [ih hrest, Option.map_some]

/-- Several texts that are read as types are read together as what is made of these types. -/
theorem readAs_composite (hcanonical : t.store.Canonical) {c : Connective}
    {make : List TypeText → TypeText}
    (hdenotes : ∀ parts, denotes t.namedTypes (make parts) t.store =
      madeOf c.combine (denotesIn t.namedTypes parts t.store))
    (hcut : ∀ parts, (make parts).cutText? = cutTextIn? parts) {read : TypeId → TypeText}
    {ids : List TypeId} (h : ∀ m ∈ ids, ReadAs t (read m) m)
    (hmade : c.combine t.store ids = (id, t.store)) :
    ReadAs t (composite make (ids.map read)) id where
  denotes := by
    match ids with
    | [only] =>
      obtain rfl : only = id :=
        (Prod.mk.inj ((hcanonical.combine_singleton c only).symm.trans hmade)).1
      exact (h only List.mem_cons_self).denotes
    | [] | _ :: _ :: _ =>
      rw [composite, hdenotes, denotesIn_of_readAs h]
      · exact congrArg found hmade
      · rintro only ⟨⟩
  uncut := (cutText?_composite_eq_none_iff hcut _).mpr
    (List.forall_mem_map.mpr fun m hm => (h m hm).uncut)

/-- The text of the type stays in one piece and is read as the type. -/
structure Single (t : TypeTable) (id : TypeId) : Prop where
  known : t.store.Known id
  plain : id = TypeId.boolean ∨ t.store.isUnion id = false
  whole : Whole (t.store.text id).toList
  readAs : ReadAs t (ofReversed (t.store.text id).toList.reverse) id

/-- The members of the intersection, or the type itself, are single. -/
def IsFactor (t : TypeTable) (id : TypeId) : Prop :=
  ∀ m ∈ t.store.intersectionMembers id, Single t m

/-- The members of the union, or the type itself, are factors. -/
def IsSum (t : TypeTable) (id : TypeId) : Prop := ∀ m ∈ t.store.unionMembers id, IsFactor t m

/-- The keywords are read as their types. -/
theorem readAs_keyword {name : String} (h : (name, id) ∈ TypeId.named) :
    ReadAs t (ofReversed name.toList.reverse) id := by
  generalize hentry : (name, id) = entry at h
  fin_cases h <;> cases hentry <;> exact ⟨rfl, rfl⟩

section

variable (ht : t.store.Made)

include ht

theorem single_keyword (h : TypeId.isBuiltin id = true) : Single t id := by
  have hinitial := ht.normal.initial
  have hid : id < TypeId.builtinCount := of_decide_eq_true h
  obtain ⟨⟨name, _⟩, hname, rfl⟩ : ∃ entry ∈ TypeId.named, entry.2 = id := by
    have hall : ∀ id < TypeId.builtinCount, ∃ entry ∈ TypeId.named, entry.2 = id := by decide
    exact hall id hid
  have hplain : ∀ entry ∈ TypeId.named, entry.1.toList ≠ [] ∧ ' ' ∉ entry.1.toList ∧
      '|' ∉ entry.1.toList ∧ (entry.2 = TypeId.boolean ∨ initial.isUnion entry.2 = false) := by
    decide
  obtain ⟨hne, hblank, hbar, hunion⟩ := hplain _ hname
  have htext := text_keyword hinitial hname
  exact {
    known := ht.normal.closed.known_builtin hid
    plain := by rwa [hinitial.isUnion_eq hid]
    whole := by
      rw [htext]
      exact whole_of_not_mem hne hblank hbar
    readAs := by
      rw [htext]
      exact readAs_keyword hname }

theorem single_string {value : String} (hplain : IsPlainString value)
    (hmade : t.store.literalString value = (id, t.store)) : Single t id := by
  have hdata : t.store.lookup id = some (.literal (.string value)) :=
    lookup_of_intern_eq hmade
  have htext := toList_text_string ht.normal.initial hdata hplain.noQuote hplain.noBackslash
  exact {
    known := known_of_lookup hdata
    plain := .inr (by rw [isUnion, hdata])
    whole := htext ▸ whole_quoted hplain.noBar hplain.noAmpersand
    readAs := by
      rw [htext, ofReversed_quoted]
      exact ⟨congrArg found hmade, rfl⟩ }

theorem single_named {shape : ObjectShape} {name : String} (hname : shape.name = some name)
    (hplain : IsTypeName name) (hnamed : t.namedType? name = some id)
    (hmade : t.store.object shape = (id, t.store)) : Single t id := by
  have hdata : t.store.lookup id = some (.object shape) :=
    lookup_of_intern_eq hmade
  have htext := text_named ht.normal.initial hdata hname
  exact {
    known := known_of_lookup hdata
    plain := .inr (by rw [isUnion, hdata])
    whole := htext ▸ hplain.whole
    readAs := by
      rw [htext, hplain.ofReversed_eq]
      exact ⟨congrArg (·, t.store) hnamed, rfl⟩ }

theorem Single.array {element : TypeId} (h : Single t element)
    (hplain : element = TypeId.boolean ∨
      t.store.isUnion element = false ∧ t.store.isIntersection element = false)
    (hmade : t.store.array element = (id, t.store)) : Single t id := by
  have hdata : t.store.lookup id = some (.array element) :=
    lookup_of_intern_eq hmade
  have htext : (t.store.text id).toList = (t.store.text element).toList ++ ['[', ']'] := by
    rw [ht.text_array hdata hplain, String.toList_append]
    rfl
  exact {
    known := known_of_lookup hdata
    plain := .inr (by rw [isUnion, hdata])
    whole := htext ▸ h.whole.append (by decide)
    readAs := by
      rw [htext, List.reverse_append]
      exact h.readAs.array hmade }

omit ht in
/-- A single type that is no intersection is its only factor. -/
theorem Single.isFactor (h : Single t id) (hid : t.store.isIntersection id = false) :
    IsFactor t id := by
  rw [IsFactor, intersectionMembers_of_not_isIntersection hid]
  exact List.forall_mem_singleton.mpr h

omit ht in
theorem IsFactor.single (h : IsFactor t id) (hid : t.store.isIntersection id = false) :
    Single t id := by
  rw [IsFactor, intersectionMembers_of_not_isIntersection hid] at h
  exact List.forall_mem_singleton.mp h

theorem isFactor_keyword (h : TypeId.isBuiltin id = true) : IsFactor t id := by
  have hid : id < TypeId.builtinCount := of_decide_eq_true h
  have hall : ∀ id < TypeId.builtinCount, initial.isIntersection id = false := by decide
  refine (single_keyword ht h).isFactor ?_
  rw [ht.normal.initial.isIntersection_eq hid]
  exact hall id hid

theorem isSum_keyword (h : TypeId.isBuiltin id = true) : IsSum t id := by
  have hid : id < TypeId.builtinCount := of_decide_eq_true h
  have hall : ∀ id < TypeId.builtinCount, ∀ m ∈ initial.unionMembers id,
      TypeId.isBuiltin m = true := by
    decide
  intro m hm
  rw [ht.normal.initial.unionMembers_eq hid] at hm
  exact isFactor_keyword ht (hall id hid m hm)

/-- A factor is a sum: if it is a union, it is `boolean`. -/
theorem IsFactor.isSum (h : IsFactor t id) : IsSum t id := by
  cases hunion : t.store.isUnion id with
  | false =>
    rw [IsSum, unionMembers_of_not_isUnion hunion]
    exact List.forall_mem_singleton.mpr h
  | true =>
    have hsingle := h.single (isIntersection_of_isUnion hunion)
    obtain rfl := hsingle.plain.resolve_right (by rw [hunion]; rintro ⟨⟩)
    exact isSum_keyword ht rfl

/-- A sum that is no union but `boolean` is a factor. -/
theorem IsSum.isFactor (h : IsSum t id) (hplain : id = TypeId.boolean ∨ t.store.isUnion id = false) :
    IsFactor t id := by
  rcases hplain with rfl | hunion
  · exact isFactor_keyword ht rfl
  · rw [IsSum, unionMembers_of_not_isUnion hunion] at h
    exact List.forall_mem_singleton.mp h

theorem isSum_of_legible (h : t.Legible id) : IsSum t id := by
  induction h with
  | keyword h => exact isSum_keyword ht h
  | string hplain hmade =>
    have hdata := lookup_of_intern_eq hmade
    exact ((single_string ht hplain hmade).isFactor (by rw [isIntersection, hdata])).isSum ht
  | named hname hplain hnamed hmade =>
    have hdata := lookup_of_intern_eq hmade
    exact ((single_named ht hname hplain hnamed hmade).isFactor
      (by rw [isIntersection, hdata])).isSum ht
  | @array id element _ hplain hmade ih =>
    have hdata := lookup_of_intern_eq hmade
    have hsingle : Single t element := by
      rcases hplain with rfl | ⟨hunion, hintersection⟩
      · exact single_keyword ht rfl
      · exact (ih.isFactor ht (.inr hunion)).single hintersection
    exact ((hsingle.array ht hplain hmade).isFactor (by rw [isIntersection, hdata])).isSum ht
  | intersection _ hplain hmade ih =>
    refine IsFactor.isSum ht fun m hm => ?_
    rcases ht.normal.mem_members_of_combine (c := .intersection) hmade hm with rfl | ⟨i, hi, hm⟩
    · exact single_keyword ht rfl
    · exact (ih i hi).isFactor ht (hplain i hi) m hm
  | union _ hmade ih =>
    intro m hm
    rcases ht.normal.mem_members_of_combine (c := .union) hmade hm with rfl | ⟨i, hi, hm⟩
    · exact isFactor_keyword ht rfl
    · exact ih i hi m hm

theorem known_of_legible (h : t.Legible id) : t.store.Known id := by
  have hcombine {c : Connective} {ids : List TypeId} {id : TypeId}
      (hids : ∀ m ∈ ids, t.store.Known m) (hmade : c.combine t.store ids = (id, t.store)) :
      t.store.Known id := by
    have hknown := ht.normal.known_combine (c := c) hids
    rwa [hmade] at hknown
  induction h with
  | keyword h => exact ht.normal.closed.known_builtin (of_decide_eq_true h)
  | string _ hmade | named _ _ _ hmade | array _ _ hmade =>
    exact known_of_lookup (lookup_of_intern_eq hmade)
  | intersection _ _ hmade ih => exact hcombine (c := .intersection) ih hmade
  | union _ hmade ih => exact hcombine (c := .union) ih hmade

omit ht in
/-- What has been made once is found in all later stores. -/
theorem made_again {make : Store → TypeId × Store} (h : t.store.Repeats fun s => found (make s))
    {s : Store} (hs : (make t.store).2.Extends s) : make s = ((make t.store).1, s) := by
  have hagain := h.again s hs
  simp only [found, Prod.mk.injEq, Option.some.injEq] at hagain
  exact Prod.ext hagain.1 hagain.2

/-- A legible type stays legible when the store grows. -/
theorem TypeTable.Legible.grown {s : Store} (h : t.Legible id) (hs : t.store.Extends s) :
    TypeTable.Legible { t with store := s } id := by
  have hintern {data : TypeData} {id : TypeId} (hmade : t.store.intern data = (id, t.store)) :
      s.intern data = (id, s) := by
    have hlater : s.intern data = ((t.store.intern data).1, s) :=
      Extends.intern_eq (by rwa [hmade])
    rwa [hmade] at hlater
  have hcombine {make : Store → TypeId × Store} {id : TypeId}
      (hrepeats : t.store.Repeats fun s => found (make s)) (hmade : make t.store = (id, t.store)) :
      make s = (id, s) := by
    have hlater : make s = ((make t.store).1, s) := made_again hrepeats (by rwa [hmade])
    rwa [hmade] at hlater
  induction h with
  | keyword h => exact .keyword h
  | string hplain hmade => exact .string hplain (hintern hmade)
  | named hname hplain hnamed hmade => exact .named hname hplain hnamed (hintern hmade)
  | array helement hplain hmade ih =>
    have hknown := known_of_legible ht helement
    refine .array ih (hplain.imp_right fun h => ?_) (hintern hmade)
    exact ⟨(hs.isUnion_eq hknown).trans h.1, (hs.isIntersection_eq hknown).trans h.2⟩
  | intersection hids hplain hmade ih =>
    have hknown := fun m hm => known_of_legible ht (hids m hm)
    refine .intersection ih (fun m hm => (hplain m hm).imp_right ?_)
      (hcombine (repeats_intersection ht.normal.closed _ hknown) hmade)
    exact (hs.isUnion_eq (hknown m hm)).trans
  | union hids hmade ih =>
    have hknown := fun m hm => known_of_legible ht (hids m hm)
    exact .union ih (hcombine (repeats_union ht.normal.closed _ hknown) hmade)

omit ht in
theorem toList_text_eq {separator : String} {ids : List TypeId}
    (h : t.store.text id = separator.intercalate (ids.map t.store.text)) :
    (t.store.text id).toList =
      separator.toList.intercalate (ids.map fun m => (t.store.text m).toList) := by
  rw [h, String.toList_intercalate, List.map_map]
  rfl

/-- Texts with a separator between them that cuts none of them are read part by part. -/
theorem readAs_separated {c : Connective} {separator : List Char} (hseparator : separator ≠ [])
    {make : List TypeText → TypeText}
    (hdenotes : ∀ parts, denotes t.namedTypes (make parts) t.store =
      madeOf c.combine (denotesIn t.namedTypes parts t.store))
    (hcut : ∀ parts, (make parts).cutText? = cutTextIn? parts) {read : List Char → TypeText}
    {ids : List TypeId} (hids : ids ≠ [])
    (h : ∀ m ∈ ids, Uncut separator (t.store.text m).toList ∧
      ReadAs t (read (t.store.text m).toList) m)
    (hmade : c.combine t.store ids = (id, t.store)) :
    ReadAs t (composite make ((splitAround separator
      (separator.intercalate (ids.map fun m => (t.store.text m).toList))).map read)) id := by
  rw [splitAround_intercalate hseparator (List.map_eq_nil_iff.not.mpr hids)
    (List.forall_mem_map.mpr fun m hm => (h m hm).1), List.map_map]
  exact readAs_composite ht.canonical hdenotes hcut (fun m hm => (h m hm).2) hmade

/-- The text of a factor is not cut around `|`, and its parts around `&` are read as its members. -/
theorem IsFactor.readAs (h : IsFactor t id) (hid : t.store.Known id) :
    Uncut bar (t.store.text id).toList ∧
      ReadAs t (ofIntersection (t.store.text id).toList) id := by
  obtain ⟨m, hm⟩ := ht.canonical.exists_mem_members .intersection id
  rw [toList_text_eq (ht.text_eq_intersection hid)]
  refine ⟨uncut_intercalate (List.forall_mem_map.mpr fun m hm => (h m hm).whole), ?_⟩
  exact readAs_separated ht (c := .intersection) (List.cons_ne_nil _ _) (fun _ => rfl)
    (fun _ => rfl) (List.ne_nil_of_mem hm) (fun m hm => ⟨(h m hm).whole.ampersand, (h m hm).readAs⟩)
    (ht.canonical.combine_members .intersection id)

/-- The text of a sum is read as the type. -/
theorem IsSum.readAs (h : IsSum t id) (hid : t.store.Known id) :
    ReadAs t (ofText (t.store.text id)) id := by
  have hshown : ∀ m ∈ unionOrder (t.store.unionMembers id), IsFactor t m ∧ t.store.Known m :=
    forall_mem_unionOrder
      (fun m hm => ⟨h m hm, ht.normal.closed.known_of_mem_unionMembers hid hm⟩)
      fun _ => ⟨isFactor_keyword ht rfl, ht.normal.closed.known_builtin (by decide)⟩
  obtain ⟨m, hm⟩ := ht.canonical.exists_mem_members .union id
  rw [ofText, toList_text_eq (ht.text_eq_union hid)]
  exact readAs_separated ht (c := .union) (List.cons_ne_nil _ _) (fun _ => rfl) (fun _ => rfl)
    (unionOrder_ne_nil (List.ne_nil_of_mem hm))
    (fun m hm => (hshown m hm).1.readAs ht (hshown m hm).2) (ht.union_unionOrder id)

theorem readAs_of_legible (h : t.Legible id) : ReadAs t (ofText (t.store.text id)) id :=
  (isSum_of_legible ht h).readAs ht (known_of_legible ht h)

end

namespace TypeTable

open Syntax

variable {tree : Tree} {k last : Nat} {d : VariableDeclaration}

section

variable (hb : tree.BottomUp) (hd : tree.variableDeclaration? (some k) = some d)

include hb hd

/-- Until the declaration is bound, nothing new is recorded for the type node of a declaration. -/
theorem typeOfTypeNode?_annotation_bindBefore :
    (bindBefore tree t k).2.typeOfTypeNode? d.typeAnnotation =
      t.typeOfTypeNode? d.typeAnnotation := by
  obtain ⟨n, hn, hd'⟩ := Option.bind_eq_some_iff.mp hd
  have hlink : d.typeAnnotation ∈ tree.links (some k) := by
    simp [Tree.links, hn, (Node.payload_of_variableDeclaration? hd').1, Payload.fields]
  have hadds := adds_bindBefore tree t 0 k
  rw [Nat.zero_add] at hadds
  refine hadds.typeOfTypeNode?_eq _ ((hb.link _ _ hlink).imp_right fun hchild hmem => ?_)
  obtain ⟨j, hj, hother⟩ := List.mem_flatMap.mp hmem
  rcases hb.link _ _ hother with hnone | hchild'
  · obtain ⟨i, -, hsome⟩ := hb.exists_of_mem_children hchild
    cases hnone.symm.trans hsome
  · cases hb.eq_of_mem_children hchild hchild'
    have hrange := List.mem_range'_1.mp hj
    omega

/-- The type node of a declaration is bound to the type that it denotes, unless it has a type. -/
theorem typeOfTypeNode?_annotation (ht : t.Sound) (hk : k < last)
    (hnew : t.typeOfTypeNode? d.typeAnnotation = none)
    (hid : resolveType tree t.namedTypes d.typeAnnotation t.store = (some id, t.store)) :
    (bindBefore tree t last).2.typeOfTypeNode? d.typeAnnotation = some id := by
  refine (extends_bindBefore tree t hk).typeOfTypeNode? _ id ?_
  obtain ⟨n, hn, hd'⟩ := Option.bind_eq_some_iff.mp hd
  have hgrown : t.Extends (bindBefore tree t k).2 := extends_bindBefore tree t k.zero_le
  have hfresh := (typeOfTypeNode?_annotation_bindBefore hb hd).trans hnew
  have hagain := (settles_resolveType tree t.namedTypes t.store ht.store ht.namedTypes
    d.typeAnnotation).again
  rw [hid] at hagain
  have hdenotes := hagain _ hgrown.store
  rw [← hgrown.namedTypes] at hdenotes
  change (bindBefore tree t (k + 1)).2.typeOfTypeNode? d.typeAnnotation = some id
  rw [bindBefore_succ, bindNode, hn]
  simp only [hd', bindDeclaration, declaredType, bindTypeNode, hfresh, hdenotes]
  exact (typeOfTypeNode?_setTypeNodeType _ _ _ _).trans (if_pos rfl)

end

/-- Printed types read back. The text of a legible type is a text that a constant can be declared
    with, it is the text of the type node of the declaration, and if nothing is recorded for this
    node, binding the file gives it the type. -/
theorem annotation_reads_back (ht : t.Interned) (h : t.Legible id) (fileName name : String) :
    ∃ b r d, build fileName (declaredAs name (t.store.text id)) = .ok b ∧
      b.file.tree.variableDeclaration? r = some d ∧
      b.file.tree.identifierText? d.name = some name ∧
      b.file.nodeText d.typeAnnotation = t.store.text id ∧
      (t.typeOfTypeNode? d.typeAnnotation = none →
        (t.bind b.file).typeOfTypeNode? d.typeAnnotation = some id) := by
  have hread := readAs_of_legible ht.made h
  obtain ⟨b, hb⟩ := exists_build_declaredAs fileName name hread.uncut
  obtain ⟨declaration, ident, annotation, hmem, hparts⟩ :=
    exists_declaredParts_whole name (t.store.text id)
  obtain ⟨hf, -⟩ := shown_of_build hb
  have hannotation := Spot.children_subset_all hmem hparts.annotation_mem
  have hget := hf.shows.get?_eq hmem
  have hd : b.file.tree.variableDeclaration? declaration.ref =
      some ⟨ident.ref, false, annotation.ref, none⟩ := by
    rw [Tree.variableDeclaration?, hget]
    exact hparts.declared
  refine ⟨b, declaration.ref, _, hb, hd, ?_, ?_, fun hnew => ?_⟩
  · rw [Tree.identifierText?, hf.shows.get?_eq (Spot.children_subset_all hmem hparts.ident_mem)]
    exact hparts.named
  · rw [hf.nodeText_eq hannotation, hparts.written]
    exact (puts_writeType _ _).body
  · rw [bind_eq_bindBefore hf]
    refine typeOfTypeNode?_annotation (hf.bottomUp (disciplined_declaredAs _ _)) hd ht.sound
      (Array.getElem?_eq_some_iff.mp hget).1 hnew ?_
    exact (resolveType_eq_denotes hf.shows _ hannotation hparts.written _).trans hread.denotes

/-- The shape of an object that is called `Point`. -/
def pointShape : ObjectShape := ⟨some "Point", [⟨"x", TypeId.number, false, false⟩], [], []⟩

/-- A table in which `Point` names an object, with `"b"`, `boolean & Point`, `boolean[]`,
    `boolean[][]`, `Point[]` and `boolean | "b" | boolean & Point | boolean[][] | Point[] | null`. -/
def pointTable : TypeTable :=
  { TypeTable.new .strict with
    store := initial.serve [.object pointShape, .literalString "b",
      .intersection [TypeId.boolean, 14], .array TypeId.boolean, .array 17, .array 14,
      .union [TypeId.null, 19, 18, TypeId.trueLiteral, 16, TypeId.falseLiteral, 15]]
    namedTypes := [("Point", 14)] }

theorem interned_pointTable : pointTable.Interned where
  made := Made.initial.serve (by decide)
  nodeTypes := List.forall_mem_nil _
  typeNodeTypes := List.forall_mem_nil _
  contextualTypes := List.forall_mem_nil _
  namedTypes := by decide

theorem legible_pointTable : pointTable.Legible 20 := by
  have hmade := interned_pointTable.made
  have hinterned {id : TypeId} {data : TypeData} (hdata : pointTable.store.lookup id = some data) :
      pointTable.store.intern data = (id, pointTable.store) :=
    Store.intern_eq hdata
  have hname : IsTypeName "Point" := ⟨by decide, by decide, by decide⟩
  have hshape : pointTable.store.object pointShape = (14, pointTable.store) :=
    hinterned (by decide)
  have hpoint : pointTable.Legible 14 := .named rfl hname rfl hshape
  have hplain : IsPlainString "b" := ⟨by decide, by decide, by decide, by decide⟩
  have hb : pointTable.Legible 15 := .string hplain (hinterned (by decide))
  have hboolean : pointTable.Legible TypeId.boolean := .keyword rfl
  have hparts : pointTable.store.intersectionMembers 16 = [TypeId.boolean, 14] := by decide
  have hwhole : pointTable.store.intersection (pointTable.store.intersectionMembers 16) =
      (16, pointTable.store) := hmade.canonical.combine_members .intersection 16
  have hboth : pointTable.Legible 16 := by
    refine .intersection (fun m hm => ?_) ?_ hwhole
    · rw [hparts] at hm
      revert m
      simp only [List.forall_mem_cons]
      exact ⟨hboolean, hpoint, List.forall_mem_nil _⟩
    · decide
  have harray : pointTable.Legible 17 :=
    .array hboolean (.inl rfl) (hinterned (by decide))
  have harrays : pointTable.Legible 18 :=
    .array harray (.inr (by decide)) (hinterned (by decide))
  have hpoints : pointTable.Legible 19 :=
    .array hpoint (.inr (by decide)) (hinterned (by decide))
  have hmembers : pointTable.store.unionMembers 20 =
      [TypeId.null, TypeId.trueLiteral, TypeId.falseLiteral, 15, 16, 18, 19] := by
    decide
  have hunion : pointTable.store.union (pointTable.store.unionMembers 20) =
      (20, pointTable.store) := hmade.canonical.combine_members .union 20
  refine .union ?_ hunion
  simp only [hmembers, List.forall_mem_cons]
  exact ⟨.keyword rfl, .keyword rfl, .keyword rfl, hb, hboth, harrays, hpoints,
    List.forall_mem_nil _⟩

theorem annotation_reads_back_point :
    ∃ b r d, pointTable.Interned ∧ pointTable.Legible 20 ∧
      build "a.ts" (declaredAs "x" (pointTable.store.text 20)) = .ok b ∧
      b.file.tree.variableDeclaration? r = some d ∧
      pointTable.typeOfTypeNode? d.typeAnnotation = none ∧
      (pointTable.bind b.file).typeOfTypeNode? d.typeAnnotation = some 20 := by
  obtain ⟨b, r, d, hb, hd, -, -, hbound⟩ :=
    annotation_reads_back interned_pointTable legible_pointTable "a.ts" "x"
  exact ⟨b, r, d, interned_pointTable, legible_pointTable, hb, hd, rfl, hbound rfl⟩

end TypeTable

end TypeLint.Binding
