import TypeLint.Proofs.Binding.Idempotent
import TypeLint.Proofs.Program.Sizes
import TypeLint.Proofs.Program.TypeForms

namespace TypeLint.Binding

open TypeLint.Types Program

/-- The type that a literal denotes. -/
def literalDenotes (kind : Syntax.Kind) (value : Option String) (s : Store) :
    Option TypeId × Store :=
  match kind with
  | .nullKeyword => (some TypeId.null, s)
  | .trueKeyword => (some TypeId.trueLiteral, s)
  | .falseKeyword => (some TypeId.falseLiteral, s)
  | .stringLiteral => found (s.literalString (value.getD ""))
  | .numericLiteral =>
    match Decimal.read? (value.getD "") with
    | some number => found (s.literalNumber number)
    | none => (none, s)
  | _ => (none, s)

/-- The type that is made of the types of all parts. -/
def madeOf (make : Store → List TypeId → TypeId × Store) :
    Option (List TypeId) × Store → Option TypeId × Store
  | (some ids, s) => found (make s ids)
  | (none, s) => (none, s)

mutual

/-- The type that a written type denotes. -/
def denotes (named : List (String × TypeId)) : TypeText → Store → Option TypeId × Store
  | .keyword kind _, s => (keywordType? kind, s)
  | .literal kind _ value, s => literalDenotes kind value s
  | .name text, s => (named.lookup text, s)
  | .array element, s =>
    match denotes named element s with
    | (some id, s) => found (s.array id)
    | (none, s) => (none, s)
  | .union parts, s => madeOf Store.union (denotesIn named parts s)
  | .intersection parts, s => madeOf Store.intersection (denotesIn named parts s)

/-- The types that written types denote in turn, up to the first that denotes none. -/
def denotesIn (named : List (String × TypeId)) :
    List TypeText → Store → Option (List TypeId) × Store
  | [], s => (some [], s)
  | part :: rest, s =>
    match denotes named part s with
    | (none, s) => (none, s)
    | (some id, s) =>
      let (ids, s) := denotesIn named rest s
      (ids.map (id :: ·), s)

end

section

open Syntax Writer Text

variable {tree : Tree} {root x : Spot}

theorem literalNodeType?_eq {n : Node} {kind : Kind} {value : Option String} (hkind : n.kind = kind)
    (hpayload : n.payload = literalPayload kind value) (s : Store) :
    literalNodeType? s n = literalDenotes kind value s := by
  have hread (hliteral : n.payload = .literal (value.getD ""))
      (hfits : Payload.fits (.literal "") kind = true) : n.literal? = some (value.getD "") := by
    rw [Node.literal?, Node.payload?, hliteral, hkind, if_pos (by exact hfits)]
  rw [literalNodeType?, hkind]
  unfold literalDenotes
  split
  · rfl
  · rfl
  · rfl
  · rw [stringType?, hread hpayload rfl]
  · cases hnumber : Decimal.read? (value.getD "") <;>
      simp only [numberType?, hread hpayload rfl, Option.bind_some, hnumber]
  · simp_all

/-- A keyword that stands for a type is a token, which is none of the nodes that hold types. -/
theorem resolveTypeTo_keyword (hs : tree.Shows root) (hx : x ∈ root.all)
    (htoken : x.green.kind.isToken = true) (named : List (String × TypeId)) (depth : Nat)
    (s : Store) :
    resolveTypeTo tree named (depth + 1) x.ref s = (keywordType? x.green.kind, s) := by
  have hkind : x.node.kind = x.green.kind := rfl
  rw [resolveTypeTo, hs.get?_eq hx]
  simp only [hkind]
  split <;> first | rfl | (next heq => rw [heq] at htoken; cases htoken)

theorem compositeType?_eq {make : Store → List TypeId → TypeId × Store}
    {one : NodeRef → Store → Option TypeId × Store} {n : Node} {parts : List NodeRef} {s : Store}
    {collected : Option (List TypeId) × Store} (hcollected : collectTypes one parts s = collected)
    (hparts : n.compositeType? = some parts) :
    compositeType? make one n s = madeOf make collected := by
  rcases collected with ⟨_ | ids, s'⟩ <;> simp only [compositeType?, hparts, hcollected, madeOf]

theorem resolveLink_zero (first : NodeRef) (refs : List NodeRef) :
    Emission.resolveLink (first :: refs) (some 0) = first := rfl

theorem resolveLink_shift (first second : NodeRef) (refs : List NodeRef) :
    Emission.resolveLink (first :: second :: refs) ∘ Option.map (· + 2) =
      Emission.resolveLink refs := by
  funext link
  cases link <;> rfl

theorem evenPlaces_succ (count : Nat) :
    evenPlaces (count + 1) = some 0 :: (evenPlaces count).map (Option.map (· + 2)) := by
  simp only [evenPlaces, List.range_succ_eq_map, List.map_cons, List.map_map]
  refine congrArg _ (List.map_congr_left fun i _ => ?_)
  simp only [Function.comp_apply, Option.map_some, Option.some.injEq]
  omega

mutual

/-- A type node denotes what the type denotes that it was written from. -/
theorem resolveTypeTo_eq_denotes (hs : tree.Shows root) (named : List (String × TypeId))
    (t : TypeText) (ht : t.Proper) (l : Layout) {x : Spot} (hx : x ∈ root.all)
    (hgreen : x.green = (t.write.run l).1) {depth : Nat} (hdepth : x.green.size ≤ depth)
    (s : Store) : resolveTypeTo tree named depth x.ref s = denotes named t s := by
  obtain ⟨depth, rfl⟩ : ∃ below, depth = below + 1 :=
    Nat.exists_eq_succ_of_ne_zero (by rw [Green.size] at hdepth; omega)
  have hget := hs.get?_eq hx
  obtain ⟨first, offset, parent, green⟩ := x
  cases t with
  | keyword kind text =>
    subst hgreen
    exact resolveTypeTo_keyword hs hx ht.1 named depth s
  | literal kind text value =>
    rw [TypeText.write, run_literalType] at hgreen
    subst hgreen
    let x : Spot := ⟨first, offset, parent, branch .literalType (.wrappedType (some 0))
      [.token l.pending kind text (literalPayload kind value) []]⟩
    let token : Spot := ⟨first, offset, x.ref,
      .token l.pending kind text (literalPayload kind value) []⟩
    have htoken : token ∈ root.all := Spot.children_subset_all hx List.mem_cons_self
    rw [resolveTypeTo, hget, denotes]
    change (match tree.get? token.ref with
      | some literal => literalNodeType? s literal
      | none => (none, s)) = _
    rw [hs.get?_eq htoken]
    exact literalNodeType?_eq rfl rfl s
  | name text =>
    subst hgreen
    let x : Spot := ⟨first, offset, parent, branch .typeReference (.typeName (some 0))
      [.token l.pending .identifier text (.identifier text) []]⟩
    let token : Spot := ⟨first, offset, x.ref,
      .token l.pending .identifier text (.identifier text) []⟩
    have htoken : token ∈ root.all := Spot.children_subset_all hx List.mem_cons_self
    rw [resolveTypeTo, hget, denotes]
    change ((((tree.get? token.ref).bind Node.identifier?).bind fun name =>
      named.lookup name), s) = _
    rw [hs.get?_eq htoken]
    rfl
  | array element =>
    simp only [TypeText.write, run_bind, run_token, run_pure] at hgreen
    subst hgreen
    let x : Spot := ⟨first, offset, parent, branch .arrayType (.wrappedType (some 0))
      [(element.write.run l).1, mark (element.write.run l).2.pending .openBracketToken,
        mark ((element.write.run l).2.behind "[").pending .closeBracketToken]⟩
    let inner : Spot := ⟨first, offset, x.ref, (element.write.run l).1⟩
    have hinner : inner ∈ root.all := Spot.children_subset_all hx List.mem_cons_self
    rw [resolveTypeTo, hget, denotes]
    change (match resolveTypeTo tree named depth inner.ref s with
      | (some id, s) => found (s.array id)
      | (none, s) => (none, s)) = _
    have hsize : inner.green.size ≤ depth := by
      simp only [branch, Green.size, Green.sizeBelow, Green.sizeAll] at hdepth
      simp only [inner, Green.size]
      omega
    rw [resolveTypeTo_eq_denotes hs named element ht l hinner rfl hsize s]
  | union parts =>
    subst hgreen
    rw [resolveTypeTo, hget, denotes]
    exact compositeType?_eq (collectTypes_eq_denotesIn hs named .barToken parts ht.2 l
      (fun c hc => Spot.children_subset_all hx hc) (Nat.le_of_succ_le_succ hdepth) s) rfl
  | intersection parts =>
    subst hgreen
    rw [resolveTypeTo, hget, denotes]
    exact compositeType?_eq (collectTypes_eq_denotesIn hs named .ampersandToken parts ht.2 l
      (fun c hc => Spot.children_subset_all hx hc) (Nat.le_of_succ_le_succ hdepth) s) rfl

theorem collectTypes_eq_denotesIn (hs : tree.Shows root) (named : List (String × TypeId))
    (separator : Kind) (parts : List TypeText) (hparts : TypeText.ProperIn parts) (l : Layout)
    {first offset : Nat} {parent : NodeRef}
    (hrow : ∀ c ∈ Spot.row first offset parent ((TypeText.writeParts separator parts).run l).1,
      c ∈ root.all)
    {depth : Nat}
    (hdepth : Green.sizeAll ((TypeText.writeParts separator parts).run l).1 ≤ depth) (s : Store) :
    collectTypes (resolveTypeTo tree named depth)
        ((evenPlaces parts.length).map (Emission.resolveLink
          ((Spot.row first offset parent ((TypeText.writeParts separator parts).run l).1).map
            Spot.ref))) s =
      denotesIn named parts s := by
  match parts with
  | [] => rfl
  | [part] =>
    have hpart : ∀ s, resolveTypeTo tree named depth
        (Spot.mk first offset parent (part.write.run l).1).ref s = denotes named part s := fun s =>
      resolveTypeTo_eq_denotes hs named part hparts.1 l (hrow _ List.mem_cons_self) rfl hdepth s
    rw [denotesIn]
    change collectTypes _ [(Spot.mk first offset parent (part.write.run l).1).ref] s = _
    rw [collectTypes, hpart]
    rfl
  | part :: next :: rest =>
    let l' := (((part.write.run l).2.withTrivia " ").behind
      ((separator.text?).getD "")).withTrivia " "
    let items := ((TypeText.writeParts separator (next :: rest)).run l').1
    have hwritten : ((TypeText.writeParts separator (part :: next :: rest)).run l).1 =
        (part.write.run l).1 :: mark ((part.write.run l).2.withTrivia " ").pending separator ::
          items := rfl
    rw [hwritten] at hrow hdepth ⊢
    simp only [Green.sizeAll_cons, size_mark] at hdepth
    have hpart (s : Store) : resolveTypeTo tree named depth
        (Spot.mk first offset parent (part.write.run l).1).ref s = denotes named part s :=
      resolveTypeTo_eq_denotes hs named part hparts.1 l (hrow _ List.mem_cons_self) rfl
        (by simp only; omega) s
    have hitems : Green.sizeAll items ≤ depth := by omega
    have hrest := collectTypes_eq_denotesIn hs named separator (next :: rest) hparts.2 l'
      (fun c hc => hrow c (List.mem_cons_of_mem _ (List.mem_cons_of_mem _ hc))) hitems
    rw [List.length_cons, evenPlaces_succ, List.map_cons, List.map_map, Spot.row_cons,
      Spot.row_cons, List.map_cons, List.map_cons, collectTypes, denotesIn]
    rw [resolveLink_zero, resolveLink_shift, hpart]
    rcases denotes named part s with ⟨_ | id, s'⟩
    · rfl
    · simp only [items, hrest]

end

/-- In the file of a program a type node denotes what the type text denotes. -/
theorem resolveType_eq_denotes (hs : tree.Shows root) (named : List (String × TypeId))
    {text : String} {l : Layout} (hx : x ∈ root.all)
    (hgreen : x.green = ((writeType text).run l).1) (s : Store) :
    resolveType tree named x.ref s = denotes named (.ofText text) s :=
  resolveTypeTo_eq_denotes hs named _ (TypeText.ofText_proper text) l hx hgreen
    (hs.sizeBelow_lt_size hx) s

/-- A type that is not read as the name `const` does not make an assertion to `const`. -/
theorem isConstAssertion_eq_false (hs : tree.Shows root) {text : String} {l : Layout}
    (hx : x ∈ root.all) (hgreen : x.green = ((writeType text).run l).1) (hconst : text ≠ "const")
    {expression : NodeRef} :
    TypeTable.isConstAssertion tree ⟨expression, x.ref⟩ = false := by
  have hget := hs.get?_eq hx
  have hnone (h : x.node.typeName? = none) :
      TypeTable.isConstAssertion tree ⟨expression, x.ref⟩ = false := by
    rw [TypeTable.isConstAssertion, hget, Option.bind_some, h]
    rfl
  obtain ⟨first, offset, parent, green⟩ := x
  rw [writeType] at hgreen
  cases htext : TypeText.ofText text with
  | keyword kind text =>
    rw [htext] at hgreen
    subst hgreen
    refine hnone ?_
    rw [Node.typeName?]
    split
    · next heq => cases (Node.payload_of_payload? heq).1
    · rfl
  | name name =>
    rw [htext] at hgreen
    subst hgreen
    obtain rfl := TypeText.eq_of_ofText htext
    let x : Spot := ⟨first, offset, parent, branch .typeReference (.typeName (some 0))
      [.token l.pending .identifier name (.identifier name) []]⟩
    let token : Spot := ⟨first, offset, x.ref,
      .token l.pending .identifier name (.identifier name) []⟩
    have htoken : token ∈ root.all := Spot.children_subset_all hx List.mem_cons_self
    rw [TypeTable.isConstAssertion, hget]
    change (((tree.get? token.ref).bind Node.identifier?) == some "const") = false
    rw [hs.get?_eq htoken]
    exact beq_false_of_ne fun heq => hconst (Option.some.inj heq)
  | literal kind text value =>
    rw [htext, TypeText.write, run_literalType] at hgreen
    subst hgreen
    exact hnone rfl
  | array element | union parts | intersection parts =>
    rw [htext] at hgreen
    subst hgreen
    exact hnone rfl

end

namespace TypeTable

open Syntax TypeLint.Types.Store

/-- What is recorded for a type node is what the node denotes. -/
def Resolved (tree : Tree) (t : TypeTable) : Prop :=
  ∀ r id, t.typeOfTypeNode? r = some id →
    resolveType tree t.namedTypes r t.store = (some id, t.store)

section

variable {tree : Tree} {t t' : TypeTable} {types identifiers : List NodeRef}
  (h : t.Resolved tree) (ht : t.Sound)

include h ht

/-- A node denotes the same when the table has grown. -/
theorem Resolved.later (hgrown : t.Extends t') {r : NodeRef} {id : TypeId}
    (hid : t.typeOfTypeNode? r = some id) :
    resolveType tree t'.namedTypes r t'.store = (some id, t'.store) := by
  have hagain := (settles_resolveType tree t.namedTypes t.store ht.store ht.namedTypes r).again
  rw [h r id hid] at hagain
  rw [hgrown.namedTypes]
  exact hagain t'.store hgrown.store

theorem Resolved.adds (hadds : Adds types [] identifiers t t') : t'.Resolved tree :=
  fun r _ hid => h.later ht hadds.toExtends
    ((hadds.typeOfTypeNode?_eq r (.inr List.not_mem_nil)).symm.trans hid)

theorem resolved_bindTypeNode (r : NodeRef) : (t.bindTypeNode tree r).2.Resolved tree := by
  have hgrown : t.Extends (t.bindTypeNode tree r).2 :=
    (t.adds_bindTypeNode tree r : Adds [] [r] [] t _).toExtends
  rw [bindTypeNode] at hgrown ⊢
  cases hr : t.typeOfTypeNode? r with
  | some id => exact h
  | none =>
    obtain ⟨-, -, -, hagain⟩ :=
      settles_resolveType tree t.namedTypes t.store ht.store ht.namedTypes r
    rcases hresolved : resolveType tree t.namedTypes r t.store with ⟨_ | new, s⟩ <;>
      simp only [hr, hresolved] at hagain hgrown ⊢
    · exact fun c id hid => h.later ht hgrown hid
    · intro c id hid
      rw [typeOfTypeNode?_setTypeNodeType] at hid
      split_ifs at hid with hc
      · rw [hc, ← Option.some.inj hid]
        exact hagain s (.refl s)
      · exact h.later ht hgrown hid

theorem resolved_bindAssertion (n : Node) : (t.bindAssertion tree n).2.Resolved tree := by
  rw [bindAssertion]
  split
  · exact h
  · next a _ =>
    dsimp only
    rw [apply_ite Prod.snd, ite_self]
    split_ifs
    · exact h
    · exact resolved_bindTypeNode h ht a.typeNode

theorem resolved_bindExpression (scope : Scope) (r : NodeRef) (n : Node) :
    (t.bindExpression tree scope r n).2.Resolved tree := by
  cases ha : n.assertion? with
  | none =>
    have hadds := t.adds_bindExpression tree scope r n
    rw [ha] at hadds
    exact h.adds ht hadds
  | some a =>
    rw [bindExpression_of_assertion ha]
    exact resolved_bindAssertion h ht n

theorem resolved_declaredType (r : NodeRef) (d : VariableDeclaration) :
    (t.declaredType tree r d).2.Resolved tree := by
  have hannotated := resolved_bindTypeNode h ht d.typeAnnotation
  have hsound := (rebinds_bindTypeNode ht tree d.typeAnnotation).sound
  rw [declaredType]
  split
  · next hbound => rwa [hbound] at hannotated
  · next t' hbound =>
    rw [hbound] at hannotated hsound
    split
    · exact hannotated
    · next initial _ =>
      split_ifs
      · exact hannotated
      · have hkept : Adds [] [] [] t' (t'.keep (found (widenLiteral t'.store initial))).2 :=
          adds_keep (extends_union _ _)
        exact hannotated.adds hsound hkept

theorem resolved_bindNode (scope : Scope) (r : NodeRef) :
    (bindNode tree (scope, t) r).2.Resolved tree := by
  rw [bindNode]
  cases tree.get? r with
  | none => exact h
  | some n =>
    cases hd : n.variableDeclaration? with
    | some d =>
      have hdeclared := resolved_declaredType h ht r d
      simp only [hd, bindDeclaration]
      split <;> next hbound => rwa [hbound] at hdeclared
    | none =>
      have hbound := resolved_bindExpression h ht scope r n
      simp only [hd]
      split <;> next heq => rwa [heq] at hbound

/-- Binding a file in which nothing is recorded for type nodes records for them what they
    denote. -/
theorem resolved_bindBefore (k : Nat) : (bindBefore tree t k).2.Resolved tree := by
  induction k with
  | zero => exact h
  | succ k ih => exact resolved_bindNode ih (sound_bindBefore ht tree k) _ _

omit ht in
/-- A node that denotes a type when all is known is bound to it. -/
theorem Resolved.bindTypeNode_eq {r : NodeRef} {id : TypeId}
    (hid : resolveType tree t.namedTypes r t.store = (some id, t.store)) :
    (t.bindTypeNode tree r).1 = some id := by
  rw [bindTypeNode]
  cases hr : t.typeOfTypeNode? r with
  | some old => exact congrArg Prod.fst ((h r old hr).symm.trans hid)
  | none => rw [hid]

end

end TypeTable

end TypeLint.Binding
