import TypeLint.Binding.Bind
import TypeLint.Proofs.Emission.Places
import TypeLint.Proofs.Program.WellFormed

namespace TypeLint.Syntax

namespace Tree

/-- The links of a node. -/
def links (t : Tree) (r : NodeRef) : List NodeRef :=
  ((t.get? r).map fun n => n.payload.fields.flatten).getD []

/-- Links lead nowhere or to children, which come in front of their parents, and what a
    declaration declares is an identifier. -/
structure BottomUp (t : Tree) : Prop where
  link : ∀ r, ∀ c ∈ t.links r, c = none ∨ c ∈ t.children r
  child : ∀ r, ∀ c ∈ t.children r, t.parent c = r ∧ ∃ i j, r = some i ∧ c = some j ∧ j < i
  name : ∀ r d, t.variableDeclaration? r = some d → d.name ∈ t.children r
  identifier : ∀ r d, t.variableDeclaration? r = some d → t.kind? d.name = some .identifier

variable {t : Tree} {s x : Spot}

theorem BottomUp.exists_of_mem_children (h : t.BottomUp) {i : Nat} {c : NodeRef}
    (hc : c ∈ t.children (some i)) : ∃ j < i, c = some j := by
  obtain ⟨-, i', j, hi, hj, hlt⟩ := h.child _ _ hc
  cases hi
  exact ⟨j, hlt, hj⟩

/-- A node stands below one other node at most. -/
theorem BottomUp.eq_of_mem_children (h : t.BottomUp) {r r' c : NodeRef} (hc : c ∈ t.children r)
    (hc' : c ∈ t.children r') : r = r' :=
  (h.child _ _ hc).1.symm.trans (h.child _ _ hc').1

/-- A walk that may go as deep as a spot has nodes below it visits the spots in the order of their
    numbers. -/
theorem Shows.postorderTo_eq (h : t.Shows s) (hx : x ∈ s.all) {depth : Nat}
    (hdepth : x.green.sizeBelow ≤ depth) : t.postorderTo depth x.ref = x.all.map Spot.ref := by
  induction depth generalizing x with
  | zero =>
    have hchildren : x.children = [] := by
      refine List.eq_nil_iff_forall_not_mem.mpr fun c hc => ?_
      have hlt := Spot.sizeBelow_lt_of_mem_children hc
      omega
    rw [Spot.all_eq, hchildren]
    rfl
  | succ depth ih =>
    rw [Tree.postorderTo, h.children_eq hx, Spot.all_eq, List.map_append, List.flatMap_map,
      List.map_flatMap]
    refine congrArg (· ++ _) (List.flatMap_congr fun c hc =>
      ih (Spot.children_subset_all hx hc) ?_)
    have hlt := Spot.sizeBelow_lt_of_mem_children hc
    omega

theorem Shows.postorder_eq (h : t.Shows s) : t.postorder s.ref = t.refs := by
  rw [Tree.postorder, h.postorderTo_eq s.self_mem_all (h.sizeBelow_lt_size s.self_mem_all).le,
    h.refs_eq]

end Tree

section

variable {n : Node}

theorem Node.payload_of_payload? {payload : Payload} (h : n.payload? = some payload) :
    n.payload = payload ∧ payload.fits n.kind = true := by
  rw [Node.payload?] at h
  split_ifs at h with hfits
  obtain rfl := Option.some.inj h
  exact ⟨rfl, hfits⟩

theorem Node.payload_of_variableDeclaration? {d : VariableDeclaration}
    (h : n.variableDeclaration? = some d) :
    n.payload = .variableDeclaration d ∧ n.kind = .variableDeclaration := by
  rw [Node.variableDeclaration?] at h
  split at h
  · next heq =>
    obtain rfl := Option.some.inj h
    exact ⟨(payload_of_payload? heq).1, beq_iff_eq.mp (payload_of_payload? heq).2⟩
  · cases h

theorem Node.payload_of_assertion? {a : Assertion} (h : n.assertion? = some a) :
    n.payload = .assertion a ∧
      n.kind ∈ [Kind.asExpression, .typeAssertionExpression, .satisfiesExpression] := by
  rw [Node.assertion?] at h
  split at h
  · next heq =>
    obtain rfl := Option.some.inj h
    exact ⟨(payload_of_payload? heq).1, List.contains_iff_mem.mp (payload_of_payload? heq).2⟩
  · cases h

theorem Node.payload_of_unary? {u : Unary} (h : n.unary? = some u) : n.payload = .unary u := by
  rw [Node.unary?] at h
  split at h
  · next heq =>
    obtain rfl := Option.some.inj h
    exact (payload_of_payload? heq).1
  · cases h

theorem Node.payload_of_binary? {b : Binary} (h : n.binary? = some b) : n.payload = .binary b := by
  rw [Node.binary?] at h
  split at h
  · next heq =>
    obtain rfl := Option.some.inj h
    exact (payload_of_payload? heq).1
  · cases h

theorem Node.payload_of_access? {a : Access} (h : n.access? = some a) : n.payload = .access a := by
  rw [Node.access?] at h
  split at h
  · next heq =>
    obtain rfl := Option.some.inj h
    exact (payload_of_payload? heq).1
  · cases h

theorem Node.payload_of_call? {c : Call} (h : n.call? = some c) : n.payload = .call c := by
  rw [Node.call?] at h
  split at h
  · next heq =>
    obtain rfl := Option.some.inj h
    exact (payload_of_payload? heq).1
  · cases h

theorem Node.payload_of_wrapped? {kind : Kind} {e : NodeRef} (h : n.wrapped? kind = some e) :
    n.payload = .wrapped e := by
  rw [Node.wrapped?] at h
  split at h
  · next heq =>
    split_ifs at h
    obtain rfl := Option.some.inj h
    exact (payload_of_payload? heq).1
  · cases h

end

end TypeLint.Syntax

namespace TypeLint.Program

open Syntax

variable {p : TypeLint.Program} {f : SourceFile} {r : NodeRef}

theorem Shown.postorder_eq (hf : Shown p f) : f.tree.postorder f.root = f.tree.refs := by
  rw [hf.root, hf.shows.postorder_eq]

/-- A child comes in front of its parent. -/
theorem Shown.exists_of_mem_children (hf : Shown p f) {c : NodeRef} (hc : c ∈ f.tree.children r) :
    ∃ i j, r = some i ∧ c = some j ∧ j < i := by
  cases hget : f.tree.get? r with
  | none => simp [Tree.children, hget] at hc
  | some n =>
    obtain ⟨x, hx, rfl, -⟩ := hf.shows.exists_of_get? hget
    rw [hf.shows.children_eq hx] at hc
    obtain ⟨child, hchild, rfl⟩ := List.mem_map.mp hc
    exact ⟨x.number, child.number, rfl, rfl, Spot.number_lt_of_mem_children hchild⟩

/-- A declared name is an identifier below its declaration. -/
theorem Shown.declaredName (hp : Disciplined p) (hf : Shown p f) {d : VariableDeclaration}
    (hd : f.tree.variableDeclaration? r = some d) :
    d.name ∈ f.tree.children r ∧ f.tree.kind? d.name = some .identifier := by
  obtain ⟨n, hn, hd⟩ := Option.bind_eq_some_iff.mp hd
  obtain ⟨x, hx, rfl, rfl⟩ := hf.shows.exists_of_get? hn
  have hform := hasForm_of_mem_wholeSpot hp hx
  obtain ⟨hpayload, hkind⟩ := Node.payload_of_variableDeclaration? hd
  change x.green.kind = .variableDeclaration at hkind
  obtain ⟨flags, payload, gs, labels, hgreen⟩ := hform.exists_node (by rw [hkind]; rfl)
  rw [hkind] at hgreen
  rw [hgreen] at hform
  cases hform with
  | variableDeclaration declared rest definite type value _ _ hname =>
    have hchild : Spot.mk x.first x.offset x.ref declared ∈ x.children := by
      rw [Spot.children_of_node hgreen]
      exact List.mem_cons_self
    have hdeclared : d.name = (Spot.mk x.first x.offset x.ref declared).ref := by
      obtain ⟨first, offset, parent, green⟩ := x
      obtain rfl : green = _ := hgreen
      cases hpayload
      rfl
    rw [hdeclared, hf.shows.kind?_eq (Spot.children_subset_all hx hchild), hname,
      hf.shows.children_eq hx]
    exact ⟨List.mem_map_of_mem hchild, rfl⟩
  | compositeType _ h | prefixed _ h | block _ h | jump _ h => rcases h with h | h <;> cases h

/-- In a file that is built from a program the links of a node lead to its children. -/
theorem Shown.bottomUp (hp : Disciplined p) (hf : Shown p f) : f.tree.BottomUp where
  link r c hc := by
    rw [Tree.links] at hc
    cases hget : f.tree.get? r with
    | none => simp [hget] at hc
    | some n =>
      obtain ⟨x, hx, rfl, rfl⟩ := hf.shows.exists_of_get? hget
      simp only [hget, Option.map_some, Option.getD_some] at hc
      obtain ⟨field, hfield, hc⟩ := List.mem_flatten.mp hc
      have hform := hasForm_of_mem_wholeSpot hp hx
      cases hgreen : x.green with
      | token lead kind text payload labels =>
        rw [hgreen] at hform
        simp only [Spot.node, hgreen, Green.payloadOver] at hfield
        cases hform <;> cases hfield
      | node kind flags payload gs labels =>
        have hkind : x.green.kind.isToken = false := by rw [hform.kindFits, hgreen]; rfl
        rw [hf.shows.children_eq hx]
        rcases (Spot.payloadFits hform hkind).2 field hfield with rfl | hsub
        · exact .inl (List.mem_singleton.mp hc)
        · exact .inr (hsub.subset hc)
  child r c hc := ⟨hf.parent_of_mem_children hc, hf.exists_of_mem_children hc⟩
  name _ _ hd := (hf.declaredName hp hd).1
  identifier _ _ hd := (hf.declaredName hp hd).2

end TypeLint.Program

namespace TypeLint.Binding

open Syntax

variable {tree : Tree} {t : TypeTable} {r : NodeRef}

/-- The name that a node brings into scope. -/
def introduced? (tree : Tree) (r : NodeRef) : Option (String × NodeRef) :=
  (tree.variableDeclaration? r).bind fun d => (tree.identifierText? d.name).map (·, r)

/-- The declarations in front of a node, the last one first. -/
def scopeBefore (tree : Tree) : Nat → Scope
  | 0 => []
  | k + 1 => (introduced? tree (some k)).toList ++ scopeBefore tree k

/-- The names that the declarations in scope declare. -/
def declaredNames (tree : Tree) (scope : Scope) : List NodeRef :=
  scope.filterMap fun entry => (tree.variableDeclaration? entry.2).map (·.name)

/-- The node whose type is recorded when a node is bound: the declared name or the node itself. -/
def target (tree : Tree) (r : NodeRef) : NodeRef :=
  ((tree.variableDeclaration? r).map (·.name)).getD r

theorem mem_scopeBefore {k : Nat} {entry : String × NodeRef} (h : entry ∈ scopeBefore tree k) :
    ∃ i < k, introduced? tree (some i) = some entry := by
  induction k with
  | zero => cases h
  | succ k ih =>
    rcases List.mem_append.mp h with hnew | hold
    · exact ⟨k, Nat.lt_succ_self k, Option.mem_toList.mp hnew⟩
    · obtain ⟨i, hi, hentry⟩ := ih hold
      exact ⟨i, Nat.lt_succ_of_lt hi, hentry⟩

theorem introduced?_eq_some_iff {name : String} {declaration : NodeRef} :
    introduced? tree r = some (name, declaration) ↔
      declaration = r ∧ ∃ d, tree.variableDeclaration? r = some d ∧
        tree.identifierText? d.name = some name := by
  simp only [introduced?, Option.bind_eq_some_iff, Option.map_eq_some_iff, Prod.mk.injEq]
  constructor
  · rintro ⟨d, hd, text, htext, rfl, rfl⟩
    exact ⟨rfl, d, hd, htext⟩
  · rintro ⟨rfl, d, hd, htext⟩
    exact ⟨d, hd, name, htext, rfl, rfl⟩

namespace TypeTable

/-- What is in scope and what is recorded in front of a node. -/
def bindBefore (tree : Tree) (t : TypeTable) : Nat → Scope × TypeTable
  | 0 => ([], t)
  | k + 1 => bindNode tree (bindBefore tree t k) (some k)

theorem bindNode_scope (scope : Scope) :
    (bindNode tree (scope, t) r).1 = (introduced? tree r).toList ++ scope := by
  rw [bindNode, introduced?, Tree.variableDeclaration?]
  cases hn : tree.get? r with
  | none => rfl
  | some n =>
    rw [Option.bind_some]
    cases hd : n.variableDeclaration? with
    | some d =>
      simp only [hd, bindDeclaration, Option.bind_some]
      cases htext : tree.identifierText? d.name <;> split <;> rfl
    | none =>
      simp only [hd, Option.bind_none]
      split <;> rfl

theorem bindBefore_scope (tree : Tree) (t : TypeTable) (k : Nat) :
    (bindBefore tree t k).1 = scopeBefore tree k := by
  induction k with
  | zero => rfl
  | succ k ih =>
    rw [bindBefore, scopeBefore, ← ih]
    exact bindNode_scope _

theorem bindBefore_succ (tree : Tree) (t : TypeTable) (k : Nat) :
    bindBefore tree t (k + 1) =
      bindNode tree (scopeBefore tree k, (bindBefore tree t k).2) (some k) := by
  rw [bindBefore, ← bindBefore_scope tree t k]

theorem bindBefore_eq_foldl (tree : Tree) (t : TypeTable) (k : Nat) :
    bindBefore tree t k = ((List.range k).map some).foldl (bindNode tree) ([], t) := by
  induction k with
  | zero => rfl
  | succ k ih => rw [bindBefore, ih, List.range_succ, List.map_append, List.foldl_append]; rfl

/-- A file that is built from a program is bound node by node in the order of the numbers. -/
theorem bind_eq_bindBefore {p : TypeLint.Program} {f : SourceFile} (hf : Program.Shown p f)
    (t : TypeTable) : t.bind f = (bindBefore f.tree t f.tree.size).2 := by
  rw [bind, hf.postorder_eq, bindBefore_eq_foldl, Tree.refs]

end TypeTable

end TypeLint.Binding
