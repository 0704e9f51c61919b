import TypeLint.Proofs.Binding.Denotation
import TypeLint.Proofs.Binding.Recorded

namespace TypeLint.Binding

open Syntax TypeLint.Types

variable {tree : Tree} {name : String} {k : Nat}

/-- The node declares a variable of this name. -/
def Declares (tree : Tree) (name : String) (r : NodeRef) : Prop :=
  (tree.variableDeclaration? r).bind (fun d => tree.identifierText? d.name) = some name

instance (tree : Tree) (name : String) (r : NodeRef) : Decidable (Declares tree name r) :=
  inferInstanceAs (Decidable (_ = _))

/-- The declaration is the last one of the name in front of a node. -/
structure LastBefore (tree : Tree) (name : String) (k i : Nat) : Prop where
  lt : i < k
  declares : Declares tree name (some i)
  last : ∀ j, i < j → j < k → ¬ Declares tree name (some j)

theorem declares_iff {r : NodeRef} :
    Declares tree name r ↔ introduced? tree r = some (name, r) := by
  simp [Declares, introduced?_eq_some_iff, Option.bind_eq_some_iff]

/-- The name is in scope for the last declaration in front. -/
theorem lookup_scopeBefore_iff {declaration : NodeRef} :
    (scopeBefore tree k).lookup name = some declaration ↔
      ∃ i, declaration = some i ∧ LastBefore tree name k i := by
  induction k with
  | zero =>
    refine ⟨nofun, ?_⟩
    rintro ⟨i, -, hi⟩
    cases hi.lt
  | succ k ih =>
    have hrest (hnot : ¬ Declares tree name (some k)) :
        (∃ i, declaration = some i ∧ LastBefore tree name k i) ↔
          ∃ i, declaration = some i ∧ LastBefore tree name (k + 1) i := by
      refine exists_congr fun i => and_congr_right fun _ => ⟨fun h => ?_, fun h => ?_⟩
      · refine ⟨Nat.lt_succ_of_lt h.lt, h.declares, fun j hij hj => ?_⟩
        rcases Nat.lt_succ_iff_lt_or_eq.mp hj with hj | rfl
        · exact h.last j hij hj
        · exact hnot
      · refine ⟨?_, h.declares, fun j hij hj => h.last j hij (Nat.lt_succ_of_lt hj)⟩
        rcases Nat.lt_succ_iff_lt_or_eq.mp h.lt with hi | rfl
        · exact hi
        · exact (hnot h.declares).elim
    rw [scopeBefore]
    cases hentry : introduced? tree (some k) with
    | none =>
      have hnot : ¬ Declares tree name (some k) := fun h => by
        cases hentry.symm.trans (declares_iff.mp h)
      exact ih.trans (hrest hnot)
    | some entry =>
      obtain ⟨text, r⟩ := entry
      obtain ⟨rfl, -⟩ := introduced?_eq_some_iff.mp hentry
      rw [Option.toList_some, List.cons_append, List.nil_append, List.lookup_cons]
      by_cases htext : name = text
      · rw [htext, beq_self_eq_true, Option.some.injEq]
        have hnew : Declares tree text (some k) := declares_iff.mpr hentry
        constructor
        · rintro rfl
          exact ⟨k, rfl, k.lt_succ_self, hnew, fun j hkj hj => by omega⟩
        · rintro ⟨i, rfl, hi⟩
          rcases Nat.lt_succ_iff_lt_or_eq.mp hi.lt with hik | rfl
          · exact (hi.last k hik k.lt_succ_self hnew).elim
          · rfl
      · rw [beq_false_of_ne htext]
        have hnot : ¬ Declares tree name (some k) := fun h => by
          have heq := hentry.symm.trans (declares_iff.mp h)
          exact htext (congrArg Prod.fst (Option.some.inj heq)).symm
        exact ih.trans (hrest hnot)

theorem lookup_scopeBefore_eq_none_iff :
    (scopeBefore tree k).lookup name = none ↔ ∀ i < k, ¬ Declares tree name (some i) := by
  rw [List.lookup_eq_none_iff]
  constructor
  · intro h i hi hdeclares
    have hmem : (name, some i) ∈ scopeBefore tree k := by
      clear h
      induction k with
      | zero => cases hi
      | succ k ih =>
        rw [scopeBefore]
        rcases Nat.lt_succ_iff_lt_or_eq.mp hi with hi | rfl
        · exact List.mem_append_right _ (ih hi)
        · exact List.mem_append_left _ (Option.mem_toList.mpr (declares_iff.mp hdeclares))
    simpa using h _ hmem
  · intro h entry hentry
    obtain ⟨i, hi, hscope⟩ := mem_scopeBefore hentry
    refine bne_iff_ne.mpr fun heq => h i hi (declares_iff.mpr ?_)
    obtain ⟨text, r⟩ := entry
    obtain ⟨rfl, -⟩ := introduced?_eq_some_iff.mp hscope
    rw [hscope, ← show name = text from heq]

namespace TypeTable

variable {t : TypeTable} {m : Nat}

section

variable (hb : tree.BottomUp) (ht : t.Sound) (hkm : k < m)
  (hk : tree.identifierText? (some k) = some name)

include hk

/-- Binding an identifier comes down to its kind. -/
theorem bindExpression_identifier (t : TypeTable) (scope : Scope) :
    ∃ n, tree.get? (some k) = some n ∧ n.variableDeclaration? = none ∧
      t.bindExpression tree scope (some k) n = t.bindIdentifier tree scope (some k) := by
  obtain ⟨n, hn, htext⟩ := Option.bind_eq_some_iff.mp hk
  have hkind : n.kind = .identifier := by
    rw [Node.identifier?] at htext
    split at htext
    · next heq => exact beq_iff_eq.mp (Node.payload_of_payload? heq).2
    · cases htext
  refine ⟨n, hn, ?_, by rw [bindExpression, hkind]⟩
  cases hd : n.variableDeclaration? with
  | none => rfl
  | some d =>
    rw [(Node.payload_of_variableDeclaration? hd).2] at hkind
    cases hkind

include hkm

/-- The declaration that is recorded for an identifier is the one that it finds in scope. -/
theorem declarationOf?_bindBefore_self (hnew : t.declarationOf? (some k) = none) :
    (bindBefore tree t m).2.declarationOf? (some k) =
      if isReference tree (some k) && name != "undefined" then (scopeBefore tree k).lookup name
      else none := by
  have hfresh : (bindBefore tree t k).2.declarationOf? (some k) = none := by
    rw [declarationOf?_bindBefore tree t k.zero_le fun j _ hj heq => by cases heq; omega]
    exact hnew
  obtain ⟨n, hn, hd, hbound⟩ :=
    bindExpression_identifier hk (bindBefore tree t k).2 (scopeBefore tree k)
  have hstep := congrArg Prod.snd (bindBefore_succ tree t k)
  rw [bindNode_of_expression hn hd (hbound.trans (Prod.eta _).symm)] at hstep
  have hkept (answer : Option TypeId) (t' : TypeTable) :
      (answer.elim t' (t'.addType (some k))).declarationOf? (some k) =
        t'.declarationOf? (some k) := by
    cases answer <;> rfl
  rw [declarationOf?_bindBefore tree t hkm fun j hj _ heq => by cases heq; omega, hstep, hkept,
    bindIdentifier, hk]
  cases isReference tree (some k) with
  | false => exact hfresh
  | true =>
    by_cases hname : name = "undefined"
    · simp only [hname, Bool.not_true, Bool.false_eq_true, if_false, beq_self_eq_true, if_true,
        bne_self_eq_false, Bool.and_false]
      exact hfresh
    · simp only [Bool.not_true, Bool.false_eq_true, if_false, beq_false_of_ne hname,
        bne_iff_ne.mpr hname, Bool.and_self, if_true]
      cases (scopeBefore tree k).lookup name with
      | none => exact hfresh
      | some declaration =>
        simp only [declarationOf?_addDeclaration, if_true, hfresh, Option.getD_none]

include hb ht

/-- The type that is recorded for a reference is that of the declared name. -/
theorem typeAt?_bindBefore_self (hnew : t.typeAt? (some k) = none)
    (href : isReference tree (some k) = true) :
    (bindBefore tree t m).2.typeAt? (some k) =
      if name = "undefined" then some TypeId.undefined
      else ((scopeBefore tree k).lookup name).bind fun declaration =>
        (tree.variableDeclaration? declaration).bind fun d =>
          (bindBefore tree t m).2.typeAt? d.name := by
  obtain ⟨n, hn, hd, hbound⟩ :=
    bindExpression_identifier hk (bindBefore tree t m).2 (scopeBefore tree k)
  have hsettled := bindExpression_bindBefore hb ht hkm hnew hn hd fun r d hd heq => by
    obtain ⟨i, -, rfl, -⟩ := (hb.child _ _ (hb.name r d hd)).2
    rw [← heq, isReference_declaredName hb hd] at href
    cases href
  rw [hbound, bindIdentifier, hk] at hsettled
  simp only [href, Bool.not_true, Bool.false_eq_true, if_false] at hsettled
  by_cases hname : name = "undefined"
  · rw [if_pos hname]
    rw [if_pos (beq_iff_eq.mpr hname)] at hsettled
    exact (congrArg Prod.fst hsettled).symm
  · rw [if_neg hname]
    rw [if_neg (by simpa using hname)] at hsettled
    cases hscope : (scopeBefore tree k).lookup name with
    | none =>
      rw [hscope] at hsettled
      exact (congrArg Prod.fst hsettled).symm
    | some declaration =>
      rw [hscope] at hsettled
      exact (congrArg Prod.fst hsettled).symm

end

end TypeTable

end TypeLint.Binding

namespace TypeLint.Program

open Syntax

variable {p : TypeLint.Program} {f : SourceFile}

/-- A node and everything below it are numbered without gaps. -/
theorem Shown.mem_preorder_iff (hf : Shown p f) {x : Spot} (hx : x ∈ (wholeSpot p).all) {i : Nat} :
    some i ∈ f.tree.preorder x.ref ↔ x.first ≤ i ∧ i < x.first + x.green.size := by
  rw [hf.shows.preorder_eq hx, ← List.mem_range'_1, ← Spot.map_number_all, List.mem_map,
    List.mem_map]
  refine exists_congr fun y => and_congr x.walk_perm_all.mem_iff ?_
  rw [Spot.ref, Option.some.injEq]

/-- What stands between two nodes below a node stands below it, too. -/
theorem Shown.mem_preorder_of_between (hf : Shown p f) {r : NodeRef} {i j k : Nat}
    (hi : some i ∈ f.tree.preorder r) (hk : some k ∈ f.tree.preorder r) (hij : i ≤ j)
    (hjk : j ≤ k) : some j ∈ f.tree.preorder r := by
  cases hget : f.tree.get? r with
  | none => simp [Tree.preorder, hget] at hi
  | some n =>
    obtain ⟨x, hx, rfl, -⟩ := hf.shows.exists_of_get? hget
    rw [hf.mem_preorder_iff hx] at hi hk ⊢
    omega

end TypeLint.Program

namespace TypeLint.Binding.TypeTable

open Syntax Program TypeLint.Types

/-- Binding a file on a table without entries for nodes gives a reference the last declaration of
    its name in front of it, and the type that is recorded for what it declares. Whatever a function
    around the reference is, and whatever parameters it has, the declaration stands inside the
    function exactly if one inside stands in front of the reference; if there is none, but one in
    front of the function, the reference gets that one. -/
theorem bind_references {p : TypeLint.Program} (hp : Disciplined p) {fileName : String} {b : Built}
    (hbuild : build fileName p = .ok b) {t : TypeTable} (ht : t.Sound) (hnodes : t.nodeTypes = [])
    (hdeclarations : t.declarations = []) {k : Nat} {name : String}
    (hk : b.file.tree.identifierText? (some k) = some name)
    (href : isReference b.file.tree (some k) = true) :
    (name = "undefined" → (t.bind b.file).declarationOf? (some k) = none ∧
      (t.bind b.file).typeAt? (some k) = some TypeId.undefined) ∧
    (name ≠ "undefined" →
      (∀ declaration, (t.bind b.file).declarationOf? (some k) = some declaration ↔
        ∃ i, declaration = some i ∧ LastBefore b.file.tree name k i) ∧
      ((t.bind b.file).declarationOf? (some k) = none ↔
        ∀ i < k, ¬ Declares b.file.tree name (some i)) ∧
      (t.bind b.file).typeAt? (some k) =
        ((t.bind b.file).declarationOf? (some k)).bind (fun declaration =>
          (b.file.tree.variableDeclaration? declaration).bind fun d =>
            (t.bind b.file).typeAt? d.name) ∧
      ∀ function, some k ∈ b.file.tree.preorder function →
        ((∃ declaration ∈ b.file.tree.preorder function,
            (t.bind b.file).declarationOf? (some k) = some declaration) ↔
          ∃ i < k, Declares b.file.tree name (some i) ∧ some i ∈ b.file.tree.preorder function)) := by
  obtain ⟨hf, -⟩ := shown_of_build hbuild
  have hb := hf.bottomUp hp
  have hsize : k < b.file.tree.size := by
    obtain ⟨n, hn, -⟩ := Option.bind_eq_some_iff.mp hk
    exact (Array.getElem?_eq_some_iff.mp hn).1
  have hdeclared := declarationOf?_bindBefore_self hsize hk (t := t)
    (by rw [declarationOf?, hdeclarations]; rfl)
  have htype := typeAt?_bindBefore_self hb ht hsize hk (by rw [typeAt?, hnodes]; rfl) href
  rw [bind_eq_bindBefore hf]
  simp only [href, Bool.true_and] at hdeclared
  constructor
  · intro hname
    rw [hdeclared, htype, if_pos hname, hname]
    exact ⟨rfl, rfl⟩
  · intro hname
    rw [if_pos (bne_iff_ne.mpr hname)] at hdeclared
    rw [if_neg hname] at htype
    refine ⟨fun declaration => ?_, ?_, ?_, fun function hinside => ⟨?_, ?_⟩⟩
    · rw [hdeclared]
      exact lookup_scopeBefore_iff
    · rw [hdeclared]
      exact lookup_scopeBefore_eq_none_iff
    · rw [htype, hdeclared]
    · rintro ⟨declaration, hmem, hfound⟩
      rw [hdeclared] at hfound
      obtain ⟨i, rfl, hi⟩ := lookup_scopeBefore_iff.mp hfound
      exact ⟨i, hi.lt, hi.declares, hmem⟩
    · rintro ⟨j, hj, hdeclares, hmem⟩
      rw [hdeclared]
      cases hscope : (scopeBefore b.file.tree k).lookup name with
      | none => exact (lookup_scopeBefore_eq_none_iff.mp hscope j hj hdeclares).elim
      | some declaration =>
        obtain ⟨i, rfl, hi⟩ := lookup_scopeBefore_iff.mp hscope
        have hji : j ≤ i := Nat.le_of_not_lt fun hij => hi.last j hij hj hdeclares
        exact ⟨some i, hf.mem_preorder_of_between hmem hinside hji hi.lt.le, rfl⟩

/-- `declare const x: string; (x) => { const x = 1; x; };` -/
def redeclared : TypeLint.Program :=
  [.statement (.declared .const "x" "string"),
    .statement (.expression (.arrowBlock ["x"]
      [.statement (.initialized .const "x" none (.number "1")),
        .statement (.expression (.identifier "x"))]))]

theorem bind_references_redeclared :
    ∃ b, Disciplined redeclared ∧ build "a.ts" redeclared = .ok b ∧
      (TypeTable.new .strict).Sound ∧ b.file.tree.identifierText? (some 23) = some "x" ∧
      isReference b.file.tree (some 23) = true ∧
      ((TypeTable.new .strict).bind b.file).declarationOf? (some 23) = some (some 19) ∧
      some 19 ∈ b.file.tree.preorder (some 28) := by
  obtain ⟨b, hb⟩ := exists_build "a.ts" (p := redeclared) (by decide +kernel)
  have hp : Disciplined redeclared := by decide
  have hsound := (interned_new .strict).sound
  obtain ⟨hname, href, hdeclares, hlast, hinside⟩ := of_build hb (fun b =>
    b.file.tree.identifierText? (some 23) = some "x" ∧ isReference b.file.tree (some 23) = true ∧
      Declares b.file.tree "x" (some 19) ∧
      (∀ j ∈ List.range' 20 3, ¬ Declares b.file.tree "x" (some j)) ∧
      some 19 ∈ b.file.tree.preorder (some 28)) (by decide +kernel)
  have hreference := bind_references hp hb hsound rfl rfl hname href
  refine ⟨b, hp, hb, hsound, hname, href, ?_, hinside⟩
  refine ((hreference.2 (by decide)).1 _).mpr ⟨19, rfl, by decide, hdeclares, fun j hj hlt => ?_⟩
  exact hlast j (List.mem_range'_1.mpr ⟨hj, hlt⟩)

/-- `declare const x: string; (x) => x;` -/
def captured : TypeLint.Program :=
  [.statement (.declared .const "x" "string"),
    .statement (.expression (.arrow ["x"] (.identifier "x")))]

/-- A reference to a parameter of an arrow function gets the type and the declaration of a variable
    of that name outside of the function. -/
theorem bind_reference_captured :
    ∃ b f parameter, Disciplined captured ∧ build "a.ts" captured = .ok b ∧
      ((b.file.tree.get? (some 15)).bind Node.functionLike?) = some f ∧
      some 11 ∈ f.parameters ∧ b.file.tree.get? (some 11) = some parameter ∧
      parameter.payload = .parameter ⟨some 10, none⟩ ∧
      b.file.tree.identifierText? (some 10) = some "x" ∧
      some 14 ∈ b.file.tree.preorder (some 15) ∧
      b.file.tree.identifierText? (some 14) = some "x" ∧
      isReference b.file.tree (some 14) = true ∧
      (∀ i, some i ∈ b.file.tree.preorder (some 15) → ¬ Declares b.file.tree "x" (some i)) ∧
      some 5 ∉ b.file.tree.preorder (some 15) ∧
      ((TypeTable.new .strict).bind b.file).declarationOf? (some 14) = some (some 5) ∧
      ((TypeTable.new .strict).bind b.file).typeAt? (some 14) = some TypeId.string := by
  obtain ⟨b, hb⟩ := exists_build "a.ts" (p := captured) (by decide +kernel)
  obtain ⟨hfunction, hparameter, hname, hinside, hnone, houtside⟩ := of_build hb (fun b =>
    ((b.file.tree.get? (some 15)).bind Node.functionLike?) = some ⟨[some 11], some 14⟩ ∧
      ((b.file.tree.get? (some 11)).map Node.payload) = some (.parameter ⟨some 10, none⟩) ∧
      b.file.tree.identifierText? (some 10) = some "x" ∧
      some 14 ∈ b.file.tree.preorder (some 15) ∧
      (∀ r ∈ b.file.tree.preorder (some 15), ¬ Declares b.file.tree "x" r) ∧
      some 5 ∉ b.file.tree.preorder (some 15)) (by decide +kernel)
  obtain ⟨htext, href, hdeclaration, htype⟩ := of_build hb (fun b =>
    b.file.tree.identifierText? (some 14) = some "x" ∧ isReference b.file.tree (some 14) = true ∧
      ((TypeTable.new .strict).bind b.file).declarationOf? (some 14) = some (some 5) ∧
      ((TypeTable.new .strict).bind b.file).typeAt? (some 14) = some TypeId.string)
    (by decide +kernel)
  obtain ⟨parameter, hget, hpayload⟩ := Option.map_eq_some_iff.mp hparameter
  exact ⟨b, _, parameter, by decide, hb, hfunction, List.mem_cons_self, hget, hpayload, hname,
    hinside, htext, href, fun i hi => hnone _ hi, houtside, hdeclaration, htype⟩

variable {p : TypeLint.Program} {f : SourceFile} {t : TypeTable} {x : Spot} {id : TypeId}
  (hp : Disciplined p) (hf : Shown p f) (ht : t.Sound)

include hf ht in
theorem resolved_bind (htypes : t.typeNodeTypes = []) : (t.bind f).Resolved f.tree := by
  rw [bind_eq_bindBefore hf]
  refine resolved_bindBefore (fun r id hid => ?_) ht _
  rw [typeOfTypeNode?, htypes] at hid
  cases hid

section

variable (hnodes : t.nodeTypes = [])

include hp hf ht hnodes

/-- An assertion has the type that is written in it. -/
theorem typeAt?_assertion (htypes : t.typeNodeTypes = []) (hx : x ∈ (wholeSpot p).all)
    {expression typeNode : NodeRef} (ha : x.node.assertion? = some ⟨expression, typeNode⟩)
    (hkind : x.green.kind ≠ .satisfiesExpression)
    (hconst : isConstAssertion f.tree ⟨expression, typeNode⟩ = false)
    (hid : resolveType f.tree (t.bind f).namedTypes typeNode (t.bind f).store =
      (some id, (t.bind f).store)) :
    (t.bind f).typeAt? x.ref = some id := by
  have hb := hf.bottomUp hp
  have hresolved := resolved_bind hf ht htypes
  have hget := hf.shows.get?_eq hx
  have hsize : x.number < f.tree.size := (Array.getElem?_eq_some_iff.mp hget).1
  have hnot : x.node.variableDeclaration? = none := by
    cases hd : x.node.variableDeclaration? with
    | none => rfl
    | some d =>
      have hpayload := (Node.payload_of_assertion? ha).1
      rw [(Node.payload_of_variableDeclaration? hd).1] at hpayload
      cases hpayload
  have hname (r : NodeRef) (d : VariableDeclaration) (hd : f.tree.variableDeclaration? r = some d) :
      d.name ≠ x.ref := fun heq => by
    have hident := hb.identifier r d hd
    rw [heq, hf.shows.kind?_eq hx] at hident
    have hkinds := (Node.payload_of_assertion? ha).2
    change x.green.kind ∈ _ at hkinds
    rw [Option.some.inj hident] at hkinds
    revert hkinds
    decide
  have hnew : t.typeAt? x.ref = none := by rw [typeAt?, hnodes]; rfl
  have hbound := bindExpression_bindBefore hb ht hsize hnew hget hnot hname
  rw [← bind_eq_bindBefore hf, bindExpression_of_assertion ha, bindAssertion, ha] at hbound
  simp only [hconst, Bool.false_eq_true, if_false, if_neg (show x.node.kind ≠ _ from hkind),
    hresolved.bindTypeNode_eq hid] at hbound
  exact (congrArg Prod.fst hbound).symm

/-- A variable has the type that it is declared with. -/
theorem typeAt?_declared {k : Nat} {d : VariableDeclaration}
    (hd : f.tree.variableDeclaration? (some k) = some d)
    (hid : (t.bind f).typeOfTypeNode? d.typeAnnotation = some id) :
    (t.bind f).typeAt? d.name = some id := by
  obtain ⟨n, hn, -⟩ := Option.bind_eq_some_iff.mp hd
  have hsize : k < f.tree.size := (Array.getElem?_eq_some_iff.mp hn).1
  have hbound := declaredType_bindBefore (hf.bottomUp hp) hd ht hsize (by rw [typeAt?, hnodes]; rfl)
  rw [← bind_eq_bindBefore hf, declaredType, bindTypeNode, hid] at hbound
  exact (congrArg Prod.fst hbound).symm

/-- A reference to the only variable of a file has the type of the variable. -/
theorem typeAt?_reference {k i : Nat} {name : String} {d : VariableDeclaration}
    (hk : f.tree.identifierText? (some k) = some name) (href : isReference f.tree (some k) = true)
    (hname : name ≠ "undefined") (hik : i < k)
    (hd : f.tree.variableDeclaration? (some i) = some d)
    (hdeclared : f.tree.identifierText? d.name = some name)
    (honly : ∀ j d, f.tree.variableDeclaration? (some j) = some d → j = i)
    (hid : (t.bind f).typeOfTypeNode? d.typeAnnotation = some id) :
    (t.bind f).typeAt? (some k) = some id := by
  obtain ⟨n, hn, -⟩ := Option.bind_eq_some_iff.mp hk
  have hsize : k < f.tree.size := (Array.getElem?_eq_some_iff.mp hn).1
  have hlast : LastBefore f.tree name k i := by
    refine ⟨hik, ?_, fun j hij _ hdeclares => ?_⟩
    · rw [Declares, hd, Option.bind_some, hdeclared]
    · obtain ⟨d', hd', -⟩ := Option.bind_eq_some_iff.mp hdeclares
      exact hij.ne' (honly j d' hd')
  have hbound := typeAt?_bindBefore_self (hf.bottomUp hp) ht hsize hk (by rw [typeAt?, hnodes]; rfl)
    href
  rw [bind_eq_bindBefore hf, hbound, if_neg hname, lookup_scopeBefore_iff.mpr ⟨i, rfl, hlast⟩,
    Option.bind_some, hd, Option.bind_some, ← bind_eq_bindBefore hf]
  exact typeAt?_declared hp hf ht hnodes hd hid

end

end TypeLint.Binding.TypeTable
