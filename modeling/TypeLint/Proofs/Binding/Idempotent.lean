import TypeLint.Proofs.Binding.Again

namespace TypeLint.Binding.TypeTable

open Syntax TypeLint.Types TypeLint.Types.Store

variable {tree : Tree} {t : TypeTable} {c : NodeRef} {k m : Nat}

/-- The nodes from one on add to what is recorded in front of it. -/
theorem adds_bindBefore (tree : Tree) (t : TypeTable) (k n : Nat) :
    Adds ((List.range' k n).map fun j => target tree (some j))
      ((List.range' k n).flatMap fun j => tree.links (some j)) ((List.range' k n).map some)
      (bindBefore tree t k).2 (bindBefore tree t (k + n)).2 := by
  induction n with
  | zero => exact .refl _
  | succ n ih =>
    rw [List.range'_1_concat, List.map_append, List.flatMap_append, List.map_append]
    refine (ih.mono (List.subset_append_left _ _) (List.subset_append_left _ _)
      (List.subset_append_left _ _)).trans ?_
    refine (adds_bindNode _ tree _ (some (k + n))).mono ?_ ?_ ?_
    · exact List.subset_append_right _ _
    · simp
    · exact List.subset_append_right _ _

theorem typeAt?_bindBefore (tree : Tree) (t : TypeTable) (hkm : k ≤ m)
    (hc : ∀ j, k ≤ j → j < m → c ≠ target tree (some j)) :
    (bindBefore tree t m).2.typeAt? c = (bindBefore tree t k).2.typeAt? c := by
  obtain ⟨n, rfl⟩ := Nat.exists_eq_add_of_le hkm
  refine (adds_bindBefore tree t k n).typeAt?_eq c fun hmem => ?_
  obtain ⟨j, hj, heq⟩ := List.mem_map.mp hmem
  rw [List.mem_range'_1] at hj
  exact hc j hj.1 hj.2 heq.symm

theorem declarationOf?_bindBefore (tree : Tree) (t : TypeTable) (hkm : k ≤ m)
    (hc : ∀ j, k ≤ j → j < m → c ≠ some j) :
    (bindBefore tree t m).2.declarationOf? c = (bindBefore tree t k).2.declarationOf? c := by
  obtain ⟨n, rfl⟩ := Nat.exists_eq_add_of_le hkm
  refine (adds_bindBefore tree t k n).declarationOf?_eq c fun hmem => ?_
  obtain ⟨j, hj, heq⟩ := List.mem_map.mp hmem
  rw [List.mem_range'_1] at hj
  exact hc j hj.1 hj.2 heq.symm

theorem extends_bindBefore (tree : Tree) (t : TypeTable) (hkm : k ≤ m) :
    (bindBefore tree t k).2.Extends (bindBefore tree t m).2 := by
  obtain ⟨n, rfl⟩ := Nat.exists_eq_add_of_le hkm
  exact (adds_bindBefore tree t k n).toExtends

/-- The node stands below one that is bound in front of a node, or it is absent. -/
def Early (tree : Tree) (k : Nat) (c : NodeRef) : Prop :=
  c = none ∨ ∃ i < k, c ∈ tree.children (some i)

section

variable (hb : tree.BottomUp)

include hb

theorem target_eq (r : NodeRef) : target tree r = r ∨ target tree r ∈ tree.children r := by
  rw [target]
  cases hd : tree.variableDeclaration? r with
  | none => exact .inl rfl
  | some d => exact .inr (hb.name r d hd)

theorem Early.ne_target (hc : Early tree k c) {j : Nat} (hj : k ≤ j) :
    c ≠ target tree (some j) := by
  rintro rfl
  rcases target_eq hb (some j) with heq | hchild
  · rw [heq] at hc
    rcases hc with hnone | ⟨i, hi, hc⟩
    · cases hnone
    · obtain ⟨j', hlt, hj'⟩ := hb.exists_of_mem_children hc
      cases hj'
      omega
  · rcases hc with hnone | ⟨i, hi, hc⟩
    · obtain ⟨i, -, hsome⟩ := hb.exists_of_mem_children hchild
      cases hnone.symm.trans hsome
    · cases hb.eq_of_mem_children hc hchild
      omega

theorem Early.not_mem_links (hc : Early tree k c) {j : Nat} (hj : k ≤ j) :
    c = none ∨ c ∉ tree.links (some j) := by
  rcases hc with hnone | ⟨i, hi, hc⟩
  · exact .inl hnone
  · refine .inr fun hlink => ?_
    rcases hb.link _ _ hlink with rfl | hchild
    · obtain ⟨j', -, hsome⟩ := hb.exists_of_mem_children hc
      cases hsome
    · cases hb.eq_of_mem_children hc hchild
      omega

/-- There is never anything new about a node below one that has been bound. -/
theorem Early.typeAt?_eq (hc : Early tree k c) (t : TypeTable) (hkm : k ≤ m) :
    (bindBefore tree t m).2.typeAt? c = (bindBefore tree t k).2.typeAt? c :=
  typeAt?_bindBefore tree t hkm fun _ hj _ => hc.ne_target hb hj

theorem Early.typeOfTypeNode?_eq (hc : Early tree k c) (t : TypeTable) (hkm : k ≤ m) :
    (bindBefore tree t m).2.typeOfTypeNode? c = (bindBefore tree t k).2.typeOfTypeNode? c := by
  obtain ⟨n, rfl⟩ := Nat.exists_eq_add_of_le hkm
  refine (adds_bindBefore tree t k n).typeOfTypeNode?_eq c (Classical.or_iff_not_imp_left.mpr
    fun hsome hmem => ?_)
  obtain ⟨j, hj, hlink⟩ := List.mem_flatMap.mp hmem
  exact (hc.not_mem_links hb (List.mem_range'_1.mp hj).1).elim hsome fun hnot => hnot hlink

theorem early_of_mem_links (hc : c ∈ tree.links (some k)) : Early tree (k + 1) c :=
  (hb.link _ _ hc).imp_right fun hchild => ⟨k, Nat.lt_succ_self k, hchild⟩

theorem early_of_mem_declaredNames (hc : c ∈ declaredNames tree (scopeBefore tree k)) :
    Early tree k c := by
  obtain ⟨entry, hentry, hc⟩ := List.mem_filterMap.mp hc
  obtain ⟨d, hd, rfl⟩ := Option.map_eq_some_iff.mp hc
  obtain ⟨i, hi, hscope⟩ := mem_scopeBefore hentry
  obtain ⟨hsame, -⟩ := introduced?_eq_some_iff.mp hscope
  rw [hsame] at hd
  exact .inr ⟨i, hi, hb.name _ _ hd⟩

omit hb in
theorem Early.mono (hc : Early tree k c) (hkm : k ≤ m) : Early tree m c :=
  hc.imp_right fun ⟨i, hi, hchild⟩ => ⟨i, Nat.lt_of_lt_of_le hi hkm, hchild⟩

theorem early_of_mem_keys
    (hc : c ∈ tree.links (some k) ++ declaredNames tree (scopeBefore tree k)) :
    Early tree (k + 1) c :=
  (List.mem_append.mp hc).elim (early_of_mem_links hb) fun hc =>
    (early_of_mem_declaredNames hb hc).mono k.le_succ

theorem Early.ne_self (hc : Early tree k c) : c ≠ some k := by
  rintro rfl
  rcases hc with hnone | ⟨i, hi, hchild⟩
  · cases hnone
  · obtain ⟨j, hlt, hj⟩ := hb.exists_of_mem_children hchild
    cases hj
    omega

theorem self_not_mem_keys (k : Nat) :
    some k ∉ tree.links (some k) ++ declaredNames tree (scopeBefore tree k) := fun hmem => by
  rcases List.mem_append.mp hmem with hlink | hname
  · obtain hnone | hchild := hb.link _ _ hlink
    · cases hnone
    · obtain ⟨j, hlt, hj⟩ := hb.exists_of_mem_children hchild
      cases hj
      omega
  · exact (early_of_mem_declaredNames hb hname).ne_self hb rfl

end

theorem sound_bindBefore (ht : t.Sound) (tree : Tree) (k : Nat) :
    (bindBefore tree t k).2.Sound := by
  induction k with
  | zero => exact ht
  | succ k ih => exact sound_bindNode ih tree _ _

/-- When all nodes have been bound, binding one of them again changes nothing. -/
theorem bindNode_bindBefore (hb : tree.BottomUp) (ht : t.Sound) (hkm : k < m) :
    bindNode tree (scopeBefore tree k, (bindBefore tree t m).2) (some k) =
      (scopeBefore tree (k + 1), (bindBefore tree t m).2) := by
  have hstep := bindBefore_succ tree t k
  rw [← bindBefore_scope tree t (k + 1), hstep]
  refine bindNode_again (sound_bindBefore ht tree k) tree (scopeBefore tree k) (some k)
    (self_not_mem_keys hb k) ?_ (fun c hc => ?_) fun c hc => ?_
  · rw [← hstep]
    exact extends_bindBefore tree t hkm
  · rw [← hstep]
    exact (early_of_mem_keys hb hc).typeAt?_eq hb t hkm
  · rw [← hstep]
    exact (early_of_mem_links hb hc).typeOfTypeNode?_eq hb t hkm

theorem bindBefore_bindBefore (hb : tree.BottomUp) (ht : t.Sound) (hkm : k ≤ m) :
    bindBefore tree (bindBefore tree t m).2 k = (scopeBefore tree k, (bindBefore tree t m).2) := by
  induction k with
  | zero => rfl
  | succ k ih => rw [bindBefore, ih (Nat.le_of_lt hkm), bindNode_bindBefore hb ht hkm]

open Program in
/-- Binding never changes or removes what is recorded, whatever the table and the file are. A file
    that is built from a program is bound in one go: if all types that a table records, names or
    mentions are known, binding the file a second time gives the same table. -/
theorem bind_adds_once :
    (∀ (t : TypeTable) (f : SourceFile),
      (∀ r id, t.typeAt? r = some id → (t.bind f).typeAt? r = some id) ∧
      (∀ r id, t.typeOfTypeNode? r = some id → (t.bind f).typeOfTypeNode? r = some id) ∧
      (∀ r d, t.declarationOf? r = some d → (t.bind f).declarationOf? r = some d) ∧
      (t.bind f).contextualTypes = t.contextualTypes ∧ (t.bind f).namedTypes = t.namedTypes ∧
      (t.bind f).options = t.options) ∧
    ∀ (p : TypeLint.Program) (name : String) (b : Built), Disciplined p →
      build name p = .ok b → ∀ t : TypeTable, t.Sound →
        (t.bind b.file).bind b.file = t.bind b.file := by
  refine ⟨fun t f => ?_, fun p name b hp hbuild t ht => ?_⟩
  · have h := extends_bind t f
    exact ⟨h.typeAt?, h.typeOfTypeNode?, h.declarationOf?, h.contextualTypes, h.namedTypes,
      h.options⟩
  · obtain ⟨hf, -⟩ := shown_of_build hbuild
    rw [bind_eq_bindBefore hf, bind_eq_bindBefore hf,
      bindBefore_bindBefore (hf.bottomUp hp) ht le_rfl]

/-- A table in which `T` is a type of its own. -/
def namingTable : TypeTable := (TypeTable.new .strict).defineType "T" TypeId.symbol

open Program in
theorem bind_adds_once_excerpt :
    ∃ b, Disciplined excerpt ∧ build "a.ts" excerpt = .ok b ∧ namingTable.Sound ∧
      (namingTable.bind b.file).bind b.file = namingTable.bind b.file := by
  obtain ⟨b, hb⟩ := exists_build_excerpt
  have hsound : namingTable.Sound :=
    ((TypeTable.interned_new .strict).defineType (by decide) "T").sound
  exact ⟨b, excerpt_disciplined, hb, hsound,
    bind_adds_once.2 excerpt "a.ts" b excerpt_disciplined hb namingTable hsound⟩

/-- A store with the types `{ p: 16 }` and `{ q: string }`, where no type has the number 16. -/
def danglingStore : Store :=
  ((Store.initial.object ⟨none, [⟨"p", 16, false, false⟩], [], []⟩).2.object
    ⟨none, [⟨"q", TypeId.string, false, false⟩], [], []⟩).2

/-- A table in which these types are called `T` and `A`. -/
def danglingTable : TypeTable :=
  (TypeTable.defineType { TypeTable.new .strict with store := danglingStore } "T" 14).defineType
    "A" 15

/-- `declare const x: T; x.p.q; declare const y: A & string;` -/
def danglingProgram : TypeLint.Program :=
  [.statement (.declared .const "x" "T"),
    .statement (.expression (.property (.property (.identifier "x") false "p") false "q")),
    .statement (.declared .const "y" "A & string")]

open Program in
/-- A type may mention a number that a type gets only later, while the file is bound: all types
    that the table records or has names for are known, and binding the file a second time records
    one more type. -/
theorem bind_bind_dangling :
    ∃ b, Disciplined danglingProgram ∧ build "a.ts" danglingProgram = .ok b ∧
      initial.Extends danglingTable.store ∧ danglingTable.nodeTypes = [] ∧
      danglingTable.typeNodeTypes = [] ∧ danglingTable.contextualTypes = [] ∧
      (∀ entry ∈ danglingTable.namedTypes, danglingTable.store.Known entry.2) ∧
      (danglingTable.bind b.file).typeAt? (some 16) = none ∧
      ((danglingTable.bind b.file).bind b.file).typeAt? (some 16) = some TypeId.string ∧
      (danglingTable.bind b.file).bind b.file ≠ danglingTable.bind b.file := by
  obtain ⟨b, hb⟩ := exists_build "a.ts" (p := danglingProgram) (by decide +kernel)
  obtain ⟨honce, htwice⟩ := of_build hb (fun b =>
    (danglingTable.bind b.file).typeAt? (some 16) = none ∧
      ((danglingTable.bind b.file).bind b.file).typeAt? (some 16) = some TypeId.string)
    (by decide +kernel)
  refine ⟨b, by decide, hb, ?_, rfl, rfl, rfl, by decide +kernel, honce, htwice, fun heq => ?_⟩
  · exact (initial.extends_intern _).trans (extends_intern _ _)
  · rw [heq, honce] at htwice
    cases htwice

end TypeLint.Binding.TypeTable
