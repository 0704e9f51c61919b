import TypeLint.Syntax.Query
import TypeLint.Proofs.Syntax.Acyclic

namespace TypeLint

/-- A relation leads on from finitely many points only, and nowhere back to where it came from. Then
    every step is one down in the number of points that are still ahead. -/
theorem exists_rank {α : Type} {R : α → α → Prop} (points : Finset α)
    (hpoints : ∀ a b, R a b → a ∈ points) (hcircle : ∀ a, ¬ Relation.TransGen R a a) :
    ∃ rank : α → Nat, (∀ a, rank a ≤ points.card) ∧ ∀ a b, R a b → rank b < rank a := by
  classical
  let ahead (a : α) : Finset α := points.filter (Relation.ReflTransGen R a)
  refine ⟨fun a => (ahead a).card, fun a => Finset.card_filter_le .., fun a b hab => ?_⟩
  have hsub : ahead b ⊆ ahead a := Finset.monotone_filter_right _ fun c _ hc => hc.head hab
  refine Finset.card_lt_card ((Finset.ssubset_iff_of_subset hsub).mpr ⟨a, ?_, fun hmem => ?_⟩)
  · exact Finset.mem_filter.mpr ⟨hpoints a b hab, .refl⟩
  · exact hcircle a (.head' hab (Finset.mem_filter.mp hmem).2)

end TypeLint

namespace TypeLint.Syntax

/-- A loop that goes on from a state or ends with a result: from a state it ends with a result. -/
inductive Ends {σ ρ : Type} (step : σ → σ ⊕ ρ) : σ → ρ → Prop
  | stop {s : σ} {r : ρ} (h : step s = .inr r) : Ends step s r
  | next {s s' : σ} {r : ρ} (h : step s = .inl s') (rest : Ends step s' r) : Ends step s r

/-- A loop ends with one result only. -/
theorem Ends.unique {σ ρ : Type} {step : σ → σ ⊕ ρ} {s : σ} {r r' : ρ} (h : Ends step s r)
    (h' : Ends step s r') : r = r' := by
  induction h with
  | stop hstop =>
    cases h' with
    | stop hstop' => exact Sum.inr.inj (hstop.symm.trans hstop')
    | next hnext' => cases hstop.symm.trans hnext'
  | next hnext rest ih =>
    cases h' with
    | stop hstop' => cases hnext.symm.trans hstop'
    | next hnext' rest' =>
      obtain rfl := Sum.inl.inj (hnext.symm.trans hnext')
      exact ih rest'

/-- A loop ends in a state that it goes on to. -/
theorem ends_iff {σ ρ : Type} {step : σ → σ ⊕ ρ} {s : σ} {r : ρ} :
    Ends step s r ↔
      ∃ s', Relation.ReflTransGen (fun a b => step a = .inl b) s s' ∧ step s' = .inr r := by
  constructor
  · intro h
    induction h with
    | stop hstop => exact ⟨_, .refl, hstop⟩
    | next hnext rest ih =>
      obtain ⟨s', hsteps, hstop⟩ := ih
      exact ⟨s', .head hnext hsteps, hstop⟩
  · rintro ⟨s', hsteps, hstop⟩
    induction hsteps using Relation.ReflTransGen.head_induction_on with
    | refl => exact .stop hstop
    | head hnext _ ih => exact .next hnext ih

/-- A loop that ends with the state it stops in ends with one that the relation of its steps leads
    to. -/
theorem ends_iff_of_stays {σ : Type} {step : σ → σ ⊕ σ} {rel : σ → σ → Prop}
    (hnext : ∀ {s s'}, step s = .inl s' ↔ rel s s') (hstop : ∀ {s r}, step s = .inr r → s = r)
    {s r : σ} : Ends step s r ↔ Relation.ReflTransGen rel s r ∧ step r = .inr r := by
  have hrel : (fun a b => step a = .inl b) = rel := by
    funext a b
    exact propext hnext
  rw [ends_iff, hrel]
  constructor
  · rintro ⟨s', hsteps, hlast⟩
    obtain rfl := hstop hlast
    exact ⟨hsteps, hlast⟩
  · rintro ⟨hsteps, hlast⟩
    exact ⟨r, hsteps, hlast⟩

namespace Tree

/-- Takes a node from the stack, notes it if it is wanted, and puts its children on the stack. -/
def walkStep (t : Tree) (wanted : NodeRef → Bool) :
    List NodeRef × List NodeRef → (List NodeRef × List NodeRef) ⊕ List NodeRef
  | ([], visited) => .inr visited
  | (r :: stack, visited) =>
    .inl (t.children r ++ stack, visited ++ if wanted r then [r] else [])

/-- The stack that a walk over a subtree begins with. -/
def walkStart (t : Tree) (r : NodeRef) : List NodeRef := if (t.get? r).isSome then [r] else []

/-- Takes a node from the stack, ends with it if it is a token, and puts its children on the stack
    in the order in which they are searched. -/
def searchStep (t : Tree) (order : List NodeRef → List NodeRef) :
    List NodeRef → List NodeRef ⊕ Option NodeRef
  | [] => .inr none
  | r :: stack =>
    match t.get? r with
    | none => .inl stack
    | some n => if n.kind.isToken then .inr (some r) else .inl (order n.children ++ stack)

/-- Goes on to the first child that holds the offset. -/
def inwardStep (t : Tree) (offset : Nat) (r : NodeRef) : NodeRef ⊕ NodeRef :=
  match (t.children r).find? (t.holdsOffset offset) with
  | some child => .inl child
  | none => .inr r

/-- Goes on to the parent if it is a parenthesised expression. -/
def outwardStep (t : Tree) (r : NodeRef) : NodeRef ⊕ NodeRef :=
  if t.isParenthesized r then .inl (t.parent r) else .inr r

/-- Goes on to the parent, which is noted. -/
def ancestorStep (t : Tree) :
    NodeRef × List NodeRef → (NodeRef × List NodeRef) ⊕ List NodeRef
  | (r, visited) =>
    match t.parent r with
    | some i => .inl (some i, visited ++ [some i])
    | none => .inr visited

/-- Ends at a source file node, and goes on to the parent of another one. -/
def fileStep (t : Tree) (r : NodeRef) : NodeRef ⊕ Option NodeRef :=
  if t.kind? r = some .sourceFile then .inr (some r)
  else
    match t.parent r with
    | some i => .inl (some i)
    | none => .inr none

/-- Every walk from a node ends, with what the walk gives that is cut off at a depth. -/
structure WalksEnd (t : Tree) (r : NodeRef) : Prop where
  preorder : Ends (t.walkStep fun _ => true) (t.walkStart r, []) (t.preorder r)
  tokens : Ends (t.walkStep t.isToken) (t.walkStart r, []) (t.tokens r)
  firstToken : Ends (t.searchStep id) [r] (t.firstToken? r)
  lastToken : Ends (t.searchStep List.reverse) [r] (t.lastToken? r)
  walkUpParentheses : Ends t.outwardStep r (t.walkUpParentheses r)
  enclosingSourceFile : Ends t.fileStep r (t.enclosingSourceFile? r)
  nodeAt : ∀ offset, Ends (t.inwardStep offset) r (t.nodeAt r offset)

variable {t : Tree} {r : NodeRef}

/-- Following links between nodes, each step goes down in a number that is at most the number of
    nodes. -/
theorem exists_rank (leads : NodeRef → NodeRef → Prop)
    (hnode : ∀ r s, leads r s → ∃ n, t.get? r = some n)
    (hcircle : ∀ r, ¬ Relation.TransGen leads r r) :
    ∃ rank : NodeRef → Nat, (∀ r, rank r ≤ t.size) ∧ ∀ r s, leads r s → rank s < rank r := by
  have hcard : t.refs.toFinset.card ≤ t.size := by
    refine (List.toFinset_card_le _).trans ?_
    rw [refs, List.length_map, List.length_range]
  obtain ⟨rank, hle, hlt⟩ := TypeLint.exists_rank t.refs.toFinset (fun r s hrs => by
    obtain ⟨n, hn⟩ := hnode r s hrs
    obtain ⟨i, rfl, hi⟩ := Option.bind_eq_some_iff.mp hn
    have hsize : i < t.size := (Array.getElem?_eq_some_iff.mp hi).1
    exact List.mem_toFinset.mpr (List.mem_map_of_mem (List.mem_range.mpr hsize))) hcircle
  exact ⟨rank, fun r => (hle r).trans hcard, hlt⟩

section

/- Parents come behind their nodes, so that the nodes that are left become fewer. -/
variable (h : ∀ i j, t.parent (some i) = some j → i < j ∧ j < t.size)

include h

theorem ends_ancestorStep {steps : Nat} (hsteps : ∀ i, t.parent r = some i → t.size ≤ i + steps)
    (visited : List NodeRef) :
    Ends t.ancestorStep (r, visited) (visited ++ t.ancestorsTo steps (t.parent r)) := by
  induction steps generalizing r visited with
  | zero =>
    cases hparent : t.parent r with
    | none =>
      rw [ancestorsTo, List.append_nil]
      exact .stop (by rw [ancestorStep, hparent])
    | some i =>
      obtain ⟨k, rfl, -⟩ := exists_of_parent hparent
      have hlt := (h k i hparent).2
      have hle := hsteps i hparent
      omega
  | succ steps ih =>
    cases hparent : t.parent r with
    | none =>
      rw [ancestorsTo, List.append_nil]
      · exact .stop (by rw [ancestorStep, hparent])
      · exact Nat.succ_ne_zero _
    | some i =>
      have hrest := ih (r := some i) (fun j hj => by
        have hle := hsteps i hparent
        have hlt := (h i j hj).1
        omega) (visited ++ [some i])
      rw [List.append_assoc, List.singleton_append] at hrest
      exact .next (by rw [ancestorStep, hparent]) hrest

/-- The walk to the ancestors ends with the ancestors. -/
theorem ends_ancestors (r : NodeRef) : Ends t.ancestorStep (r, []) (t.ancestors r) :=
  ends_ancestorStep h (fun _ _ => Nat.le_add_left ..) []

theorem ends_fileStep {steps : Nat} (hsteps : ∀ i, t.parent r = some i → t.size ≤ i + steps)
    (hkind : t.kind? r ≠ some .sourceFile) :
    Ends t.fileStep r
      ((t.ancestorsTo steps (t.parent r)).find? fun a => t.kind? a == some .sourceFile) := by
  induction steps generalizing r with
  | zero =>
    cases hparent : t.parent r with
    | none => exact .stop (by rw [fileStep, if_neg hkind, hparent, ancestorsTo, List.find?_nil])
    | some i =>
      obtain ⟨k, rfl, -⟩ := exists_of_parent hparent
      have hlt := (h k i hparent).2
      have hle := hsteps i hparent
      omega
  | succ steps ih =>
    cases hparent : t.parent r with
    | none => exact .stop (by rw [fileStep, if_neg hkind, hparent]; rfl)
    | some i =>
      refine .next (by rw [fileStep, if_neg hkind, hparent]) ?_
      rw [ancestorsTo, List.find?_cons]
      by_cases hfile : t.kind? (some i) = some .sourceFile
      · exact .stop (by rw [fileStep, if_pos hfile, hfile]; rfl)
      · rw [beq_false_of_ne hfile]
        exact ih (fun j hj => by
          have hle := hsteps i hparent
          have hlt := (h i j hj).1
          omega) hfile

theorem ends_enclosingSourceFile (r : NodeRef) : Ends t.fileStep r (t.enclosingSourceFile? r) := by
  rw [enclosingSourceFile?]
  split_ifs with hfile
  · exact .stop (by rw [fileStep, if_pos hfile])
  · exact ends_fileStep h (fun _ _ => Nat.le_add_left ..) hfile

theorem ends_outwardStep {steps : Nat} (hsteps : ∀ i, r = some i → t.size ≤ i + steps) :
    Ends t.outwardStep r (t.walkUpParenthesesTo steps r) := by
  induction steps generalizing r with
  | zero =>
    refine .stop (if_neg fun hinside => ?_)
    obtain ⟨n, hn, -⟩ := Option.map_eq_some_iff.mp (eq_of_beq hinside)
    obtain ⟨j, hj, -⟩ := exists_of_get? hn
    obtain ⟨i, rfl, hi⟩ := exists_of_parent hj
    have hle := hsteps i rfl
    omega
  | succ steps ih =>
    rw [walkUpParenthesesTo]
    split_ifs with hinside
    · refine .next (if_pos hinside) (ih fun j hj => ?_)
      obtain ⟨i, rfl, -⟩ := exists_of_parent hj
      have hle := hsteps i rfl
      have hlt := (h i j hj).1
      omega
    · exact .stop (if_neg hinside)

theorem ends_walkUpParentheses (r : NodeRef) : Ends t.outwardStep r (t.walkUpParentheses r) :=
  ends_outwardStep h fun _ _ => Nat.le_add_left ..

end

/-- Children come in front of their parents, so that the number of a node bounds how far it is
    down to its last descendant. -/
theorem ChildrenFirst.lt_of_mem_children (h : t.ChildrenFirst) {c : NodeRef}
    (hc : c ∈ t.children r) {depth : Nat} (hr : ∀ i, r = some i → i ≤ depth) {j : Nat}
    (hj : c = some j) : j < depth := by
  obtain ⟨i, rfl⟩ := exists_of_mem_children hc
  obtain ⟨k, rfl, hlt, -⟩ := h.child_lt i c hc
  have hle := hr i rfl
  cases hj
  omega

/-- A walk over a subtree notes the nodes in it that are wanted and goes on with the stack. -/
theorem ChildrenFirst.ends_walkStep (h : t.ChildrenFirst) (wanted : NodeRef → Bool) {depth : Nat}
    (hr : ∀ i, r = some i → i ≤ depth) {stack visited result : List NodeRef}
    (hrest : Ends (t.walkStep wanted) (stack, visited ++ (t.preorderTo depth r).filter wanted)
      result) :
    Ends (t.walkStep wanted) (r :: stack, visited) result := by
  induction depth generalizing r stack visited with
  | zero =>
    have hchildren : t.children r = [] := List.eq_nil_iff_forall_not_mem.mpr fun c hc => by
      obtain ⟨i, rfl⟩ := exists_of_mem_children hc
      obtain ⟨j, hj, -⟩ := h.child_lt i c hc
      exact Nat.not_lt_zero j (h.lt_of_mem_children hc hr hj)
    refine .next rfl ?_
    rw [preorderTo, List.filter_singleton] at hrest
    rw [hchildren, List.nil_append]
    cases hwanted : wanted r <;> simpa [hwanted] using hrest
  | succ depth ih =>
    -- the children one after the other, each with what is behind it on the stack
    have hchildren (cs : List NodeRef) (hcs : ∀ c ∈ cs, ∀ j, c = some j → j ≤ depth)
        {visited : List NodeRef}
        (hrest : Ends (t.walkStep wanted)
          (stack, visited ++ (cs.flatMap (t.preorderTo depth)).filter wanted) result) :
        Ends (t.walkStep wanted) (cs ++ stack, visited) result := by
      induction cs generalizing visited with
      | nil => simpa using hrest
      | cons c rest ihcs =>
        rw [List.forall_mem_cons] at hcs
        refine ih hcs.1 (ihcs hcs.2 ?_)
        rwa [List.append_assoc, ← List.filter_append, ← List.flatMap_cons]
    refine .next rfl (hchildren _ (fun c hc j hj => ?_) ?_)
    · exact Nat.le_of_lt_succ (h.lt_of_mem_children hc hr hj)
    · rw [preorderTo, List.filter_cons] at hrest
      cases hwanted : wanted r <;> simpa [hwanted] using hrest

theorem ChildrenFirst.ends_walk (h : t.ChildrenFirst) (wanted : NodeRef → Bool) (r : NodeRef) :
    Ends (t.walkStep wanted) (t.walkStart r, []) ((t.preorder r).filter wanted) := by
  rw [walkStart, preorder]
  split_ifs with hr
  · obtain ⟨n, hn⟩ := Option.isSome_iff_exists.mp hr
    obtain ⟨i, rfl, hi⟩ := exists_of_get? hn
    exact h.ends_walkStep wanted (fun j hj => Option.some.inj hj ▸ hi.le) (.stop rfl)
  · exact .stop rfl

/-- The first token of a subtree, where children are searched in the given order, down to a number
    of levels. -/
def tokenTo (t : Tree) (order : List NodeRef → List NodeRef) : Nat → NodeRef → Option NodeRef
  | 0, _ => none
  | depth + 1, r =>
    match t.get? r with
    | none => none
    | some n =>
      if n.kind.isToken then some r else (order n.children).findSome? (tokenTo t order depth)

theorem firstTokenTo_eq (t : Tree) (depth : Nat) : t.firstTokenTo depth = t.tokenTo id depth := by
  induction depth with
  | zero => rfl
  | succ depth ih =>
    funext r
    cases hn : t.get? r with
    | none => simp [firstTokenTo, tokenTo, hn]
    | some n => simp [firstTokenTo, tokenTo, hn, ih]

theorem lastTokenTo_eq (t : Tree) (depth : Nat) :
    t.lastTokenTo depth = t.tokenTo List.reverse depth := by
  induction depth with
  | zero => rfl
  | succ depth ih =>
    funext r
    cases hn : t.get? r with
    | none => simp [lastTokenTo, tokenTo, hn]
    | some n => simp [lastTokenTo, tokenTo, hn, ih]

/-- A search ends with the first token of a subtree, and goes on with the stack if there is
    none. -/
theorem ChildrenFirst.ends_searchStep (h : t.ChildrenFirst) {order : List NodeRef → List NodeRef}
    (horder : ∀ rs, order rs ⊆ rs) {depth : Nat}
    (hr : ∀ i n, r = some i → t.get? r = some n → i < depth) {stack : List NodeRef}
    {result : Option NodeRef} (hrest : Ends (t.searchStep order) stack result) :
    Ends (t.searchStep order) (r :: stack) ((t.tokenTo order depth r).or result) := by
  induction depth generalizing r stack result with
  | zero =>
    cases hn : t.get? r with
    | none => exact .next (by rw [searchStep, hn]) hrest
    | some n =>
      obtain ⟨i, rfl, -⟩ := exists_of_get? hn
      exact (Nat.not_lt_zero i (hr i n rfl hn)).elim
  | succ depth ih =>
    rw [tokenTo]
    cases hn : t.get? r with
    | none => exact .next (by rw [searchStep, hn]) hrest
    | some n =>
      dsimp only
      split_ifs with htoken
      · exact .stop (by rw [searchStep, hn]; exact if_pos htoken)
      · have hchildren (cs : List NodeRef) (hcs : ∀ c ∈ cs, ∀ j, c = some j → j < depth) :
            Ends (t.searchStep order) (cs ++ stack)
              ((cs.findSome? (t.tokenTo order depth)).or result) := by
          induction cs with
          | nil => exact hrest
          | cons c rest ihcs =>
            rw [List.forall_mem_cons] at hcs
            have hfirst := ih (r := c) (fun j _ hj _ => hcs.1 j hj) (ihcs hcs.2)
            rw [← Option.or_assoc] at hfirst
            rw [List.findSome?_cons]
            cases hfound : t.tokenTo order depth c <;> simpa [hfound] using hfirst
        refine .next (by rw [searchStep, hn]; exact if_neg htoken) (hchildren _ ?_)
        intro c hc j hj
        have hmem : c ∈ t.children r := by
          rw [children, hn]
          exact horder _ hc
        exact h.lt_of_mem_children hmem (fun i hi => Nat.le_of_lt_succ (hr i n hi hn)) hj

theorem ChildrenFirst.ends_search (h : t.ChildrenFirst) {order : List NodeRef → List NodeRef}
    (horder : ∀ rs, order rs ⊆ rs) (r : NodeRef) :
    Ends (t.searchStep order) [r] (t.tokenTo order t.size r) := by
  have hr (i : Nat) (n : Node) (hi : r = some i) (hn : t.get? r = some n) : i < t.size := by
    obtain ⟨j, hj, hlt⟩ := exists_of_get? hn
    exact Option.some.inj (hi.symm.trans hj) ▸ hlt
  have hend := h.ends_searchStep horder hr (.stop rfl : Ends (t.searchStep order) [] none)
  rwa [Option.or_none] at hend

theorem ChildrenFirst.ends_inwardStep (h : t.ChildrenFirst) (offset : Nat) {depth : Nat}
    (hr : ∀ i, r = some i → t.children r ≠ [] → i ≤ depth) :
    Ends (t.inwardStep offset) r (t.nodeAtTo offset depth r) := by
  have hnext {c : NodeRef} (hc : (t.children r).find? (t.holdsOffset offset) = some c) {j : Nat}
      (hj : c = some j) : j < depth := by
    have hmem := List.mem_of_find?_eq_some hc
    exact h.lt_of_mem_children hmem (fun i hi => hr i hi (List.ne_nil_of_mem hmem)) hj
  induction depth generalizing r with
  | zero =>
    cases hc : (t.children r).find? (t.holdsOffset offset) with
    | none => exact .stop (by rw [inwardStep, hc]; rfl)
    | some c =>
      obtain ⟨i, rfl⟩ := exists_of_mem_children (List.mem_of_find?_eq_some hc)
      obtain ⟨j, hj, -⟩ := h.child_lt i c (List.mem_of_find?_eq_some hc)
      exact (Nat.not_lt_zero j (hnext hc hj)).elim
  | succ depth ih =>
    rw [nodeAtTo]
    cases hc : (t.children r).find? (t.holdsOffset offset) with
    | none => exact .stop (by rw [inwardStep, hc])
    | some c =>
      have hle (j : Nat) (hj : c = some j) : j ≤ depth := Nat.le_of_lt_succ (hnext hc hj)
      refine .next (by rw [inwardStep, hc]) (ih (fun j hj _ => hle j hj) fun hd k hk => ?_)
      exact h.lt_of_mem_children (List.mem_of_find?_eq_some hd) hle hk

theorem ChildrenFirst.ends_nodeAt (h : t.ChildrenFirst) (offset : Nat) (r : NodeRef) :
    Ends (t.inwardStep offset) r (t.nodeAt r offset) := by
  refine h.ends_inwardStep offset fun i hi hchildren => ?_
  obtain ⟨c, hc⟩ := List.exists_mem_of_ne_nil _ hchildren
  cases hn : t.get? r with
  | none => simp [children, hn] at hc
  | some n =>
    obtain ⟨j, hj, hlt⟩ := exists_of_get? hn
    exact Option.some.inj (hi.symm.trans hj) ▸ hlt.le

/-- Every walk ends if children come in front of their parents. -/
theorem ChildrenFirst.walksEnd (h : t.ChildrenFirst) (r : NodeRef) : t.WalksEnd r where
  preorder := by
    have hwalk := h.ends_walk (fun _ => true) r
    rwa [List.filter_true] at hwalk
  tokens := h.ends_walk t.isToken r
  firstToken := by
    rw [firstToken?, firstTokenTo_eq]
    exact h.ends_search (fun _ => List.Subset.refl _) r
  lastToken := by
    rw [lastToken?, lastTokenTo_eq]
    exact h.ends_search (fun rs => (List.reverse_subset).mpr (List.Subset.refl rs)) r
  walkUpParentheses := ends_walkUpParentheses h.parent_gt r
  enclosingSourceFile := ends_enclosingSourceFile h.parent_gt r
  nodeAt offset := h.ends_nodeAt offset r

/-- In a tree to which nodes have been added in any way a parent comes behind its node, and the
    walk to the ancestors ends. If a source file accepts the tree, spans lie in the text in order,
    children are there and come in front of their parents, no node is the child of two others, and
    all walks end. -/
theorem Raw.walks_end (h : t.Raw) :
    (∀ i j, t.parent (some i) = some j → i < j) ∧
    (∀ r, Ends t.ancestorStep (r, []) (t.ancestors r)) ∧
    ∀ fileName text root f, SourceFile.ofTree fileName text t root = .ok f →
      (∀ r n, t.get? r = some n →
        n.pos ≤ n.start ∧ n.start ≤ n.stop ∧ n.stop ≤ Text.byteLength text) ∧
      (∀ i, ∀ c ∈ t.children (some i), (t.get? c).isSome ∧ ∃ j, c = some j ∧ j < i) ∧
      (∀ r r' c, c ∈ t.children r → c ∈ t.children r' → r = r') ∧
      ∀ r, t.WalksEnd r := by
  have hparent (i j : Nat) := h.parent_gt (i := i) (j := j)
  refine ⟨fun i j hj => (hparent i j hj).1, ends_ancestors hparent, ?_⟩
  intro fileName text root f hf
  have hfirst := h.childrenFirst hf
  refine ⟨fun r n hn => (SourceFile.accepted_of_ofTree hf hn).1, fun i c hc => ?_, ?_,
    hfirst.walksEnd⟩
  · obtain ⟨j, rfl, hlt, hsize⟩ := hfirst.child_lt i c hc
    refine ⟨?_, j, rfl, hlt⟩
    rw [get?, Option.bind_some, Array.getElem?_eq_getElem hsize]
    rfl
  · intro r r' c hc hc'
    rw [← SourceFile.parent_of_mem_children hf hc, SourceFile.parent_of_mem_children hf hc']

/-- A file whose only statement is named twice as a child. -/
def repeatedTree : Tree :=
  let t := (empty.add .identifier 0 0 0 1 [] (.identifier "a")).2
  let t := (t.add .endOfFileToken 0 1 1 1 [] .empty).2
  (t.add .sourceFile 0 0 0 1 [some 0, some 0, some 1] .empty).2

theorem raw_repeatedTree : repeatedTree.Raw := .add (.add (.add .empty ..) ..) ..

theorem walks_end_repeated :
    repeatedTree.Raw ∧
    ∃ f, SourceFile.ofTree "a.ts" "a" repeatedTree (some 2) = .ok f ∧
      (∀ i, ∀ c ∈ repeatedTree.children (some i),
        (repeatedTree.get? c).isSome ∧ ∃ j, c = some j ∧ j < i) ∧
      repeatedTree.tokens (some 2) = [some 0, some 0, some 1] ∧ repeatedTree.WalksEnd (some 2) := by
  obtain ⟨f, hf⟩ : ∃ f, SourceFile.ofTree "a.ts" "a" repeatedTree (some 2) = .ok f := ⟨_, rfl⟩
  obtain ⟨-, hchildren, -, hends⟩ := raw_repeatedTree.walks_end.2.2 "a.ts" "a" (some 2) f hf
  exact ⟨raw_repeatedTree, f, hf, hchildren, by decide, hends (some 2)⟩

end Tree

end TypeLint.Syntax
