import Mathlib
import TypeLint.Syntax.SourceFile

namespace TypeLint.Syntax

open Text

namespace Tree

/-- A tree to which nodes have been added one by one, with any children. -/
inductive Raw : Tree → Prop
  | empty : Raw .empty
  | add {t : Tree} (h : Raw t) (kind : Kind) (flags pos start stop : Nat)
      (children : List NodeRef) (payload : Payload) :
      Raw (t.add kind flags pos start stop children payload).2

variable {t : Tree}

theorem nodes_adopt (t : Tree) (parent child : NodeRef) (i : Nat) :
    (t.adopt parent child).nodes[i]? =
      (t.nodes[i]?).map fun n => if child = some i then { n with parent := parent } else n := by
  cases child with
  | none => simp [adopt]
  | some j =>
    rw [adopt, Array.getElem?_modify]
    by_cases heq : j = i <;> simp [heq]

/-- Nodes that are adopted get a new parent, and the other nodes stay as they are. -/
theorem nodes_foldl_adopt (t : Tree) (parent : NodeRef) (children : List NodeRef) (i : Nat) :
    (children.foldl (fun t child => t.adopt parent child) t).nodes[i]? =
      (t.nodes[i]?).map fun n => if some i ∈ children then { n with parent := parent } else n := by
  induction children generalizing t with
  | nil => simp
  | cons child rest ih =>
    rw [List.foldl_cons, ih, nodes_adopt, Option.map_map]
    refine congrArg (Option.map · _) (funext fun n => ?_)
    by_cases hchild : child = some i <;> by_cases hrest : some i ∈ rest <;>
      simp [hchild, hrest, eq_comm]

theorem size_foldl_adopt (t : Tree) (parent : NodeRef) (children : List NodeRef) :
    (children.foldl (fun t child => t.adopt parent child) t).size = t.size := by
  induction children generalizing t with
  | nil => rfl
  | cons child rest ih =>
    rw [List.foldl_cons, ih]
    cases child with
    | none => rfl
    | some j => exact Array.size_modify ..

theorem size_add (t : Tree) (kind : Kind) (flags pos start stop : Nat) (children : List NodeRef)
    (payload : Payload) :
    (t.add kind flags pos start stop children payload).2.size = t.size + 1 := by
  have hadopted := t.size_foldl_adopt (some t.size) children
  rw [add, size, Array.size_push]
  exact congrArg (· + 1) hadopted

/-- Only a node that is there already gets the new node as its parent, and the new node has none. -/
theorem parent_add (t : Tree) (kind : Kind) (flags pos start stop : Nat) (children : List NodeRef)
    (payload : Payload) (i : Nat) :
    (t.add kind flags pos start stop children payload).2.parent (some i) =
      if i < t.size ∧ some i ∈ children then some t.size else t.parent (some i) := by
  have hadopted := t.size_foldl_adopt (some t.size) children
  have hnodes := t.nodes_foldl_adopt (some t.size) children i
  rw [size] at hadopted
  simp only [parent, get?, Option.bind_some, add, Array.getElem?_push, hadopted, hnodes]
  by_cases hi : i < t.size
  · rw [if_neg (Nat.ne_of_lt hi), Array.getElem?_eq_getElem hi]
    by_cases hmem : some i ∈ children <;> simp [hi, hmem]
  · have hnone : t.nodes[i]? = none := Array.getElem?_eq_none (Nat.le_of_not_lt hi)
    simp only [hnone, hi, false_and, if_false, Option.map_none, Option.bind_none]
    split_ifs <;> rfl

/-- The parent of a node comes behind it. -/
theorem Raw.parent_gt (h : t.Raw) {i j : Nat} (hparent : t.parent (some i) = some j) :
    i < j ∧ j < t.size := by
  induction h with
  | empty => cases hparent
  | @add t _ kind flags pos start stop children payload ih =>
    rw [parent_add] at hparent
    rw [size_add]
    split_ifs at hparent with hadopted
    · cases hparent
      exact ⟨hadopted.1, Nat.lt_succ_self _⟩
    · obtain ⟨hlt, hsize⟩ := ih hparent
      exact ⟨hlt, Nat.lt_succ_of_lt hsize⟩

/-- The parent of a node comes behind it, and its children come in front of it. -/
structure ChildrenFirst (t : Tree) : Prop where
  parent_gt : ∀ i j, t.parent (some i) = some j → i < j ∧ j < t.size
  child_lt : ∀ i, ∀ c ∈ t.children (some i), ∃ j, c = some j ∧ j < i ∧ j < t.size

theorem exists_of_get? {r : NodeRef} {n : Node} (h : t.get? r = some n) :
    ∃ i, r = some i ∧ i < t.size := by
  obtain ⟨i, rfl, hi⟩ := Option.bind_eq_some_iff.mp h
  exact ⟨i, rfl, (Array.getElem?_eq_some_iff.mp hi).1⟩

theorem exists_of_parent {r : NodeRef} {j : Nat} (h : t.parent r = some j) :
    ∃ i, r = some i ∧ i < t.size := by
  obtain ⟨n, hn, -⟩ := Option.bind_eq_some_iff.mp h
  exact exists_of_get? hn

theorem exists_of_mem_children {r c : NodeRef} (h : c ∈ t.children r) : ∃ i, r = some i := by
  cases r with
  | none => cases h
  | some i => exact ⟨i, rfl⟩

end Tree

namespace SourceFile

variable {t : Tree} {length : Nat} {r : NodeRef} {n : Node}

/-- Nothing is wrong with a node exactly if its span lies in the text in order and its children
    point back to it. -/
theorem nodeError?_eq_none_iff (hn : t.get? r = some n) :
    nodeError? t length r = none ↔
      (n.pos ≤ n.start ∧ n.start ≤ n.stop ∧ n.stop ≤ length) ∧ ∀ c ∈ n.children, t.parent c = r := by
  rw [nodeError?, hn, Option.bind_eq_bind, Option.bind_some]
  split_ifs with hspan
  · simp only [Bool.or_eq_true, decide_eq_true_eq] at hspan
    refine ⟨nofun, fun h => ?_⟩
    omega
  · simp only [Bool.or_eq_true, decide_eq_true_eq, not_or, Nat.not_lt] at hspan
    simp [hspan, List.find?_eq_none]

/-- An accepted tree has nothing wrong with any of its nodes. -/
theorem accepted_of_ofTree {fileName text : String} {root : NodeRef} {f : SourceFile}
    (h : ofTree fileName text t root = .ok f) (hn : t.get? r = some n) :
    (n.pos ≤ n.start ∧ n.start ≤ n.stop ∧ n.stop ≤ byteLength text) ∧
      ∀ c ∈ n.children, t.parent c = r := by
  rw [ofTree] at h
  split_ifs at h
  split at h
  · cases h
  · next hnone =>
    obtain ⟨i, rfl, hi⟩ := Tree.exists_of_get? hn
    refine (nodeError?_eq_none_iff hn).mp (List.findSome?_eq_none_iff.mp hnone _ ?_)
    exact List.mem_map_of_mem (List.mem_range.mpr hi)

theorem parent_of_mem_children {fileName text : String} {root : NodeRef} {f : SourceFile}
    (h : ofTree fileName text t root = .ok f) {c : NodeRef} (hc : c ∈ t.children r) :
    t.parent c = r := by
  cases hn : t.get? r with
  | none => simp [Tree.children, hn] at hc
  | some n =>
    rw [Tree.children, hn] at hc
    exact (accepted_of_ofTree h hn).2 c hc

end SourceFile

/-- In a tree that has been accepted the children come in front of their parents: a child that
    points back has been adopted, and only nodes that were there are adopted. -/
theorem Tree.Raw.childrenFirst {t : Tree} (h : t.Raw) {fileName text : String} {root : NodeRef}
    {f : SourceFile} (hf : SourceFile.ofTree fileName text t root = .ok f) : t.ChildrenFirst where
  parent_gt _ _ := h.parent_gt
  child_lt i c hc := by
    have hparent := SourceFile.parent_of_mem_children hf hc
    obtain ⟨j, rfl, hj⟩ := exists_of_parent hparent
    exact ⟨j, rfl, (h.parent_gt hparent).1, hj⟩

end TypeLint.Syntax
