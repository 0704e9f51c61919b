import TypeLint.Proofs.Program.FormFacts
import TypeLint.Proofs.Program.Standing

namespace TypeLint.Syntax

/-- The payload is one of tokens. -/
def Payload.isPlain : Payload → Bool
  | empty | identifier _ | literal _ => true
  | _ => false

namespace Spot

theorem children_eq_nil_of_leaf {s : Spot} (h : s.green.isLeaf = true) : s.children = [] := by
  cases hs : s.green with
  | token lead kind text payload labels => simp [children, hs]
  | node kind flags payload gs labels =>
    rw [hs] at h
    cases h

end Spot

end TypeLint.Syntax

namespace TypeLint.Program

open Syntax Writer Green

variable {p : TypeLint.Program} {f : SourceFile} {marks : Kind → Bool} {g : Green} {x c : Spot}

/-- A condition that holds of all expressions holds of those of a program. -/
theorem everyIn_of_forall {q : Expr → Bool} (h : ∀ e, q e = true) (p : TypeLint.Program) :
    Item.everyIn q p = true := by
  have htrue : (whole p).Every fun _ => True :=
    every_of_forall_mem_all (wholeSpot p) fun _ _ => trivial
  exact Item.everyIn_of_writeList (fun _ _ h => h) (fun e _ _ => h e) p _
    (everyIn_append_iff.mp htrue.2).1

/-- Every tree of a program has one of the forms. -/
theorem whole_shaped (p : TypeLint.Program) : Shaped .all (whole p) :=
  closed_shaped (everyIn_of_forall (fun e => by cases e <;> rfl) p) rfl _

theorem hasShape_of_mem_all (hx : x ∈ (wholeSpot p).all) : HasShape Marks.all.takes x.green :=
  ((whole_shaped p).shapes.of_mem_all (s := wholeSpot p) hx).self

theorem TokenForm.isPlain {kind : Kind} {text : String} {payload : Payload}
    (h : TokenForm marks kind text payload) : payload.isPlain = true := by
  cases h <;> rfl

/-- What is no token is a node of one of the forms. -/
theorem HasShape.exists_form (h : HasShape marks g) (hleaf : g.isLeaf = false) :
    ∃ flags payload children labels, g = .node g.kind flags payload children labels ∧
      Form g.kind flags payload children := by
  cases g with
  | token lead kind text payload labels => cases hleaf
  | node kind flags payload children labels => exact ⟨flags, payload, children, labels, rfl, h.1⟩

/-- A node has no kind of tokens. -/
theorem HasShape.isToken_eq_false (h : HasShape marks g) (hleaf : g.isLeaf = false) :
    g.kind.isToken = false := by
  obtain ⟨flags, payload, children, labels, -, hform⟩ := h.exists_form hleaf
  exact hform.kind_and_fits.1

/-- A token is its only token, and the tokens of anything else are those of its children. -/
theorem HasShape.tokens_eq (h : HasShape marks x.green) :
    x.tokens = if x.green.kind.isToken then [x] else x.children.flatMap Spot.tokens := by
  rw [Spot.tokens, Spot.walk_eq, List.filter_cons, List.filter_flatMap]
  split_ifs with hkind
  · have hleaf : x.green.isLeaf = true := by
      by_contra hnode
      rw [h.isToken_eq_false (Bool.not_eq_true _ ▸ hnode)] at hkind
      cases hkind
    rw [Spot.children_eq_nil_of_leaf hleaf, List.flatMap_nil]
  · rfl

theorem HasShape.isLeaf_eq_false (h : HasShape marks g) {refs : List NodeRef}
    (hplain : (g.payloadOver refs).isPlain = false) : g.isLeaf = false := by
  cases g with
  | token lead kind text payload labels =>
    rw [payloadOver, TokenForm.isPlain h] at hplain
    cases hplain
  | node kind flags payload children labels => rfl

theorem of_payload? {n : Node} {payload : Payload} (h : n.payload? = some payload) :
    n.payload = payload ∧ payload.fits n.kind = true := by
  rw [Node.payload?] at h
  split at h
  · next hfits =>
    obtain rfl := Option.some.inj h
    exact ⟨rfl, hfits⟩
  · cases h

theorem payload?_of_switch? {n : Node} {s : Switch} (h : n.switch? = some s) :
    n.payload? = some (.switch s) := by
  rw [Node.switch?] at h
  split at h
  · next hpayload => rw [hpayload, Option.some.inj h]
  · cases h

/-- A node with links has one of the forms, and its links are resolved. -/
theorem Shown.exists_form (hf : Shown p f) {r : NodeRef} {n : Node} {payload : Payload}
    (hn : f.tree.get? r = some n) (hpayload : n.payload? = some payload)
    (hplain : payload.isPlain = false) :
    ∃ x ∈ (wholeSpot p).all, r = x.ref ∧ n = x.node ∧ ∃ flags links children labels,
      x.green = .node n.kind flags links children labels ∧ Form n.kind flags links children ∧
      payload = links.mapLinks (Emission.resolveLink (x.children.map Spot.ref)) := by
  obtain ⟨x, hx, rfl, rfl⟩ := hf.shows.exists_of_get? hn
  have hshape := hasShape_of_mem_all hx
  have hover : x.green.payloadOver (x.children.map Spot.ref) = payload :=
    (of_payload? hpayload).1
  have hleaf : x.green.isLeaf = false := hshape.isLeaf_eq_false (by rw [hover]; exact hplain)
  obtain ⟨flags, links, children, labels, hgreen, hform⟩ := hshape.exists_form hleaf
  refine ⟨x, hx, rfl, rfl, flags, links, children, labels, hgreen, hform, ?_⟩
  rw [← hover, hgreen]
  rfl

/-- A node of one of the forms has children. -/
theorem Spot.children_ne_nil_of_form {flags : Nat} {kind : Kind} {links : Payload}
    {children : List Green} {labels : List String}
    (hgreen : x.green = .node kind flags links children labels)
    (hform : Form kind flags links children) : x.children ≠ [] := by
  rw [Spot.children_of_node hgreen, ← List.length_pos_iff, Spot.length_row, List.length_pos_iff]
  exact hform.children_ne_nil

/-- The spot above another one has one of the forms. -/
theorem exists_form_of_mem_children (hx : x ∈ (wholeSpot p).all) (hc : c ∈ x.children) :
    ∃ flags links children labels, x.green = .node x.green.kind flags links children labels ∧
      Form x.green.kind flags links children := by
  refine (hasShape_of_mem_all hx).exists_form ?_
  cases hgreen : x.green with
  | token lead kind text payload labels =>
    rw [Spot.children, hgreen] at hc
    cases hc
  | node kind flags payload children labels => rfl

/-- The walk through a file visits every node once. -/
theorem Shown.nodup_preorder (hf : Shown p f) : (f.tree.preorder f.root).Nodup :=
  hf.shows.nodup_preorder f.root

/-- The walk through a file visits every node. -/
theorem Shown.mem_preorder (hf : Shown p f) (hx : x ∈ (wholeSpot p).all) :
    x.ref ∈ f.tree.preorder f.root := by
  rw [hf.root, hf.shows.preorder_eq (wholeSpot p).self_mem_all]
  exact List.mem_map_of_mem ((wholeSpot p).walk_perm_all.mem_iff.mpr hx)

end TypeLint.Program
