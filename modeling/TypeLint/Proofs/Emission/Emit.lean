import TypeLint.Proofs.Emission.Spots

namespace TypeLint.Syntax

open Text

namespace Tree

theorem adopt_some_toList (t : Tree) (parent : NodeRef) (i : Nat) :
    (t.adopt parent (some i)).nodes.toList =
      t.nodes.toList.modify i fun n => { n with parent := parent } := by
  simp [adopt]

theorem get?_some (t : Tree) (i : Nat) : t.get? (some i) = t.nodes.toList[i]? := by
  simp [get?]

end Tree

theorem modify_append_cons {α : Type} (before after : List α) (a : α) (f : α → α) :
    (before ++ a :: after).modify before.length f = before ++ f a :: after := by
  induction before with
  | nil => rfl
  | cons b before ih => simp [ih]

/-- Adopting the outermost nodes of trees in a row changes their parents and nothing else. -/
theorem adopt_row {t : Tree} {before : List Node} (after : List Node) {first offset : Nat}
    {gs : List Green} (parent : NodeRef) (hbefore : before.length = first)
    (ht : t.nodes.toList =
      before ++ (Green.spotsAll first offset none gs).map Spot.node ++ after) :
    (((Spot.row first offset none gs).map Spot.ref).foldl
        (fun t child => t.adopt parent child) t).nodes.toList =
      before ++ (Green.spotsAll first offset parent gs).map Spot.node ++ after := by
  induction gs generalizing t before first offset with
  | nil => exact ht
  | cons g gs ih =>
    let spot (parent : NodeRef) : Spot := ⟨first, offset, parent, g⟩
    let front := before ++ (spot none).below.map Spot.node
    let behind (parent : NodeRef) :=
      (Green.spotsAll (first + g.size) (offset + byteLength g.text) parent gs).map Spot.node
    have hfront : front.length = (spot none).number := by
      simp [front, Spot.length_below, Spot.number, hbefore, spot]
    have hnode : (spot parent).node = { (spot none).node with parent := parent } := by
      cases g <;> rfl
    have hstep : (t.adopt parent (spot none).ref).nodes.toList =
        (front ++ [(spot parent).node]) ++ behind none ++ after := by
      have hsplit : t.nodes.toList = front ++ (spot none).node :: (behind none ++ after) := by
        simpa [Green.spotsAll, front, behind, spot, Spot.below] using ht
      rw [Spot.ref, Tree.adopt_some_toList, hsplit, ← hfront, modify_append_cons, hnode]
      simp
    have hrest := ih (by simp [hfront, spot, Spot.number, Green.size]; omega) hstep
    simpa [Green.spotsAll, front, spot, Spot.below] using hrest

/-- The outermost nodes of trees in a row are found by the references to them. -/
theorem get?_row {t : Tree} {before : List Node} (after : List Node) {first offset : Nat}
    {parent : NodeRef} {gs : List Green} (hbefore : before.length = first)
    (ht : t.nodes.toList =
      before ++ (Green.spotsAll first offset parent gs).map Spot.node ++ after)
    {c : Spot} (hc : c ∈ Spot.row first offset parent gs) : t.get? c.ref = some c.node := by
  induction gs generalizing before first offset with
  | nil => simp at hc
  | cons g gs ih =>
    let top : Spot := ⟨first, offset, parent, g⟩
    let front := before ++ top.below.map Spot.node
    have hfront : front.length = top.number := by
      simp [front, Spot.length_below, Spot.number, hbefore, top]
    have hsplit : t.nodes.toList = (front ++ [top.node]) ++
        (Green.spotsAll (first + g.size) (offset + byteLength g.text) parent gs).map Spot.node ++
        after := by
      simpa [Green.spotsAll, front, top, Spot.below] using ht
    rw [Spot.row_cons, List.mem_cons] at hc
    rcases hc with rfl | hc
    · rw [Spot.ref, Tree.get?_some, hsplit, ← hfront]
      simp [top]
    · exact ih (by simp [hfront, top, Spot.number, Green.size]; omega) hsplit hc

/-- Closing a node over trees that have been emitted adds the node of their spot. -/
theorem Emission.close_eq {e : Emission} {before : List Node} {first offset : Nat}
    {gs : List Green} (kind : Kind) (flags : Nat) (payload : Payload) (labels : List String)
    (hbefore : before.length = first)
    (hnodes : e.tree.nodes.toList =
      before ++ (Green.spotsAll first offset none gs).map Spot.node)
    (htext : byteLength e.text = offset + byteLength (Green.textAll gs)) :
    let s : Spot := ⟨first, offset, none, .node kind flags payload gs labels⟩
    let closed := e.close kind flags payload ((Spot.row first offset none gs).map Spot.ref) labels
    closed.1 = s.ref ∧ closed.2.text = e.text ∧
      closed.2.tree.nodes.toList = before ++ s.all.map Spot.node := by
  intro s closed
  let row (parent : NodeRef) := Spot.row first offset parent gs
  have hsize : some e.tree.size = s.ref := by
    have h := congrArg List.length hnodes
    simp only [Array.length_toList, List.length_append, List.length_map, Spot.length_spotsAll,
      hbefore] at h
    exact congrArg some h
  have hrefs : s.children.map Spot.ref = (row none).map Spot.ref :=
    Spot.map_ref_row first offset s.ref none gs
  have hget : ∀ c ∈ row none, e.tree.get? c.ref = some c.node := fun c hc =>
    get?_row [] hbefore (by simpa using hnodes) hc
  have hfirst : ((row none).map Spot.ref).head?.bind e.tree.get? =
      (row none).head?.map Spot.node := by
    cases hr : (row none).head? with
    | none => simp [List.head?_map, hr]
    | some c => simp [List.head?_map, hr, hget c (List.mem_of_mem_head? hr)]
  have hlast : ((row none).map Spot.ref).getLast?.bind e.tree.get? =
      (row none).getLast?.map Spot.node := by
    cases hr : (row none).getLast? with
    | none => simp [List.getLast?_map, hr]
    | some c => simp [List.getLast?_map, hr, hget c (List.mem_of_mem_getLast? hr)]
  have hadopt := adopt_row (t := e.tree) [] s.ref hbefore (by simpa using hnodes)
  have hpos : ((((row none).map Spot.ref).head?.bind e.tree.get?).map Node.pos).getD
      (byteLength e.text) = offset := by
    rw [hfirst, Spot.head?_row]
    cases gs with
    | nil => simpa [Green.textAll] using htext
    | cons g gs => rfl
  have hstart : ((((row none).map Spot.ref).head?.bind e.tree.get?).map Node.start).getD
      (byteLength e.text) = s.start := by
    rw [hfirst, Spot.head?_row]
    cases gs with
    | nil => simpa [Green.textAll, Spot.start, s, Green.lead, Green.leadAll] using htext
    | cons g gs => rfl
  have hstop : ((((row none).map Spot.ref).getLast?.bind e.tree.get?).map Node.stop).getD
      s.start = s.stop := by
    rw [hlast]
    cases hr : (row none).getLast? with
    | none =>
      have hgs : gs = [] := by simpa [row, ← List.length_eq_zero_iff] using hr
      simp [hgs, s, Spot.start, Spot.stop, Green.lead, Green.leadAll, Green.text, Green.textAll]
    | some c => exact Spot.stop_of_mem_getLast? hr
  refine ⟨hsize, rfl, ?_⟩
  have hnode : s.node = ⟨kind, flags, offset, s.start, s.stop, none, (row none).map Spot.ref,
      payload.mapLinks (resolveLink ((row none).map Spot.ref))⟩ := by
    rw [← hrefs]
    rfl
  simp only [closed, Emission.close, Tree.add, Array.toList_push, Spot.all, List.map_append,
    List.map_cons, List.map_nil, hnode]
  simp only [row] at hpos hstart hstop ⊢
  rw [hpos, hstart, hstop, hsize, hadopt, List.append_nil, List.append_assoc]
  rfl

mutual

/-- Emitting a tree adds the nodes of its spots behind those that are there, and its text behind
    the one that is there. -/
theorem Green.emit_eq (g : Green) (e : Emission) :
    (g.emit e).1 = some (e.tree.size + g.sizeBelow) ∧ (g.emit e).2.text = e.text ++ g.text ∧
      (g.emit e).2.tree.nodes.toList = e.tree.nodes.toList ++
        (Spot.all ⟨e.tree.size, byteLength e.text, none, g⟩).map Spot.node := by
  cases g with
  | token lead kind text payload labels =>
    refine ⟨rfl, by simp [emit, Emission.token, Green.text, String.append_assoc], ?_⟩
    simp [emit, Emission.token, Tree.add, Spot.all, Spot.below, spotsBelow, Spot.node,
      Spot.children, Green.kind, Green.flags, payloadOver, Spot.start, Spot.stop, Green.lead,
      Green.text, Nat.add_assoc]
  | node kind flags payload children labels =>
    obtain ⟨hrefs, htext, hnodes⟩ := emitAll_eq children e
    generalize hemit : Green.emitAll children e = emitted at hrefs htext hnodes
    obtain ⟨refs, e'⟩ := emitted
    dsimp only at hrefs htext hnodes
    subst hrefs
    obtain ⟨href, htext', hnodes'⟩ := Emission.close_eq kind flags payload labels rfl hnodes
      (by simp [htext])
    simp only [Green.emit, hemit]
    exact ⟨href, htext'.trans htext, hnodes'⟩

theorem Green.emitAll_eq (gs : List Green) (e : Emission) :
    (Green.emitAll gs e).1 = (Spot.row e.tree.size (byteLength e.text) none gs).map Spot.ref ∧
      (Green.emitAll gs e).2.text = e.text ++ Green.textAll gs ∧
      (Green.emitAll gs e).2.tree.nodes.toList = e.tree.nodes.toList ++
        (Green.spotsAll e.tree.size (byteLength e.text) none gs).map Spot.node := by
  cases gs with
  | nil => simp [emitAll, Green.textAll, Green.spotsAll]
  | cons g gs =>
    obtain ⟨href, htext, hnodes⟩ := emit_eq g e
    generalize hemit : g.emit e = emitted at href htext hnodes
    obtain ⟨ref, e'⟩ := emitted
    dsimp only at href htext hnodes
    have hsize : e'.tree.size = e.tree.size + g.size := by
      have h := congrArg List.length hnodes
      simpa [Spot.length_all, Tree.size] using h
    obtain ⟨hrefs, htexts, hall⟩ := emitAll_eq gs e'
    have hlength : byteLength e'.text = byteLength e.text + byteLength g.text := by
      simp [htext]
    rw [hsize, hlength] at hrefs hall
    refine ⟨?_, ?_, ?_⟩
    · simp [emitAll, hemit, hrefs, href, Spot.ref, Spot.number]
    · simp [emitAll, hemit, htexts, htext, Green.textAll, String.append_assoc]
    · simp [emitAll, hemit, hall, hnodes, Green.spotsAll, Spot.all, Spot.below]

end

end TypeLint.Syntax
