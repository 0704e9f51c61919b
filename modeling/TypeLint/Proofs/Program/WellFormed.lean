import TypeLint.Proofs.Program.Lossless

namespace TypeLint.Syntax

open Program (places LinksTo)

theorem map_resolveLink_places (refs : List NodeRef) :
    (places 0 refs.length).map (Emission.resolveLink refs) = refs := by
  refine List.ext_getElem (by simp [places]) fun i hi hi' => ?_
  simp [places, Emission.resolveLink, List.getElem?_eq_getElem hi']

/-- Links to places become links to the children at these places. -/
theorem linksTo_resolveLink {refs field : List NodeRef}
    (h : LinksTo (places 0 refs.length) field) :
    LinksTo refs (field.map (Emission.resolveLink refs)) := by
  rcases h with rfl | hsub
  · exact .inl rfl
  · have hmap := hsub.map (Emission.resolveLink refs)
    rw [map_resolveLink_places] at hmap
    exact .inr hmap

/-- The payload of every node over children fits its kind and links to its children. -/
def PayloadFits (n : Node) : Prop :=
  n.payload? = some n.payload ∧ ∀ field ∈ n.payload.fields, LinksTo n.children field

theorem Spot.payloadFits {s : Spot} (h : Program.HasForm s.green)
    (hkind : s.green.kind.isToken = false) : PayloadFits s.node := by
  cases hs : s.green with
  | token lead kind text payload labels =>
    rw [hs] at h hkind
    rw [Green.kind, Program.TokenForm.isToken_eq_true h] at hkind
    cases hkind
  | node kind flags payload gs labels =>
    rw [hs] at h
    have hlength : (s.children.map Spot.ref).length = gs.length := by
      simp [Spot.children_of_node hs]
    refine ⟨?_, fun field hfield => ?_⟩
    · simp [Node.payload?, Spot.node, hs, Green.kind, Green.payloadOver,
        Payload.fits_mapLinks, (Program.Form.kind_and_fits h).2.2]
    · simp only [Spot.node, hs, Green.payloadOver, Payload.fields_mapLinks, List.mem_map] at hfield
      obtain ⟨places, hplaces, rfl⟩ := hfield
      have hlinks := Program.Form.linksTo h places hplaces
      rw [← hlength] at hlinks
      exact linksTo_resolveLink hlinks

end TypeLint.Syntax

namespace TypeLint.Program

open Syntax Text

/-- The nodes of a file are reached from the root once each and fit their payloads, and the file
    is what a tree from outside would give. -/
structure WellFormed (file : SourceFile) : Prop where
  preorder : (file.tree.preorder file.root).Perm file.tree.refs
  parents : ∀ r, ∀ c ∈ file.tree.children r, file.tree.parent c = r
  payloads : ∀ n ∈ file.tree.nodes, n.kind.isToken = false → PayloadFits n
  accepted : SourceFile.ofTree file.fileName file.text file.tree file.root = .ok file

theorem stop_le_of_mem_wholeSpot {p : TypeLint.Program} {x : Spot}
    (hx : x ∈ (wholeSpot p).all) : x.stop ≤ byteLength (whole p).text := by
  obtain ⟨before, after, htext, hoffset⟩ := Spot.exists_text_eq hx
  have hlength := congrArg byteLength htext
  simp only [byteLength_append] at hlength
  change byteLength (whole p).text = _ at hlength
  change x.offset = 0 + byteLength before at hoffset
  rw [Spot.stop, hoffset, hlength]
  omega

namespace Shown

variable {p : TypeLint.Program} {file : SourceFile}

/-- The children of a node point back to it. -/
theorem parent_of_mem_children (shown : Shown p file) {r c : NodeRef}
    (hc : c ∈ file.tree.children r) : file.tree.parent c = r := by
  cases hget : file.tree.get? r with
  | none => simp [Tree.children, hget] at hc
  | some n =>
    obtain ⟨x, hx, rfl, -⟩ := shown.shows.exists_of_get? hget
    rw [shown.shows.children_eq hx] at hc
    obtain ⟨child, hchild, rfl⟩ := List.mem_map.mp hc
    rw [shown.shows.parent_eq (Spot.children_subset_all hx hchild)]
    exact Spot.parent_of_mem_children hchild

/-- There is nothing wrong with a node. -/
theorem nodeError?_eq_none (shown : Shown p file) {r : NodeRef} (hr : r ∈ file.tree.refs) :
    SourceFile.nodeError? file.tree (byteLength file.text) r = none := by
  rw [shown.shows.refs_eq] at hr
  obtain ⟨x, hx, rfl⟩ := List.mem_map.mp hr
  have hbounds : (x.node.pos > x.node.start || x.node.start > x.node.stop ||
      x.node.stop > byteLength file.text) = false := by
    have hpos := x.node_pos_le_start
    have hstart := x.node_start_le_stop
    have hstop : x.node.stop ≤ byteLength file.text := by
      rw [shown.text]
      exact stop_le_of_mem_wholeSpot hx
    simp [hpos, hstart, hstop]
  have hparents : x.node.children.find? (fun child => file.tree.parent child != x.ref) = none := by
    refine List.find?_eq_none.mpr fun c hc => ?_
    have hchild : c ∈ file.tree.children x.ref := by rwa [shown.shows.children_eq hx]
    simp [shown.parent_of_mem_children hchild]
  simp only [SourceFile.nodeError?, shown.shows.get?_eq hx, Option.bind_eq_bind,
    Option.bind_some, hbounds, Bool.false_eq_true, if_false, hparents, Option.map_none]

/-- A file that has been built passes the checks of one that comes from outside. -/
theorem ofTree_eq (shown : Shown p file) :
    SourceFile.ofTree file.fileName file.text file.tree file.root = .ok file := by
  have hroot : file.tree.kind? file.root = some .sourceFile := by
    rw [shown.root, shown.shows.kind?_eq (Spot.self_mem_all _)]
    rfl
  have herrors : file.tree.refs.findSome?
      (SourceFile.nodeError? file.tree (byteLength file.text)) = none :=
    List.findSome?_eq_none_iff.mpr fun r hr => shown.nodeError?_eq_none hr
  rw [SourceFile.ofTree, hroot, herrors]
  exact congrArg Except.ok shown.assembled.symm

end Shown

/-- A file that is built from a program is well formed. -/
theorem build_wellFormed {fileName : String} {p : TypeLint.Program} {b : Built}
    (h : Disciplined p) (hb : build fileName p = .ok b) : WellFormed b.file := by
  obtain ⟨shown, -⟩ := shown_of_build hb
  refine ⟨?_, fun r c hc => shown.parent_of_mem_children hc, ?_, shown.ofTree_eq⟩
  · rw [shown.root, shown.shows.preorder_eq (Spot.self_mem_all _), shown.shows.refs_eq]
    exact (wholeSpot p).walk_perm_all.map _
  · intro n hn hkind
    obtain ⟨x, hx, rfl⟩ := shown.shows.mem_nodes_iff.mp hn
    exact Spot.payloadFits (hasForm_of_mem_wholeSpot h hx) hkind

theorem build_wellFormed_excerpt : ∃ b, Disciplined excerpt ∧ build "a.ts" excerpt = .ok b ∧
    WellFormed b.file := by
  obtain ⟨b, hb⟩ := exists_build_excerpt
  exact ⟨b, excerpt_disciplined, hb, build_wellFormed excerpt_disciplined hb⟩

end TypeLint.Program
