import TypeLint.Proofs.Program.Removal

namespace TypeLint.Program

open Syntax Text Green

/-- The forms of the nodes that a change may concern. -/
inductive Shape : Kind → Payload → List Green → Prop
  | binary (left right : Green) (lead : String) (operator : Kind) :
    Shape .binaryExpression (.binary ⟨some 0, some 1, operator, some 2⟩)
      [left, mark lead operator, right]
  | nonNull (inner : Green) (lead : String) :
    Shape .nonNullExpression (.wrapped (some 0)) [inner, mark lead .exclamationToken]
  | property (receiver name : Green) (optional : Bool) (lead : String) :
    Shape .propertyAccessExpression (.access ⟨some 0, some 2, questionDotPlace optional⟩)
      [receiver, mark lead (if optional then .questionDotToken else .dotToken), name]
  | element (receiver argument closing : Green) (optional : Bool) (lead lead' : String) :
    Shape .elementAccessExpression
      (.access ⟨some 0, some ((questionDots lead optional).length + 2),
        questionDotPlace optional⟩)
      (receiver :: (questionDots lead optional ++
        [mark lead' .openBracketToken, argument, closing]))
  | call (receiver closing : Green) (items : List Green) (optional : Bool)
      (lead lead' : String) :
    Shape .callExpression
      (.call ⟨some 0, elementPlaces ((questionDots lead optional).length + 2) items,
        questionDotPlace optional⟩)
      (receiver :: (questionDots lead optional ++ mark lead' .openParenToken :: items ++
        [closing]))
  | asType (inner type : Green) (lead : String) (h : IsType type) :
    Shape .asExpression (.assertion ⟨some 0, some 2⟩) [inner, mark lead .asKeyword, type]
  | typeAssertion (type inner : Green) (lead lead' : String) (h : IsType type) :
    Shape .typeAssertionExpression (.assertion ⟨some 3, some 1⟩)
      [mark lead .lessThanToken, type, mark lead' .greaterThanToken, inner]

theorem Form.shape {kind : Kind} {flags : Nat} {payload : Payload} {children : List Green}
    (h : Form kind flags payload children) (hkind : Syntax.isRewritable kind = true) :
    Shape kind payload children := by
  cases h with
  | binary left right lead operator => exact .binary left right lead operator
  | nonNull inner lead => exact .nonNull inner lead
  | property receiver name optional lead => exact .property receiver name optional lead
  | element receiver argument optional lead lead' lead'' =>
    exact .element receiver argument (mark lead'' .closeBracketToken) optional lead lead'
  | call receiver closing items optional lead lead' =>
    exact .call receiver closing items optional lead lead'
  | asType inner type lead h => exact .asType inner type lead h
  | typeAssertion type inner lead lead' h => exact .typeAssertion type inner lead lead' h
  | compositeType kind h | prefixed kind h | block kind h | jump kind h =>
    rcases h with rfl | rfl <;> cases hkind
  | _ => cases hkind

/-- The edit that takes away the assertion or the optional step that a tree is whose text begins
    at an offset. -/
def removal? (file : String) (offset : Nat) : Green → Option TextEdit
  | .token .. => none
  | .node kind _ _ children _ =>
    match kind, children with
    | .asExpression, operand :: rest => some (Spot.cutEdit file offset [operand] rest "" "")
    | .nonNullExpression, operand :: rest => some (Spot.cutEdit file offset [operand] rest "" "")
    | .typeAssertionExpression, [opening, type, closing, _] =>
      some (Spot.cutEdit file offset [] [opening, type, closing] opening.lead "")
    | .propertyAccessExpression, receiver :: .token lead .questionDotToken text payload labels :: _ =>
      some (Spot.cutEdit file offset [receiver] [.token lead .questionDotToken text payload labels]
        lead ".")
    | .elementAccessExpression, receiver :: .token lead .questionDotToken text payload labels :: _ =>
      some (Spot.cutEdit file offset [receiver] [.token lead .questionDotToken text payload labels]
        "" "")
    | .callExpression, receiver :: .token lead .questionDotToken text payload labels :: _ =>
      some (Spot.cutEdit file offset [receiver] [.token lead .questionDotToken text payload labels]
        "" "")
    | _, _ => none

/-- The edit for a spot, if it is marked. -/
def removalAt? (file : String) (marked : Nat → Bool) (x : Spot) : Option TextEdit :=
  if marked x.number then removal? file x.offset x.green else none

theorem removal?_eq_none {file : String} {offset : Nat} {g : Green}
    (h : Syntax.isRewritable g.kind = false) : removal? file offset g = none := by
  unfold removal?
  split
  · rfl
  · split <;> first | rfl | cases h

theorem removalAt?_eq_none {file : String} {marked : Nat → Bool} {x : Spot}
    (h : Syntax.isRewritable x.green.kind = false) : removalAt? file marked x = none := by
  rw [removalAt?, removal?_eq_none h, ite_self]

/-- Nothing is taken away from a tree with nothing to take away. -/
theorem filterMap_removalAt?_eq_nil {file : String} {marked : Nat → Bool} {x : Spot}
    (h : x.green.Every fun g => Syntax.isRewritable g.kind = false) :
    x.all.filterMap (removalAt? file marked) = [] := by
  refine List.filterMap_eq_nil_iff.mpr fun y hy => removalAt?_eq_none ?_
  exact (h.of_mem_all hy).self

section

variable {file : String} {marked : Nat → Bool}

/-- The edits of a spot that are asked for turn its text into the text of what is left. -/
def Stripped (file : String) (marked : Nat → Bool) (x : Spot) (edits : List TextEdit) : Prop :=
  x.Patched file (stripAt marked) edits ∧
    edits.Perm (x.all.filterMap (removalAt? file marked))

/-- Edits for trees in a row are the edits for the trees. -/
theorem perm_flatMap {spots : List Spot} {edits : Spot → List TextEdit}
    (h : ∀ c ∈ spots, Stripped file marked c (edits c)) :
    (spots.flatMap edits).Perm ((spots.flatMap Spot.all).filterMap (removalAt? file marked)) := by
  rw [List.filterMap_flatMap]
  exact List.Perm.flatMap_left _ fun c hc => (h c hc).2

/-- A node that is not taken away itself. -/
theorem stripped_of_none {x : Spot} {edits : Spot → List TextEdit} {kind : Kind} {flags : Nat}
    {payload : Payload} {gs : List Green} {labels : List String}
    (hx : x.green = .node kind flags payload gs labels)
    (h : ∀ c ∈ x.children, Stripped file marked c (edits c))
    (hnone : removalAt? file marked x = none)
    (htext : (x.green.rewrite (stripAt marked) x.first).text =
      textAll (rewriteAll (stripAt marked) x.first gs)) :
    Stripped file marked x (x.children.flatMap edits) := by
  have hperm := perm_flatMap h
  rw [Spot.children_of_node hx] at h hperm ⊢
  refine ⟨?_, ?_⟩
  · rw [Spot.Patched, htext, hx]
    exact Spot.patch_row fun c hc => (h c hc).1
  · rw [Spot.all_eq, Spot.children_of_node hx, List.filterMap_append]
    simpa [hnone] using hperm

/-- A node that is taken away: its edit stands between the edits for the children that stay. -/
theorem stripped_of_some {x : Spot} {edits : Spot → List TextEdit} {kind : Kind} {flags : Nat}
    {payload : Payload} (front cut behind : List Green) {labels : List String}
    (kept removed new : String)
    (hx : x.green = .node kind flags payload (front ++ (cut ++ behind)) labels)
    (h : ∀ c ∈ x.children, Stripped file marked c (edits c))
    (hsome : removalAt? file marked x = some (Spot.cutEdit file x.offset front cut kept new))
    (hcut : textAll cut = kept ++ removed)
    (hkinds : EveryIn (fun g => Syntax.isRewritable g.kind = false) cut)
    (htext : (x.green.rewrite (stripAt marked) x.first).text =
      textAll (rewriteAll (stripAt marked) x.first front) ++ (kept ++ (new ++
        textAll (rewriteAll (stripAt marked) (x.first + sizeAll front + sizeAll cut) behind)))) :
    ∃ es, Stripped file marked x es := by
  rw [Spot.children_of_node hx] at h
  have hpatch := Spot.patch_cut new (fun c hc => (h c hc).1) hcut
  rw [Spot.row_append, Spot.row_append, List.forall_mem_append, List.forall_mem_append] at h
  have hold : textAll (front ++ (cut ++ behind)) = x.green.text := by rw [hx, Green.text]
  rw [hold, ← htext] at hpatch
  refine ⟨_, hpatch, ?_⟩
  have hcutNone : ((Spot.row (x.first + sizeAll front)
      (x.offset + byteLength (textAll front)) x.ref cut).flatMap Spot.all).filterMap
      (removalAt? file marked) = [] := by
    rw [List.filterMap_flatMap]
    refine List.flatMap_eq_nil_iff.mpr fun c hc => filterMap_removalAt?_eq_nil ?_
    have hmem := List.mem_map_of_mem (f := Spot.green) hc
    rw [Spot.map_green_row] at hmem
    exact everyIn_iff.mp hkinds _ hmem
  rw [Spot.all_eq, Spot.children_of_node hx, Spot.row_append, Spot.row_append]
  simp only [List.flatMap_append, List.filterMap_append, hcutNone, List.nil_append,
    List.filterMap_cons, hsome, List.filterMap_nil]
  refine List.perm_middle.trans (List.Perm.trans ?_ (List.perm_append_singleton _ _).symm)
  exact ((perm_flatMap h.1).append (perm_flatMap h.2.2)).cons _

theorem solid_of_hasForm {g : Green} (h : HasForm g) : Solid g := by
  cases g with
  | token lead kind text payload labels => trivial
  | node kind flags payload children labels => exact Form.children_ne_nil h

theorem number_of_node {x : Spot} {kind : Kind} {flags : Nat} {payload : Payload}
    {gs : List Green} {labels : List String} (hx : x.green = .node kind flags payload gs labels) :
    x.number = x.first + sizeAll gs := by
  rw [Spot.number, hx]
  rfl

/-- What becomes of a node that may be taken away. -/
theorem rewrite_stripAt (marked : Nat → Bool) {x : Spot} {kind : Kind} {flags : Nat} {payload : Payload}
    {gs : List Green} {labels : List String} (hx : x.green = .node kind flags payload gs labels)
    (hkind : Syntax.isRewritable kind = true) :
    x.green.rewrite (stripAt marked) x.first =
      if marked x.number then
        (strippedTree (.node kind 0 .empty (rewriteAll (stripAt marked) x.first gs) [])).setLead
          (leadAll gs)
      else .node kind 0 .empty (rewriteAll (stripAt marked) x.first gs) [] := by
  rw [number_of_node hx, hx, Green.rewrite, if_pos hkind, stripAt]
  split
  · rfl
  · rw [setLead, setLeadAll_rewriteAll]

theorem solid_stripAt (n : Nat) (g : Green) (h : g.Every Solid) :
    (stripAt marked n g).Every Solid := by
  rw [stripAt]
  split
  · exact solid_strippedTree h
  · exact h

theorem isRewritable_eq_false_of_isType {g : Green} (h : IsType g) :
    g.Every fun x => Syntax.isRewritable x.kind = false :=
  h.imp fun _ => isRewritable_eq_false_of_isTypePart

/-- The trivia in front of the first one of some trees stays when it is changed. -/
theorem textAll_setLead_cons (g : Green) (gs : List Green) (recast : Nat → Green → Green)
    (first : Nat) :
    textAll (setLeadAll g.lead (g.rewrite recast first :: gs)) =
      textAll (rewriteAll recast first [g]) ++ textAll gs := by
  simp only [setLeadAll, setLead_rewrite, rewriteAll, textAll, String.append_empty]

/-- A marked node: if there is something to take away, it is taken away. -/
theorem exists_stripped_of_shape {x : Spot} {edits : Spot → List TextEdit} {kind : Kind}
    {flags : Nat} {payload : Payload} {gs : List Green} {labels : List String}
    (hx : x.green = .node kind flags payload gs labels) (hshape : Shape kind payload gs)
    (hsolid : EveryIn Solid gs) (htight : Tight x.green)
    (h : ∀ c ∈ x.children, Stripped file marked c (edits c))
    (hsome : removalAt? file marked x =
      removal? file x.offset (.node kind flags payload gs labels))
    (hrewrite : x.green.rewrite (stripAt marked) x.first =
      (strippedTree (.node kind 0 .empty (rewriteAll (stripAt marked) x.first gs) [])).setLead
        (leadAll gs)) :
    ∃ es, Stripped file marked x es := by
  have hfirst {lead : String} {place : Nat} (hgap : gap kind = some (place, lead)) :
      leadAll (gs.drop place) = lead := by
    rw [hx] at htight
    exact htight place lead hgap rfl
  cases hshape with
  | binary left right lead operator =>
    refine ⟨_, stripped_of_none hx h hsome ?_⟩
    rw [hrewrite]
    exact congrArg textAll (setLeadAll_rewriteAll (stripAt marked) x.first
      [left, mark lead operator, right])
  | nonNull inner lead =>
    refine stripped_of_some [inner] [mark lead .exclamationToken] [] ""
      (textAll [mark lead .exclamationToken]) "" hx h hsome
      (String.empty_append).symm ⟨rfl, trivial⟩ ?_
    rw [hrewrite]
    simp only [rewriteAll, strippedTree, leadAll, setLead_rewrite, textAll, String.append_empty]
  | asType inner type lead htype =>
    refine stripped_of_some [inner] [mark lead .asKeyword, type] [] ""
      (textAll [mark lead .asKeyword, type]) "" hx h hsome
      (String.empty_append).symm ⟨rfl, isRewritable_eq_false_of_isType htype, trivial⟩ ?_
    rw [hrewrite]
    simp only [rewriteAll, strippedTree, leadAll, setLead_rewrite, textAll, String.append_empty]
  | typeAssertion type inner lead lead' htype =>
    let recast := stripAt marked
    let inner' := inner.rewrite recast
      (x.first + sizeAll [mark lead .lessThanToken, type, mark lead' .greaterThanToken])
    have hinner : inner.Every Solid := hsolid.2.2.2.1
    have hinner' : inner'.Every Solid := solid_rewrite solid_stripAt _ _ hinner
    have hlead : inner'.lead = "" := by
      have hkeep : inner'.setLead inner.lead = inner' := setLead_rewrite _ _ _
      rw [← hkeep, lead_setLead _ hinner']
      exact hfirst rfl
    refine stripped_of_some [] [mark lead .lessThanToken, type, mark lead' .greaterThanToken]
      [inner] lead ("<" ++ textAll [type, mark lead' .greaterThanToken]) "" hx h hsome
      (String.append_assoc) ⟨rfl, isRewritable_eq_false_of_isType htype, rfl, trivial⟩ ?_
    rw [hrewrite, show [mark lead .lessThanToken, type, mark lead' .greaterThanToken, inner] =
      [mark lead .lessThanToken, type, mark lead' .greaterThanToken] ++ [inner] from rfl,
      rewriteAll_append]
    refine (text_setLead inner' hinner' lead).trans ?_
    have htext : inner'.text = inner'.body := by rw [text_eq, hlead, String.empty_append]
    simp only [rewriteAll, textAll, String.empty_append, String.append_empty]
    rw [← htext]
    rfl
  | property receiver name optional lead =>
    cases optional
    · refine ⟨_, stripped_of_none hx h hsome ?_⟩
      rw [hrewrite]
      exact congrArg textAll (setLeadAll_rewriteAll (stripAt marked) x.first
        [receiver, mark lead .dotToken, name])
    · refine stripped_of_some [receiver] [mark lead .questionDotToken] [name] lead "?." "."
        hx h hsome
        String.append_empty ⟨rfl, trivial⟩ ?_
      rw [hrewrite]
      refine (textAll_setLead_cons receiver _ _ _).trans (congrArg _ ?_)
      refine Eq.trans ?_ String.append_assoc
      rfl
  | element receiver argument closing optional lead lead' =>
    cases optional
    · refine ⟨_, stripped_of_none hx h hsome ?_⟩
      rw [hrewrite]
      exact congrArg textAll (setLeadAll_rewriteAll (stripAt marked) x.first
        [receiver, mark lead' .openBracketToken, argument, closing])
    · obtain rfl : lead = "" := hfirst rfl
      refine stripped_of_some [receiver] [mark "" .questionDotToken]
        [mark lead' .openBracketToken, argument, closing] "" "?." "" hx h hsome rfl ⟨rfl, trivial⟩ ?_
      rw [hrewrite]
      refine (textAll_setLead_cons receiver _ _ _).trans ?_
      simp only [String.empty_append]
      rfl
  | call receiver closing items optional lead lead' =>
    cases optional
    · refine ⟨_, stripped_of_none hx h hsome ?_⟩
      rw [hrewrite]
      exact congrArg textAll (setLeadAll_rewriteAll (stripAt marked) x.first
        (receiver :: mark lead' .openParenToken :: items ++ [closing]))
    · obtain rfl : lead = "" := hfirst rfl
      refine stripped_of_some [receiver] [mark "" .questionDotToken]
        (mark lead' .openParenToken :: items ++ [closing]) "" "?." "" hx h hsome rfl ⟨rfl, trivial⟩ ?_
      rw [hrewrite]
      refine (textAll_setLead_cons receiver _ _ _).trans ?_
      simp only [String.empty_append]
      rfl

/-- The edits for the marked assertions and steps of a tree turn its text into the text of what is
    left. -/
theorem exists_stripped (x : Spot) (hform : Formed x.green) (htight : x.green.Every Tight) :
    ∃ es, Stripped file marked x es := by
  induction x using Spot.inductionOnChildren with
  | step x ih =>
    have hchild (c : Spot) (hc : c ∈ x.children) : ∃ es, Stripped file marked c es :=
      have hmem := Spot.children_subset_all x.self_mem_all hc
      ih c hc (hform.of_mem_all hmem) (htight.of_mem_all hmem)
    choose! edits hedits using hchild
    cases hx : x.green with
    | token lead kind text payload labels =>
      refine ⟨[], ?_, ?_⟩
      · rw [Spot.Patched, hx]
        exact .keep _ _
      · simp [Spot.all_eq, Spot.children, hx, removalAt?, removal?]
    | node kind flags payload gs labels =>
      rw [hx] at hform htight
      cases hkind : Syntax.isRewritable kind with
      | false =>
        refine ⟨_, stripped_of_none hx hedits (removalAt?_eq_none (by rw [hx]; exact hkind)) ?_⟩
        rw [hx, Green.rewrite, hkind]
        rfl
      | true =>
        have hrewrite := rewrite_stripAt marked hx hkind
        cases hmarked : marked x.number with
        | false =>
          rw [hmarked] at hrewrite
          refine ⟨_, stripped_of_none hx hedits (by rw [removalAt?, hmarked]; rfl) ?_⟩
          rw [hrewrite]
          rfl
        | true =>
          rw [hmarked, if_pos rfl] at hrewrite
          have hsome : removalAt? file marked x =
              removal? file x.offset (.node kind flags payload gs labels) := by
            rw [removalAt?, hmarked, if_pos rfl, hx]
          rw [← hx] at htight
          exact exists_stripped_of_shape hx (Form.shape hform.1 hkind)
            (everyIn_iff.mpr fun g hg => (everyIn_iff.mp hform.2 g hg).imp fun _ =>
              solid_of_hasForm) htight.self hedits hsome hrewrite

end

theorem cutEdit_lt {file : String} {offset : Nat} {front cut : List Green} {kept new : String}
    (h : byteLength kept < byteLength (textAll cut)) :
    (Spot.cutEdit file offset front cut kept new).start <
      (Spot.cutEdit file offset front cut kept new).stop :=
  Nat.add_lt_add_left h _

theorem lt_byteLength_mark {kept lead : String} {kind : Kind} (rest : List Green)
    (hkept : byteLength kept ≤ byteLength lead) (hkind : 0 < byteLength ((kind.text?).getD "")) :
    byteLength kept < byteLength (textAll (mark lead kind :: rest)) := by
  simp only [textAll, mark, Green.text, byteLength_append]
  omega

/-- The edit that takes something away is not an insertion. -/
theorem removal?_lt {file : String} {offset : Nat} {g : Green} {e : TextEdit} (hform : HasForm g)
    (h : removal? file offset g = some e) : e.start < e.stop := by
  cases g with
  | token lead kind text payload labels => cases h
  | node kind flags payload gs labels =>
    have hkind : Syntax.isRewritable kind = true := by
      cases hkind : Syntax.isRewritable kind with
      | true => rfl
      | false => cases (removal?_eq_none (g := .node kind flags payload gs labels) hkind).symm.trans h
    cases Form.shape hform hkind with
    | binary left right lead operator => cases h
    | nonNull inner lead =>
      cases h
      exact cutEdit_lt (lt_byteLength_mark _ (Nat.zero_le _) (by decide))
    | asType inner type lead htype =>
      cases h
      exact cutEdit_lt (lt_byteLength_mark _ (Nat.zero_le _) (by decide))
    | typeAssertion type inner lead lead' htype =>
      cases h
      exact cutEdit_lt (lt_byteLength_mark _ (Nat.le_refl _) (by decide))
    | property receiver name optional lead =>
      cases optional
      · cases h
      · cases h
        exact cutEdit_lt (lt_byteLength_mark [] (Nat.le_refl _) (by decide))
    | element receiver argument closing optional lead lead' =>
      cases optional
      · cases h
      · cases h
        exact cutEdit_lt (lt_byteLength_mark [] (Nat.zero_le _) (by decide))
    | call receiver closing items optional lead lead' =>
      cases optional
      · cases h
      · cases h
        exact cutEdit_lt (lt_byteLength_mark [] (Nat.zero_le _) (by decide))

/-- One edit for each of the marked assertions and steps turns the text of a program into the text
    of the program without them. -/
theorem exists_patch_without (fileName : String) {p : TypeLint.Program} (hp : Disciplined p)
    (hplain : CommentFree p) (marked : Nat → Bool) :
    ∃ es, Patch fileName 0 (whole p).text (whole (without marked p)).text es ∧
      es.Perm ((wholeSpot p).all.filterMap (removalAt? fileName marked)) ∧
      ∀ e ∈ es, e.start < e.stop := by
  have hform : Formed (whole p) := closed_formed hp _
  obtain ⟨es, hpatch, hperm⟩ : ∃ es, Stripped fileName marked (wholeSpot p) es :=
    exists_stripped (wholeSpot p) hform (whole_tight hplain)
  refine ⟨es, ?_, hperm, fun e he => ?_⟩
  · rw [← text_bare (whole (without marked p)), without, whole_changed (strips_agree marked) hplain]
    exact hpatch
  · obtain ⟨x, hx, hsome⟩ := List.mem_filterMap.mp (hperm.mem_iff.mp he)
    rw [removalAt?] at hsome
    split at hsome
    · exact removal?_lt (hform.of_mem_all hx).self hsome
    · cases hsome

end TypeLint.Program
