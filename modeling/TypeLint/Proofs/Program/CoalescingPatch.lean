import TypeLint.Proofs.Emission.Places
import TypeLint.Proofs.Program.Coalescing
import TypeLint.Proofs.Program.RemovalPatch

namespace TypeLint.Program

open Syntax Text Green

theorem body_enclosedTree {g : Green} (h : g.Every Solid) :
    (enclosedTree g).body = "(" ++ (g.body ++ ")") := by
  rw [enclosedTree, Green.body, bodyAll, textAll, textAll, textAll, text_setLead g h,
    String.empty_append, String.append_empty]
  rfl

theorem lead_enclosedTree (g : Green) : (enclosedTree g).lead = g.lead := rfl

theorem solid_enclosedTree {g : Green} (h : g.Every Solid) : (enclosedTree g).Every Solid :=
  ⟨List.cons_ne_nil _ _, trivial, solid_setLead g h "", trivial, trivial⟩

theorem lead_groupedTree (g : Green) : (groupedTree g).lead = g.lead := by
  rw [groupedTree]
  split
  · rfl
  · rfl

theorem solid_groupedTree {g : Green} (h : g.Every Solid) : (groupedTree g).Every Solid := by
  rw [groupedTree]
  split
  · exact solid_enclosedTree h
  · exact h

theorem solid_bare {g : Green} (h : g.Every Solid) : g.bare.Every Solid := by
  rw [← rewrite_id 0]
  exact solid_rewrite (fun _ _ hsolid => hsolid) 0 g h

theorem body_bare (g : Green) : g.bare.body = g.body := by
  have htext := text_bare g
  rw [text_eq, text_eq, lead_bare] at htext
  exact (String.append_right_inj _).mp htext

/-- The edits that put parentheses around an operand of `??` that needs them. -/
def groupEdits (file : String) (x : Spot) : List TextEdit :=
  if isGroupedTree x.green then [⟨file, x.start, x.start, "("⟩, ⟨file, x.stop, x.stop, ")"⟩] else []

/-- The spots of the parts of a binary expression. -/
structure BinaryParts where
  left : Spot
  operator : Spot
  right : Spot

/-- The parts of a binary expression at a spot. -/
def partsAt (x : Spot) (left : Green) (lead : String) (operator : Kind) (right : Green) :
    BinaryParts where
  left := ⟨x.first, x.offset, x.ref, left⟩
  operator := ⟨x.first + left.size, x.offset + byteLength left.text, x.ref, mark lead operator⟩
  right := ⟨x.first + left.size + 1,
    x.offset + byteLength left.text + byteLength (mark lead operator).text, x.ref, right⟩

theorem children_eq_parts {x : Spot} {kind operator : Kind} {flags : Nat} {payload : Payload}
    {left right : Green} {lead : String} {labels : List String}
    (hx : x.green = .node kind flags payload [left, mark lead operator, right] labels) :
    x.children = [(partsAt x left lead operator right).left,
      (partsAt x left lead operator right).operator,
      (partsAt x left lead operator right).right] :=
  Spot.children_of_node hx

/-- The edits that put `??` in the place of the operator of a binary expression. -/
def coalescingEdits (file : String) (wrapped : Bool) (x : Spot) (parts : BinaryParts) :
    List TextEdit :=
  (if wrapped then [⟨file, x.start, x.start, "("⟩] else []) ++ groupEdits file parts.left ++
    [⟨file, parts.operator.start, parts.operator.stop, "??"⟩] ++ groupEdits file parts.right ++
    (if wrapped then [⟨file, x.stop, x.stop, ")"⟩] else [])

theorem patch_insertion (file : String) (offset : Nat) (text : String) :
    Patch file offset "" text [⟨file, offset, offset, text⟩] := .change offset "" text

/-- Putting parentheses around an operand of `??`, behind the trivia in front of it. -/
theorem patch_grouped (file : String) {x : Spot} (h : x.green.Every Solid) :
    Patch file x.start x.green.body (groupedTree x.green.bare).body (groupEdits file x) := by
  rw [groupedTree, groupEdits, isGroupedTree_bare]
  split
  · rw [body_enclosedTree (solid_bare h), body_bare, x.stop_eq]
    have hopen := patch_insertion file x.start "("
    have hclose := patch_insertion file (x.start + byteLength x.green.body) ")"
    have hpatch := hopen.append ((Patch.keep x.start x.green.body).append hclose)
    rwa [String.empty_append, String.append_empty] at hpatch
  · rw [body_bare]
    exact .keep _ _

theorem lead_coreTree (left : Green) (lead : String) (right : Green) :
    (coreTree left.bare lead right.bare).lead = left.lead :=
  (lead_groupedTree _).trans (lead_bare left)

theorem lead_coalesceTree (wrapped : Bool) (left : Green) (lead : String) (right : Green) :
    (coalesceTree wrapped left.bare lead right.bare).lead = left.lead := by
  cases wrapped
  · exact lead_coreTree left lead right
  · exact lead_coreTree left lead right

theorem body_coreTree (left : Green) (lead : String) (right : Green) :
    (coreTree left.bare lead right.bare).body =
      (groupedTree left.bare).body ++ (lead ++ ("??" ++ (right.lead ++
        (groupedTree right.bare).body))) := by
  have hmark : (mark lead .questionQuestionToken).text = lead ++ "??" := rfl
  simp only [coreTree, Green.body, bodyAll, textAll, hmark, text_eq (groupedTree right.bare),
    lead_groupedTree, lead_bare, String.append_assoc, String.append_empty]

section

variable {left right : Green} {lead : String}
  (hleft : left.Every Solid) (hright : right.Every Solid)

include hleft hright

theorem solid_coreTree : (coreTree left.bare lead right.bare).Every Solid :=
  ⟨List.cons_ne_nil _ _, solid_groupedTree (solid_bare hleft), trivial,
    solid_groupedTree (solid_bare hright), trivial⟩

theorem text_coalesceTree (wrapped : Bool) :
    (coalesceTree wrapped left.bare lead right.bare).text =
      left.lead ++ ((if wrapped then "(" else "") ++ ((groupedTree left.bare).body ++ (lead ++
        ("??" ++ (right.lead ++ ((groupedTree right.bare).body ++
          (if wrapped then ")" else ""))))))) := by
  rw [coalesceTree]
  cases wrapped
  · simp only [Bool.false_eq_true, if_false, text_eq (coreTree _ _ _), lead_coreTree,
      body_coreTree, String.empty_append, String.append_empty]
  · simp only [if_true, text_eq (enclosedTree _), lead_enclosedTree, lead_coreTree,
      body_enclosedTree (solid_coreTree hleft hright), body_coreTree, String.append_assoc]

end

theorem changesOnly_coalesceAt (wrapped : Bool) (number : Nat) :
    ChangesOnly number (coalesceAt wrapped number) := fun _ _ hne => if_neg hne

/-- What becomes of an expression `a || b` that is changed. -/
theorem rewrite_coalesceAt (wrapped : Bool) {x : Spot} {flags : Nat} {payload : Payload}
    {left right : Green} {lead : String} {labels : List String}
    (hx : x.green =
      .node .binaryExpression flags payload [left, mark lead .barBarToken, right] labels) :
    x.green.rewrite (coalesceAt wrapped x.number) x.first =
      coalesceTree wrapped left.bare lead right.bare := by
  have hnumber := number_of_node hx
  have hchildren := rewriteAll_outside (changesOnly_coalesceAt wrapped x.number) x.first
    [left, mark lead .barBarToken, right] (.inr hnumber.ge)
  have hchanged : (coalesceTree wrapped left.bare lead right.bare).setLead left.lead =
      coalesceTree wrapped left.bare lead right.bare := by
    rw [← lead_coalesceTree wrapped left lead right, setLead_lead]
  rw [hx, Green.rewrite, hchildren, ← hnumber, coalesceAt, if_pos rfl]
  exact hchanged

/-- The edits turn the text of the expression into the text of the changed one. -/
theorem patched_coalesced (file : String) (wrapped : Bool) {x : Spot} {flags : Nat}
    {payload : Payload} {left right : Green} {lead : String} {labels : List String}
    (hx : x.green =
      .node .binaryExpression flags payload [left, mark lead .barBarToken, right] labels)
    (hleft : left.Every Solid) (hright : right.Every Solid) :
    x.Patched file (coalesceAt wrapped x.number)
      (coalescingEdits file wrapped x (partsAt x left lead .barBarToken right)) := by
  let l : Spot := (partsAt x left lead .barBarToken right).left
  let o : Spot := (partsAt x left lead .barBarToken right).operator
  let r : Spot := (partsAt x left lead .barBarToken right).right
  have hmark : (mark lead .barBarToken).text = lead ++ "||" := rfl
  have htext : x.green.text = left.lead ++ ("" ++ (left.body ++ (lead ++ ("||" ++ (right.lead ++
      (right.body ++ "")))))) := by
    simp only [hx, Green.text, textAll, hmark, text_eq left, text_eq right, String.append_assoc,
      String.empty_append, String.append_empty]
  have hstart : x.start = l.start := by rw [Spot.start, hx]; rfl
  have hstop : x.stop = r.stop := by
    simp only [r, partsAt, Spot.stop, hx, Green.text, textAll, String.append_empty,
      byteLength_append, Nat.add_assoc]
  have hopen : Patch file x.start "" (if wrapped then "(" else "")
      (if wrapped then [⟨file, x.start, x.start, "("⟩] else []) := by
    cases wrapped
    · exact .keep _ _
    · exact patch_insertion file x.start "("
  have hclose : Patch file x.stop "" (if wrapped then ")" else "")
      (if wrapped then [⟨file, x.stop, x.stop, ")"⟩] else []) := by
    cases wrapped
    · exact .keep _ _
    · exact patch_insertion file x.stop ")"
  have hchange : Patch file o.start "||" "??" [⟨file, o.start, o.stop, "??"⟩] :=
    o.stop_eq ▸ .change o.start "||" "??"
  have hgroupLeft : Patch file l.start left.body _ _ := patch_grouped file hleft
  have hgroupRight : Patch file r.start right.body _ _ := patch_grouped file hright
  have hpatch := (Patch.keep l.offset left.lead).append_at hstart <|
    hopen.append_at (hstart.symm ▸ rfl) <| hgroupLeft.append_at l.stop_eq <|
    (Patch.keep o.offset lead).append_at rfl <| hchange.append_at o.stop_eq <|
    (Patch.keep r.offset right.lead).append_at rfl <|
    hgroupRight.append_at (hstop.trans r.stop_eq) hclose
  rw [Spot.Patched, rewrite_coalesceAt wrapped hx, text_coalesceTree hleft hright, htext]
  simp only [coalescingEdits, List.append_assoc]
  exact hpatch

/-- The edits for one `||` turn the text of a program into the text of the program with `??`
    there. -/
theorem patch_coalescedAt (file : String) (wrapped : Bool) {p : TypeLint.Program}
    (hp : Disciplined p) (hplain : CommentFree p) {x : Spot} (hx : x ∈ (wholeSpot p).all)
    {flags : Nat} {payload : Payload} {left right : Green} {lead : String} {labels : List String}
    (hgreen : x.green =
      .node .binaryExpression flags payload [left, mark lead .barBarToken, right] labels) :
    Patch file 0 (whole p).text (whole (coalescedAt wrapped x.number p)).text
      (coalescingEdits file wrapped x (partsAt x left lead .barBarToken right)) := by
  have hform : Formed (wholeSpot p).green := closed_formed hp _
  have hsolid : x.green.Every Solid := (hform.of_mem_all hx).imp fun _ => solid_of_hasForm
  rw [hgreen] at hsolid
  have hpatch := (patched_coalesced file wrapped hgreen hsolid.2.1 hsolid.2.2.2.1).around
    (changesOnly_coalesceAt wrapped x.number) hx rfl
  rw [← text_bare (whole (coalescedAt wrapped x.number p)), coalescedAt,
    whole_changed (coalesces_agree wrapped x.number) hplain]
  exact hpatch

end TypeLint.Program
