import TypeLint.Proofs.Emission.Spots

namespace TypeLint.Syntax

open Text

/-- The kinds of the expressions that a change may concern. -/
def isRewritable : Kind → Bool
  | .binaryExpression | .nonNullExpression | .propertyAccessExpression
  | .elementAccessExpression | .callExpression | .asExpression | .typeAssertionExpression => true
  | _ => false

namespace Green

mutual

/-- A tree without flags, links and labels. -/
def bare : Green → Green
  | token lead kind text payload _ => token lead kind text payload []
  | node kind _ _ children _ => node kind 0 .empty (bareAll children) []

/-- Trees without flags, links and labels. -/
def bareAll : List Green → List Green
  | [] => []
  | g :: gs => g.bare :: bareAll gs

end

mutual

/-- A tree with other trivia in front of it. -/
def setLead (lead : String) : Green → Green
  | token _ kind text payload labels => token lead kind text payload labels
  | node kind flags payload children labels =>
    node kind flags payload (setLeadAll lead children) labels

/-- Trees with other trivia in front of the first one. -/
def setLeadAll (lead : String) : List Green → List Green
  | [] => []
  | g :: gs => g.setLead lead :: gs

end

mutual

/-- The bare tree after a change at each of its expressions, from the inside to the outside. The
    change is told the number of the node, and the trivia in front of the expression stays. -/
def rewrite (change : Nat → Green → Green) (first : Nat) : Green → Green
  | token lead kind text payload _ => token lead kind text payload []
  | node kind _ _ children _ =>
    let inside := node kind 0 .empty (rewriteAll change first children) []
    if isRewritable kind then
      (change (first + sizeAll children) inside).setLead (leadAll children)
    else inside

/-- Bare trees one behind the other after a change at each of their expressions. -/
def rewriteAll (change : Nat → Green → Green) (first : Nat) : List Green → List Green
  | [] => []
  | g :: gs => g.rewrite change first :: rewriteAll change (first + g.size) gs

end

mutual

theorem setLead_setLead (g : Green) (s t : String) : (g.setLead s).setLead t = g.setLead t := by
  cases g with
  | token lead kind text payload labels => rfl
  | node kind flags payload children labels =>
    simp only [setLead, setLeadAll_setLeadAll children s t]

theorem setLeadAll_setLeadAll (gs : List Green) (s t : String) :
    setLeadAll t (setLeadAll s gs) = setLeadAll t gs := by
  cases gs with
  | nil => rfl
  | cons g gs => simp only [setLeadAll, setLead_setLead g s t]

end

mutual

theorem setLead_lead (g : Green) : g.setLead g.lead = g := by
  cases g with
  | token lead kind text payload labels => rfl
  | node kind flags payload children labels =>
    simp only [setLead, lead, setLeadAll_leadAll children]

theorem setLeadAll_leadAll (gs : List Green) : setLeadAll (leadAll gs) gs = gs := by
  cases gs with
  | nil => rfl
  | cons g gs => simp only [setLeadAll, leadAll, setLead_lead g]

end

mutual

theorem lead_bare (g : Green) : g.bare.lead = g.lead := by
  cases g with
  | token lead kind text payload labels => rfl
  | node kind flags payload children labels => exact leadAll_bareAll children

theorem leadAll_bareAll (gs : List Green) : leadAll (bareAll gs) = leadAll gs := by
  cases gs with
  | nil => rfl
  | cons g gs => exact lead_bare g

end

@[simp] theorem kind_bare (g : Green) : g.bare.kind = g.kind := by
  cases g <;> rfl

@[simp] theorem bare_withLabel (g : Green) (label : String) :
    (g.withLabel label).bare = g.bare := by
  cases g <;> rfl

theorem lead_withLabel (g : Green) (label : String) : (g.withLabel label).lead = g.lead := by
  cases g <;> rfl

mutual

theorem bare_setLead (g : Green) (s : String) : (g.setLead s).bare = g.bare.setLead s := by
  cases g with
  | token lead kind text payload labels => rfl
  | node kind flags payload children labels =>
    simp only [setLead, bare, bareAll_setLeadAll children s]

theorem bareAll_setLeadAll (gs : List Green) (s : String) :
    bareAll (setLeadAll s gs) = setLeadAll s (bareAll gs) := by
  cases gs with
  | nil => rfl
  | cons g gs => simp only [setLeadAll, bareAll, bare_setLead g s]

end

mutual

theorem text_bare (g : Green) : g.bare.text = g.text := by
  cases g with
  | token lead kind text payload labels => rfl
  | node kind flags payload children labels => exact textAll_bareAll children

theorem textAll_bareAll (gs : List Green) : textAll (bareAll gs) = textAll gs := by
  cases gs with
  | nil => rfl
  | cons g gs => simp only [bareAll, textAll, text_bare g, textAll_bareAll gs]

end

mutual

theorem sizeBelow_bare (g : Green) : g.bare.sizeBelow = g.sizeBelow := by
  cases g with
  | token lead kind text payload labels => rfl
  | node kind flags payload children labels => exact sizeAll_bareAll children

theorem sizeAll_bareAll (gs : List Green) : sizeAll (bareAll gs) = sizeAll gs := by
  cases gs with
  | nil => rfl
  | cons g gs => simp only [bareAll, sizeAll, sizeBelow_bare g, sizeAll_bareAll gs]

end

mutual

theorem sizeBelow_setLead (g : Green) (s : String) : (g.setLead s).sizeBelow = g.sizeBelow := by
  cases g with
  | token lead kind text payload labels => rfl
  | node kind flags payload children labels => exact sizeAll_setLeadAll children s

theorem sizeAll_setLeadAll (gs : List Green) (s : String) :
    sizeAll (setLeadAll s gs) = sizeAll gs := by
  cases gs with
  | nil => rfl
  | cons g gs => simp only [setLeadAll, sizeAll, sizeBelow_setLead g s]

end

theorem bareAll_append (gs hs : List Green) : bareAll (gs ++ hs) = bareAll gs ++ bareAll hs := by
  induction gs with
  | nil => rfl
  | cons g gs ih => simp only [List.cons_append, bareAll, ih]

theorem bareAll_eq_map (gs : List Green) : bareAll gs = gs.map bare := by
  induction gs with
  | nil => rfl
  | cons g gs ih => simp only [bareAll, List.map_cons, ih]

theorem bareAll_map_withLabel (gs : List Green) (label : String) :
    bareAll (gs.map (·.withLabel label)) = bareAll gs := by
  induction gs with
  | nil => rfl
  | cons g gs ih => simp only [List.map_cons, bareAll, bare_withLabel, ih]

/-- The outermost node is a token or has children. -/
def Solid : Green → Prop
  | token .. => True
  | node _ _ _ children _ => children ≠ []

mutual

theorem text_setLead (g : Green) (h : g.Every Solid) (s : String) :
    (g.setLead s).text = s ++ g.body := by
  cases g with
  | token lead kind text payload labels => rfl
  | node kind flags payload children labels => exact textAll_setLeadAll children h.2 h.1 s

theorem textAll_setLeadAll (gs : List Green) (h : EveryIn Solid gs) (hne : gs ≠ [])
    (s : String) : textAll (setLeadAll s gs) = s ++ bodyAll gs := by
  cases gs with
  | nil => exact absurd rfl hne
  | cons g gs =>
    simp only [setLeadAll, textAll, bodyAll, text_setLead g h.1 s, String.append_assoc]

end

mutual

theorem solid_setLead (g : Green) (h : g.Every Solid) (s : String) : (g.setLead s).Every Solid := by
  cases g with
  | token lead kind text payload labels => trivial
  | node kind flags payload children labels =>
    refine ⟨?_, solidIn_setLeadAll children h.2 s⟩
    have hne : children ≠ [] := h.1
    cases children with
    | nil => exact absurd rfl hne
    | cons g gs => exact List.cons_ne_nil _ _

theorem solidIn_setLeadAll (gs : List Green) (h : EveryIn Solid gs) (s : String) :
    EveryIn Solid (setLeadAll s gs) := by
  cases gs with
  | nil => trivial
  | cons g gs => exact ⟨solid_setLead g h.1 s, h.2⟩

end

@[simp] theorem rewrite_withLabel (change : Nat → Green → Green) (first : Nat) (g : Green)
    (label : String) : (g.withLabel label).rewrite change first = g.rewrite change first := by
  cases g <;> rfl

theorem rewriteAll_append (change : Nat → Green → Green) (first : Nat) (gs hs : List Green) :
    rewriteAll change first (gs ++ hs) =
      rewriteAll change first gs ++ rewriteAll change (first + sizeAll gs) hs := by
  induction gs generalizing first with
  | nil => rfl
  | cons g gs ih =>
    simp only [List.cons_append, rewriteAll, ih, sizeAll, size, Nat.add_assoc]

mutual

/-- Rewriting keeps the trivia in front of a tree. -/
theorem setLead_rewrite (change : Nat → Green → Green) (first : Nat) (g : Green) :
    (g.rewrite change first).setLead g.lead = g.rewrite change first := by
  cases g with
  | token lead kind text payload labels => rfl
  | node kind flags payload children labels =>
    simp only [rewrite, lead]
    split
    · exact setLead_setLead _ _ _
    · simp only [setLead, setLeadAll_rewriteAll change first children]

theorem setLeadAll_rewriteAll (change : Nat → Green → Green) (first : Nat) (gs : List Green) :
    setLeadAll (leadAll gs) (rewriteAll change first gs) = rewriteAll change first gs := by
  cases gs with
  | nil => rfl
  | cons g gs => simp only [leadAll, rewriteAll, setLeadAll, setLead_rewrite change first g]

end

mutual

/-- Where there is nothing to change, only the flags, links and labels go. -/
theorem rewrite_eq_bare (change : Nat → Green → Green) (first : Nat) (g : Green)
    (h : g.Every fun x => isRewritable x.kind = false) : g.rewrite change first = g.bare := by
  cases g with
  | token lead kind text payload labels => rfl
  | node kind flags payload children labels =>
    have hkind : isRewritable kind = false := h.1
    simp only [rewrite, hkind, Bool.false_eq_true, if_false, bare,
      rewriteAll_eq_bareAll change first children h.2]

theorem rewriteAll_eq_bareAll (change : Nat → Green → Green) (first : Nat) (gs : List Green)
    (h : EveryIn (fun x => isRewritable x.kind = false) gs) :
    rewriteAll change first gs = bareAll gs := by
  cases gs with
  | nil => rfl
  | cons g gs =>
    simp only [rewriteAll, bareAll, rewrite_eq_bare change first g h.1,
      rewriteAll_eq_bareAll change _ gs h.2]

end

mutual

/-- A change that changes nothing gives the bare tree. -/
theorem rewrite_id (first : Nat) (g : Green) : g.rewrite (fun _ g => g) first = g.bare := by
  cases g with
  | token lead kind text payload labels => rfl
  | node kind flags payload children labels =>
    have hlead : leadAll (bareAll children) = leadAll children := leadAll_bareAll children
    simp only [rewrite, bare, rewriteAll_id first children]
    split
    · rw [setLead, ← hlead, setLeadAll_leadAll]
    · rfl

theorem rewriteAll_id (first : Nat) (gs : List Green) :
    rewriteAll (fun _ g => g) first gs = bareAll gs := by
  cases gs with
  | nil => rfl
  | cons g gs => simp only [rewriteAll, bareAll, rewrite_id first g, rewriteAll_id _ gs]

end

theorem rewriteAll_ne_nil {change : Nat → Green → Green} {first : Nat} {gs : List Green}
    (h : gs ≠ []) : rewriteAll change first gs ≠ [] := by
  cases gs with
  | nil => exact absurd rfl h
  | cons g gs => exact List.cons_ne_nil _ _

mutual

theorem solid_rewrite {change : Nat → Green → Green}
    (hchange : ∀ n g, g.Every Solid → (change n g).Every Solid) (first : Nat) (g : Green)
    (h : g.Every Solid) : (g.rewrite change first).Every Solid := by
  cases g with
  | token lead kind text payload labels => trivial
  | node kind flags payload children labels =>
    have hinside : (node kind 0 .empty (rewriteAll change first children) []).Every Solid :=
      ⟨rewriteAll_ne_nil h.1, solidIn_rewriteAll hchange first children h.2⟩
    rw [rewrite]
    split
    · exact solid_setLead _ (hchange _ _ hinside) _
    · exact hinside

theorem solidIn_rewriteAll {change : Nat → Green → Green}
    (hchange : ∀ n g, g.Every Solid → (change n g).Every Solid) (first : Nat)
    (gs : List Green) (h : EveryIn Solid gs) : EveryIn Solid (rewriteAll change first gs) := by
  cases gs with
  | nil => trivial
  | cons g gs => exact ⟨solid_rewrite hchange first g h.1, solidIn_rewriteAll hchange _ gs h.2⟩

end

mutual

/-- Rewriting keeps the trivia in front of a tree that begins with a token. -/
theorem lead_setLead (g : Green) (h : g.Every Solid) (s : String) : (g.setLead s).lead = s := by
  cases g with
  | token lead kind text payload labels => rfl
  | node kind flags payload children labels => exact leadAll_setLeadAll children h.2 h.1 s

theorem leadAll_setLeadAll (gs : List Green) (h : EveryIn Solid gs) (hne : gs ≠ [])
    (s : String) : leadAll (setLeadAll s gs) = s := by
  cases gs with
  | nil => exact absurd rfl hne
  | cons g gs => exact lead_setLead g h.1 s

end

end Green

end TypeLint.Syntax
