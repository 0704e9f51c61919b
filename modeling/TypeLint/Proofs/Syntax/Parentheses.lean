import TypeLint.Proofs.Syntax.WalksEnd

namespace TypeLint.Syntax

variable {n : Node}

theorem payload?_of_binary? {b : Binary} (h : n.binary? = some b) :
    n.payload? = some (.binary b) := by
  rw [Node.binary?] at h
  split at h
  · next hpayload => rw [hpayload, Option.some.inj h]
  · cases h

theorem payload?_of_parenthesized? {inner : NodeRef} (h : n.parenthesized? = some inner) :
    n.payload? = some (.wrapped inner) ∧ n.kind = .parenthesizedExpression := by
  rw [Node.parenthesized?, Node.wrapped?] at h
  split at h
  · next hpayload =>
    split_ifs at h with hkind
    rw [hpayload, Option.some.inj h]
    exact ⟨rfl, hkind⟩
  · cases h

namespace Tree

/-- The expression is another one in parentheses. -/
def Encloses (t : Tree) (r inner : NodeRef) : Prop :=
  (t.get? r).bind Node.parenthesized? = some inner

/-- The expression is another one in any number of parentheses. -/
def Wraps (t : Tree) : NodeRef → NodeRef → Prop := Relation.ReflTransGen t.Encloses

/-- The second expression is an operand of the first, perhaps in parentheses. -/
def HasOperand (t : Tree) (r operand : NodeRef) : Prop :=
  ∃ b, t.binary? r = some b ∧ (t.Wraps b.left operand ∨ t.Wraps b.right operand)

/-- The node has a parenthesised expression as its parent. -/
def IsInside (t : Tree) (r outer : NodeRef) : Prop :=
  t.isParenthesized r = true ∧ t.parent r = outer

/-- The second expression is the parent of the first, or of parentheses around it. -/
def HasParent (t : Tree) (r parent : NodeRef) : Prop :=
  ∃ top, Relation.ReflTransGen t.IsInside r top ∧ t.parent top = parent

/-- Parents come behind their nodes. What a parenthesised or a binary expression refers to has it as
    its parent, and whatever has it as its parent, and has children, is what it refers to. -/
structure Linked (t : Tree) : Prop where
  parent_gt : ∀ i j, t.parent (some i) = some j → i < j ∧ j < t.size
  enclosed : ∀ r inner, t.Encloses r inner →
    t.parent inner = r ∧ t.kind? r = some .parenthesizedExpression ∧ t.children r ≠ []
  encloses : ∀ r, t.isParenthesized r = true → t.children r ≠ [] → t.Encloses (t.parent r) r
  operands : ∀ r b, t.binary? r = some b →
    t.parent b.left = r ∧ t.parent b.right = r ∧ t.kind? r = some .binaryExpression ∧
      t.children r ≠ []
  operand : ∀ r b, t.binary? (t.parent r) = some b → t.children r ≠ [] → r = b.left ∨ r = b.right

variable {t : Tree} {r s m : NodeRef}

theorem enterStep_eq_inl : t.enterStep r = .inl s ↔ t.Encloses r s := by
  rw [enterStep, Encloses]
  cases (t.get? r).bind Node.parenthesized? <;> simp

theorem outwardStep_eq_inl : t.outwardStep r = .inl s ↔ t.IsInside r s := by
  rw [outwardStep, IsInside]
  split_ifs with hinside <;> simp [hinside]

/-- The loop that goes into parentheses ends with what it cannot enter. -/
theorem ends_enterStep_iff : Ends t.enterStep r m ↔ t.Wraps r m ∧ t.enterStep m = .inr m := by
  refine ends_iff_of_stays enterStep_eq_inl fun {r s} h => ?_
  rw [enterStep] at h
  split at h
  · cases h
  · exact Sum.inr.inj h

/-- The loop that goes out of parentheses ends with what has none above it. -/
theorem ends_outwardStep_iff : Ends t.outwardStep r m ↔
    Relation.ReflTransGen t.IsInside r m ∧ t.outwardStep m = .inr m := by
  refine ends_iff_of_stays outwardStep_eq_inl fun {r s} h => ?_
  rw [outwardStep] at h
  split_ifs at h
  exact Sum.inr.inj h

/-- A loop into parentheses that ends reaches no circle of them. -/
theorem not_circle_of_ends (h : Ends t.enterStep r m) (hwraps : t.Wraps r s) :
    ¬ Relation.TransGen t.Encloses s s := by
  intro hcircle
  -- A circle that is reached is never left, so it is still ahead after every step.
  have hahead : Relation.TransGen t.Encloses r s := Relation.TransGen.trans_right hwraps hcircle
  clear hwraps
  induction h with
  | stop hstop =>
    obtain ⟨inner, hinner, -⟩ := Relation.TransGen.head'_iff.mp hahead
    cases hstop.symm.trans (enterStep_eq_inl.mpr hinner)
  | next hnext _ ih =>
    obtain ⟨inner, hinner, hwraps⟩ := Relation.TransGen.head'_iff.mp hahead
    obtain rfl := Sum.inl.inj (hnext.symm.trans (enterStep_eq_inl.mpr hinner))
    exact ih (Relation.TransGen.trans_right hwraps hcircle)

theorem ends_of_skipParenthesesTo {depth : Nat} (h : t.skipParenthesesTo depth r = .ok m) :
    Ends t.enterStep r m := by
  induction depth generalizing r with
  | zero => cases h
  | succ depth ih =>
    rw [skipParenthesesTo] at h
    split at h
    · next inner hinner => exact .next hinner (ih h)
    · next stop hstop =>
      cases h
      exact .stop hstop

/-- The loop goes on for ever if it does not end, and nothing else can go wrong with it. -/
theorem skipParenthesesTo_eq_error {depth : Nat} {c : Crash}
    (h : t.skipParenthesesTo depth r = .error c) : c = .endless := by
  induction depth generalizing r with
  | zero => exact (Except.error.inj h).symm
  | succ depth ih =>
    rw [skipParenthesesTo] at h
    split at h
    · exact ih h
    · cases h

/-- Where no circle of parentheses is reached, as many steps as there are nodes and one more are
    enough. -/
theorem exists_skipParentheses (h : ∀ s, t.Wraps r s → ¬ Relation.TransGen t.Encloses s s) :
    ∃ m, t.skipParentheses r = .ok m := by
  let reached (a b : NodeRef) : Prop := t.Wraps r a ∧ t.Encloses a b
  obtain ⟨rank, hsize, hlt⟩ := t.exists_rank reached
    (fun a b hab => (Option.bind_eq_some_iff.mp hab.2).imp fun _ hn => hn.1)
    (fun a hcircle => by
      obtain ⟨-, ⟨hwraps, -⟩, -⟩ := Relation.TransGen.head'_iff.mp hcircle
      exact h a hwraps (hcircle.lift id fun _ _ hab => hab.2))
  have henough (depth : Nat) (a : NodeRef) (hwraps : t.Wraps r a) (hdepth : rank a < depth) :
      ∃ m, t.skipParenthesesTo depth a = .ok m := by
    induction depth generalizing a with
    | zero => omega
    | succ depth ih =>
      rw [skipParenthesesTo]
      split
      · next inner hinner =>
        have hencloses := enterStep_eq_inl.mp hinner
        have hdown := hlt a inner ⟨hwraps, hencloses⟩
        exact ih inner (hwraps.tail hencloses) (by omega)
      · exact ⟨_, rfl⟩
  exact henough _ r .refl (Nat.lt_succ_of_le (hsize r))

/-- The expression inside the parentheses is what the loop inwards ends with. -/
theorem skipParentheses_eq_ok_iff : t.skipParentheses r = .ok m ↔ Ends t.enterStep r m := by
  refine ⟨ends_of_skipParenthesesTo, fun h => ?_⟩
  obtain ⟨m', hm'⟩ := exists_skipParentheses fun s => not_circle_of_ends h
  rw [hm', (ends_of_skipParenthesesTo hm').unique h]

/-- The loop that goes into parentheses ends exactly if they do not lead round in a circle. -/
theorem exists_ends_enterStep_iff : (∃ m, Ends t.enterStep r m) ↔
    ∀ s, t.Wraps r s → ¬ Relation.TransGen t.Encloses s s := by
  refine ⟨fun ⟨m, hm⟩ s => not_circle_of_ends hm, fun h => ?_⟩
  exact (exists_skipParentheses h).imp fun _ => skipParentheses_eq_ok_iff.mp

theorem skipParentheses_of_encloses (h : t.Encloses r s) :
    t.skipParentheses r = t.skipParentheses s := by
  have hsame (m : NodeRef) : t.skipParentheses r = .ok m ↔ t.skipParentheses s = .ok m := by
    rw [skipParentheses_eq_ok_iff, skipParentheses_eq_ok_iff]
    refine ⟨fun hends => ?_, .next (enterStep_eq_inl.mpr h)⟩
    cases hends with
    | stop hstop => cases hstop.symm.trans (enterStep_eq_inl.mpr h)
    | next hnext hrest =>
      obtain rfl := Sum.inl.inj (hnext.symm.trans (enterStep_eq_inl.mpr h))
      exact hrest
  cases hr : t.skipParentheses r with
  | ok m => rw [(hsame m).mp hr]
  | error c =>
    cases hs : t.skipParentheses s with
    | ok m => cases hr.symm.trans ((hsame m).mpr hs)
    | error c' => rw [skipParenthesesTo_eq_error hr, skipParenthesesTo_eq_error hs]

theorem skipParentheses_of_eq_none (h : (t.get? r).bind Node.parenthesized? = none) :
    t.skipParentheses r = .ok r :=
  skipParentheses_eq_ok_iff.mpr (.stop (by rw [enterStep, h]))

/-- What is not in parentheses itself is what the loop inwards ends with exactly if it stands in
    the parentheses. -/
theorem skipParentheses_eq_iff (hm : t.enterStep m = .inr m) :
    t.skipParentheses r = .ok m ↔ t.Wraps r m := by
  rw [skipParentheses_eq_ok_iff, ends_enterStep_iff]
  exact and_iff_left hm

/-- The loop that goes into parentheses ends if what is in parentheses comes in front of them or is
    no node. -/
theorem exists_skipParentheses_of_lt
    (h : ∀ i inner, t.Encloses (some i) inner →
      t.get? inner = none ∨ ∃ j, inner = some j ∧ j < i) (r : NodeRef) :
    ∃ m, t.skipParentheses r = .ok m := by
  have hinside {r s : NodeRef} (hrs : Relation.TransGen t.Encloses r s) :
      ∃ i, r = some i ∧ (t.get? s = none ∨ ∃ j, s = some j ∧ j < i) := by
    induction hrs with
    | single hs =>
      obtain ⟨n, hn, -⟩ := Option.bind_eq_some_iff.mp hs
      obtain ⟨i, rfl, -⟩ := exists_of_get? hn
      exact ⟨i, rfl, h i _ hs⟩
    | tail _ hs ih =>
      obtain ⟨i, rfl, hnone | ⟨j, rfl, hlt⟩⟩ := ih
      · rw [Encloses, hnone] at hs
        cases hs
      · refine ⟨i, rfl, (h j _ hs).imp_right ?_⟩
        rintro ⟨k, rfl, hk⟩
        exact ⟨k, rfl, hk.trans hlt⟩
  refine exists_skipParentheses fun s _ hcircle => ?_
  obtain ⟨i, rfl, hnone | ⟨j, hj, hlt⟩⟩ := hinside hcircle
  · obtain ⟨inner, hinner, -⟩ := Relation.TransGen.head'_iff.mp hcircle
    rw [Encloses, hnone] at hinner
    cases hinner
  · exact (Option.some.inj hj ▸ hlt).false

namespace Linked

/-- What stands in parentheses comes in front of them. -/
theorem lt_of_encloses (h : t.Linked) {inner : NodeRef} (hinner : t.Encloses r inner) :
    ∃ i j, r = some i ∧ inner = some j ∧ j < i ∧ i < t.size := by
  obtain ⟨n, hn, -⟩ := Option.bind_eq_some_iff.mp hinner
  obtain ⟨i, rfl, -⟩ := exists_of_get? hn
  have hparent := (h.enclosed _ inner hinner).1
  obtain ⟨j, rfl, -⟩ := exists_of_parent hparent
  exact ⟨i, j, rfl, rfl, h.parent_gt j i hparent⟩

/-- The loop that goes into parentheses ends. -/
theorem exists_skipParentheses (h : t.Linked) (r : NodeRef) :
    ∃ m, t.skipParentheses r = .ok m := by
  refine exists_skipParentheses_of_lt (fun i inner hinner => .inr ?_) r
  obtain ⟨i', j, hi, hj, hlt, -⟩ := h.lt_of_encloses hinner
  exact ⟨j, hj, Option.some.inj hi ▸ hlt⟩

/-- The loop that goes out of parentheses ends with the outermost ones. -/
theorem ends_walkUpParentheses (h : t.Linked) (r : NodeRef) :
    Ends t.outwardStep r (t.walkUpParentheses r) :=
  Tree.ends_walkUpParentheses h.parent_gt r

/-- A node that is no parenthesised expression is the parent of what the loop outwards ends with
    exactly if it is the parent of the node or of parentheses around it. -/
theorem parent_walkUpParentheses_eq_iff (h : t.Linked)
    (hm : t.kind? m ≠ some .parenthesizedExpression) :
    t.parent (t.walkUpParentheses r) = m ↔ t.HasParent r m := by
  have hends := h.ends_walkUpParentheses r
  constructor
  · rintro rfl
    exact ⟨_, (ends_outwardStep_iff.mp hends).1, rfl⟩
  · rintro ⟨top, hsteps, rfl⟩
    have hstop : t.outwardStep top = .inr top := if_neg fun hinside => hm (eq_of_beq hinside)
    rw [hends.unique (ends_outwardStep_iff.mpr ⟨hsteps, hstop⟩)]

theorem isInside_of_encloses (h : t.Linked) (hs : t.Encloses r s) : t.IsInside s r := by
  obtain ⟨hparent, hkind, -⟩ := h.enclosed r s hs
  refine ⟨?_, hparent⟩
  rw [isParenthesized, hparent, hkind]
  rfl

/-- An operand has the expression as its parent. -/
theorem hasParent_of_hasOperand (h : t.Linked) (hoperand : t.HasOperand r m) : t.HasParent m r := by
  obtain ⟨b, hb, hwraps⟩ := hoperand
  obtain ⟨hleft, hright, -⟩ := h.operands r b hb
  have hinside {side : NodeRef} (hside : t.Wraps side m) :
      Relation.ReflTransGen t.IsInside m side :=
    (Relation.ReflTransGen.swap _ _ hside).lift id fun _ _ => h.isInside_of_encloses
  rcases hwraps with hwraps | hwraps
  · exact ⟨_, hinside hwraps, hleft⟩
  · exact ⟨_, hinside hwraps, hright⟩

/-- Going outwards from a node with children comes by expressions in parentheses only. -/
theorem wraps_of_isInside (h : t.Linked) (hm : t.children m ≠ [])
    (hsteps : Relation.ReflTransGen t.IsInside m s) : t.Wraps s m ∧ t.children s ≠ [] := by
  induction hsteps with
  | refl => exact ⟨.refl, hm⟩
  | tail _ hinside ih =>
    obtain ⟨hwraps, hchildren⟩ := ih
    obtain ⟨hinside, rfl⟩ := hinside
    have hencloses := h.encloses _ hinside hchildren
    exact ⟨hwraps.head hencloses, (h.enclosed _ _ hencloses).2.2⟩

/-- A binary expression is an operand of another one exactly if that one is its parent, both through
    parentheses. -/
theorem hasOperand_iff (h : t.Linked) {b c : Binary} (hr : t.binary? r = some b)
    (hm : t.binary? m = some c) : t.HasOperand r m ↔ t.HasParent m r := by
  refine ⟨h.hasParent_of_hasOperand, ?_⟩
  rintro ⟨top, hsteps, rfl⟩
  obtain ⟨hwraps, hchildren⟩ := h.wraps_of_isInside (h.operands m c hm).2.2.2 hsteps
  refine ⟨b, hr, ?_⟩
  rcases h.operand top b hr hchildren with rfl | rfl
  · exact .inl hwraps
  · exact .inr hwraps

end Linked

end Tree

end TypeLint.Syntax
