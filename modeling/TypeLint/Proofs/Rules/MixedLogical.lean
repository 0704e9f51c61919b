import TypeLint.Proofs.Lint.Runs
import TypeLint.Proofs.Program.Operands
import TypeLint.Rules.NullishCoalescing

namespace TypeLint.Rules.NullishCoalescing

open Syntax Program

/-- An expression `a && b`. -/
def IsAnd (t : Tree) (r : NodeRef) : Prop := t.binaryOperator? r = some .ampersandAmpersandToken

/-- An expression `a || b`. -/
def IsOr (t : Tree) (r : NodeRef) : Prop := t.binaryOperator? r = some .barBarToken

/-- The search comes by the second node when it is at the first one. -/
def ComesBy (t : Tree) (r a : NodeRef) : Prop := ∃ rs, neighbours t r = .ok rs ∧ a ∈ rs

/-- Takes a node from the stack. One that has been seen is passed over, the search ends with one
    that has `&&`, and the neighbours of one that has `||` are put on the stack, unless there is no
    end to looking for them. -/
def mixStep (t : Tree) (push : List NodeRef → List NodeRef → List NodeRef) :
    List NodeRef × List NodeRef → (List NodeRef × List NodeRef) ⊕ Result Bool
  | (_, []) => .inr (.ok false)
  | (seen, r :: stack) =>
    if seen.contains r then .inl (seen, stack)
    else
      match t.binaryOperator? r with
      | some .ampersandAmpersandToken => .inr (.ok true)
      | some .barBarToken =>
        match neighbours t r with
        | .ok rs => .inl (r :: seen, push rs stack)
        | .error c => .inr (.error c)
      | _ => .inl (r :: seen, stack)

/-- The expression can be reached through expressions with `||`. -/
def Reaches (t : Tree) : NodeRef → NodeRef → Prop :=
  Relation.ReflTransGen fun m m' => ComesBy t m m' ∧ IsOr t m'

/-- An expression with `&&` is a neighbour of one that can be reached. -/
def Finds (t : Tree) (n : NodeRef) : Prop := ∃ m, Reaches t n m ∧ ∃ a, ComesBy t m a ∧ IsAnd t a

variable {t : Tree} {push : List NodeRef → List NodeRef → List NodeRef} {n m r a : NodeRef}
  {seen stack rs : List NodeRef}

theorem not_isOr_of_isAnd (h : IsAnd t r) : ¬IsOr t r := fun hor => by cases h.symm.trans hor

theorem exists_of_isOr (h : IsOr t r) : ∃ i, r = some i ∧ i < t.size := by
  obtain ⟨b, hb, -⟩ := Option.map_eq_some_iff.mp h
  obtain ⟨k, hk, -⟩ := Option.bind_eq_some_iff.mp hb
  exact Tree.exists_of_get? hk

/-- The neighbours of a binary expression are its operands inside of parentheses and the expression
    around it, and those of any other node are what is around it alone. -/
theorem neighbours_eq_ok (h : neighbours t r = .ok rs) :
    (t.binary? r = none ∧ rs = [t.parent (t.walkUpParentheses r)]) ∨
      ∃ b left right, t.binary? r = some b ∧ t.skipParentheses b.right = .ok right ∧
        t.skipParentheses b.left = .ok left ∧
        rs = [right, left, t.parent (t.walkUpParentheses r)] := by
  rw [neighbours] at h
  cases hb : t.binary? r with
  | none =>
    rw [hb] at h
    cases h
    exact .inl ⟨rfl, rfl⟩
  | some b =>
    rw [hb] at h
    simp only [List.mapM_cons, List.mapM_nil, Result.bind_eq_ok_iff] at h
    obtain ⟨operands, ⟨right, hright, others, ⟨left, hleft, last, hlast, hothers⟩, hoperands⟩, h⟩ := h
    cases hlast
    cases hothers
    cases hoperands
    cases h
    exact .inr ⟨b, left, right, rfl, hright, hleft, rfl⟩

theorem exists_neighbours
    (h : ∀ b, t.binary? r = some b →
      (∃ right, t.skipParentheses b.right = .ok right) ∧
        ∃ left, t.skipParentheses b.left = .ok left) :
    ∃ rs, neighbours t r = .ok rs := by
  rw [neighbours]
  cases hb : t.binary? r with
  | none => exact ⟨_, rfl⟩
  | some b =>
    obtain ⟨⟨right, hright⟩, left, hleft⟩ := h b hb
    simp only [List.mapM_cons, List.mapM_nil, hright, hleft]
    exact ⟨_, rfl⟩

/-- What a step does with the node that it takes from the stack. -/
theorem mixStep_cons (t : Tree) (push : List NodeRef → List NodeRef → List NodeRef)
    (seen : List NodeRef) (r : NodeRef) (stack : List NodeRef) :
    (r ∈ seen ∧ mixStep t push (seen, r :: stack) = .inl (seen, stack)) ∨
      (r ∉ seen ∧ IsAnd t r ∧ mixStep t push (seen, r :: stack) = .inr (.ok true)) ∨
      (r ∉ seen ∧ IsOr t r ∧ ∃ rs, neighbours t r = .ok rs ∧
        mixStep t push (seen, r :: stack) = .inl (r :: seen, push rs stack)) ∨
      (r ∉ seen ∧ IsOr t r ∧ ∃ c, neighbours t r = .error c ∧
        mixStep t push (seen, r :: stack) = .inr (.error c)) ∨
      (r ∉ seen ∧ ¬IsAnd t r ∧ ¬IsOr t r ∧
        mixStep t push (seen, r :: stack) = .inl (r :: seen, stack)) := by
  rw [mixStep]
  by_cases hseen : r ∈ seen
  · exact .inl ⟨hseen, if_pos (List.contains_iff_mem.mpr hseen)⟩
  · rw [if_neg (mt List.contains_iff_mem.mp hseen)]
    split
    · next hand => exact .inr (.inl ⟨hseen, hand, rfl⟩)
    · next hor =>
      split
      · next rs hrs => exact .inr (.inr (.inl ⟨hseen, hor, rs, hrs, rfl⟩))
      · next c hc => exact .inr (.inr (.inr (.inl ⟨hseen, hor, c, hc, rfl⟩)))
    · next hand hor => exact .inr (.inr (.inr (.inr ⟨hseen, hand, hor, rfl⟩)))

/-- How many nodes of the tree have not been seen. -/
def unseen (t : Tree) (seen : List NodeRef) : Nat := (t.refs.filter fun r => r ∉ seen).length

theorem unseen_cons_le (t : Tree) (r : NodeRef) (seen : List NodeRef) :
    unseen t (r :: seen) ≤ unseen t seen := by
  refine (List.monotone_filter_right t.refs fun x hx => ?_).length_le
  simp only [decide_eq_true_eq, List.mem_cons, not_or] at hx ⊢
  exact hx.2

theorem unseen_cons_lt (h : IsOr t r) (hr : r ∉ seen) : unseen t (r :: seen) < unseen t seen := by
  have hfilter : (t.refs.filter fun x => x ∉ r :: seen) =
      (t.refs.filter fun x => x ∉ seen).filter fun x => x ≠ r := by
    rw [List.filter_filter]
    exact List.filter_congr fun x _ => by simp
  obtain ⟨i, rfl, hi⟩ := exists_of_isOr h
  rw [unseen, unseen, hfilter, List.length_filter_lt_length_iff_exists]
  exact ⟨some i, List.mem_filter.mpr ⟨by simp [Tree.refs, hi], by simpa using hr⟩, by simp⟩

theorem length_neighbours_le (h : neighbours t r = .ok rs) : rs.length ≤ 3 := by
  obtain ⟨-, rfl⟩ | ⟨b, left, right, -, -, -, rfl⟩ := neighbours_eq_ok h <;> simp

/-- What is left to do: to take nodes from the stack, and to come by nodes that have not been seen,
    each of which has at most three neighbours. -/
def work (t : Tree) : List NodeRef × List NodeRef → Nat
  | (seen, stack) => stack.length + 3 * unseen t seen

theorem work_lt (hpush : ∀ rs stack, (push rs stack).Perm (rs ++ stack))
    {s s' : List NodeRef × List NodeRef} (h : mixStep t push s = .inl s') :
    work t s' < work t s := by
  obtain ⟨seen, _ | ⟨r, stack⟩⟩ := s
  · cases h
  · rcases mixStep_cons t push seen r stack with ⟨-, hstep⟩ | ⟨-, -, hstep⟩ |
        ⟨hr, hor, rs, hrs, hstep⟩ | ⟨-, -, c, -, hstep⟩ | ⟨-, -, -, hstep⟩ <;>
      rw [hstep] at h <;> cases h
    · simp only [work, List.length_cons]
      omega
    · have hlength := (hpush rs stack).length_eq
      have hneighbours := length_neighbours_le hrs
      have hless := unseen_cons_lt hor hr
      rw [List.length_append] at hlength
      simp only [work, List.length_cons]
      omega
    · have hle := unseen_cons_le t r seen
      simp only [work, List.length_cons]
      omega

/-- The search ends, in whatever order it puts neighbours on the stack. -/
theorem exists_ends (hpush : ∀ rs stack, (push rs stack).Perm (rs ++ stack))
    (s : List NodeRef × List NodeRef) : ∃ found, Ends (mixStep t push) s found := by
  induction hwork : work t s using Nat.strong_induction_on generalizing s with
  | _ w ih =>
    cases hstep : mixStep t push s with
    | inr found => exact ⟨found, .stop hstep⟩
    | inl s' =>
      obtain ⟨found, hends⟩ := ih _ (hwork ▸ work_lt hpush hstep) s' rfl
      exact ⟨found, .next hstep hends⟩

theorem reachesAnd_succ (t : Tree) (fuel : Nat) (seen stack : List NodeRef) :
    reachesAnd t (fuel + 1) seen stack =
      match mixStep t (· ++ ·) (seen, stack) with
      | .inl (seen, stack) => reachesAnd t fuel seen stack
      | .inr found => found := by
  cases stack with
  | nil => rfl
  | cons r stack =>
    rw [reachesAnd, mixStep]
    split_ifs with hseen
    · rfl
    · generalize t.binaryOperator? r = operator
      split
      · rfl
      · cases neighbours t r <;> rfl
      · simp only

/-- The search with a bound that the work fits in ends by itself. -/
theorem ends_reachesAnd {fuel : Nat} (hfuel : work t (seen, stack) < fuel) :
    Ends (mixStep t (· ++ ·)) (seen, stack) (reachesAnd t fuel seen stack) := by
  induction fuel generalizing seen stack with
  | zero => exact (Nat.not_lt_zero _ hfuel).elim
  | succ fuel ih =>
    rw [reachesAnd_succ]
    cases hstep : mixStep t (· ++ ·) (seen, stack) with
    | inr found => exact .stop hstep
    | inl s' =>
      obtain ⟨seen', stack'⟩ := s'
      have hless := work_lt (fun _ _ => .refl _) hstep
      exact .next hstep (ih (by omega))

/-- The search from an expression: what is on the stack is a neighbour of an expression that can be
    reached, the neighbours of what has been seen have been seen or are on the stack, and nothing
    that has been seen has `&&`. -/
structure Searched (t : Tree) (n : NodeRef) (s : List NodeRef × List NodeRef) : Prop where
  start : n ∈ s.1
  reached : ∀ r ∈ s.2, ∃ m, Reaches t n m ∧ ComesBy t m r
  closed : ∀ m ∈ s.1, IsOr t m → ∀ r, ComesBy t m r → r ∈ s.1 ∨ r ∈ s.2
  noAnd : ∀ r ∈ s.1, ¬IsAnd t r

/-- A step goes on with the search. -/
theorem Searched.step (hpush : ∀ rs stack, (push rs stack).Perm (rs ++ stack))
    {s s' : List NodeRef × List NodeRef} (h : Searched t n s) (hstep : mixStep t push s = .inl s') :
    Searched t n s' := by
  obtain ⟨seen, _ | ⟨r, stack⟩⟩ := s
  · cases hstep
  · obtain ⟨m, hm, hr⟩ := h.reached r List.mem_cons_self
    have hstack (x : NodeRef) (hx : x ∈ stack) := h.reached x (List.mem_cons_of_mem _ hx)
    have hclosed {x : NodeRef} (hx : x ∈ seen) (hor : IsOr t x) {y : NodeRef}
        (hy : ComesBy t x y) : y ∈ r :: seen ∨ y ∈ stack := by
      rcases h.closed x hx hor y hy with hy | hy
      · exact .inl (List.mem_cons_of_mem _ hy)
      · rcases List.mem_cons.mp hy with rfl | hy
        · exact .inl List.mem_cons_self
        · exact .inr hy
    rcases mixStep_cons t push seen r stack with ⟨hseen, heq⟩ | ⟨-, -, heq⟩ |
        ⟨-, hor, rs, hrs, heq⟩ | ⟨-, -, c, -, heq⟩ | ⟨-, hand, hor, heq⟩ <;>
      rw [heq] at hstep <;> cases hstep
    · refine ⟨h.start, hstack, fun x hx hxor y hy => ?_, h.noAnd⟩
      refine (hclosed hx hxor hy).imp_left fun hmem => ?_
      rcases List.mem_cons.mp hmem with rfl | hmem
      · exact hseen
      · exact hmem
    · have hmem (y : NodeRef) : y ∈ push rs stack ↔ y ∈ rs ∨ y ∈ stack := by
        rw [(hpush _ _).mem_iff, List.mem_append]
      refine ⟨List.mem_cons_of_mem _ h.start, fun y hy => ?_, fun x hx hxor y hy => ?_,
        List.forall_mem_cons.mpr ⟨fun hand => not_isOr_of_isAnd hand hor, h.noAnd⟩⟩
      · rcases (hmem y).mp hy with hy | hy
        · exact ⟨r, hm.tail ⟨hr, hor⟩, rs, hrs, hy⟩
        · exact hstack y hy
      · rw [hmem]
        rcases List.mem_cons.mp hx with rfl | hx
        · obtain ⟨rs', hrs', hy⟩ := hy
          cases hrs.symm.trans hrs'
          exact .inr (.inl hy)
        · exact (hclosed hx hxor hy).imp_right .inr
    · refine ⟨List.mem_cons_of_mem _ h.start, hstack, fun x hx hxor y hy => ?_,
        List.forall_mem_cons.mpr ⟨hand, h.noAnd⟩⟩
      rcases List.mem_cons.mp hx with rfl | hx
      · exact (hor hxor).elim
      · exact hclosed hx hxor hy

/-- Everything that can be reached has been seen when the stack is empty. -/
theorem Searched.mem_of_reaches (h : Searched t n (seen, [])) (hn : IsOr t n)
    (hm : Reaches t n m) : m ∈ seen ∧ IsOr t m := by
  induction hm with
  | refl => exact ⟨h.start, hn⟩
  | tail _ hnext ih =>
    refine ⟨(h.closed _ ih.1 ih.2 _ hnext.1).resolve_right List.not_mem_nil, hnext.2⟩

/-- The search ends with whether there is an expression with `&&` to be found. -/
theorem Searched.found_iff (hpush : ∀ rs stack, (push rs stack).Perm (rs ++ stack))
    {s : List NodeRef × List NodeRef} {found : Bool} (h : Searched t n s) (hn : IsOr t n)
    (hends : Ends (mixStep t push) s (.ok found)) : found = true ↔ Finds t n := by
  generalize hresult : (.ok found : Result Bool) = result at hends
  induction hends with
  | @next s s' result hstep rest ih => exact ih (h.step hpush hstep) hresult
  | @stop s result hstop =>
    subst hresult
    obtain ⟨seen, _ | ⟨r, stack⟩⟩ := s
    · cases hstop
      refine iff_of_false Bool.false_ne_true ?_
      rintro ⟨m, hm, a, ha, hand⟩
      obtain ⟨hseen, hor⟩ := h.mem_of_reaches hn hm
      exact h.noAnd a ((h.closed m hseen hor a ha).resolve_right List.not_mem_nil) hand
    · rcases mixStep_cons t push seen r stack with ⟨-, heq⟩ | ⟨-, hand, heq⟩ |
        ⟨-, -, rs, -, heq⟩ | ⟨-, -, c, -, heq⟩ | ⟨-, -, -, heq⟩ <;>
      rw [heq] at hstop <;> cases hstop
      obtain ⟨m, hm, hr⟩ := h.reached r List.mem_cons_self
      exact iff_of_true rfl ⟨m, hm, r, hr, hand⟩

/-- The search begins with the neighbours of the expression. -/
theorem searched_start (hpush : ∀ rs stack, (push rs stack).Perm (rs ++ stack)) (hn : IsOr t n)
    (hrs : neighbours t n = .ok rs) : Searched t n ([n], push rs []) := by
  have hmem (r : NodeRef) : r ∈ push rs [] ↔ r ∈ rs := by
    rw [(hpush _ _).mem_iff, List.append_nil]
  refine ⟨List.mem_singleton_self n, fun r hr => ⟨n, .refl, rs, hrs, (hmem r).mp hr⟩, ?_, ?_⟩
  · rintro m hm - r ⟨rs', hrs', hr⟩
    rw [List.mem_singleton.mp hm] at hrs'
    cases hrs.symm.trans hrs'
    exact .inr ((hmem r).mpr hr)
  · rw [List.forall_mem_singleton]
    exact fun hand => not_isOr_of_isAnd hand hn

/-- The bound of the search is never reached. -/
theorem ends_append (hrs : neighbours t n = .ok rs) :
    Ends (mixStep t (· ++ ·)) ([n], rs ++ []) (isMixedLogical t n) := by
  rw [List.append_nil, isMixedLogical, hrs]
  refine ends_reachesAnd ?_
  have hneighbours := length_neighbours_le hrs
  have hunseen : unseen t [n] ≤ t.size := by
    have hfilter := t.refs.length_filter_le fun r => r ∉ [n]
    have hrefs : t.refs.length = t.size := by simp [Tree.refs]
    rw [unseen]
    omega
  simp only [work]
  omega

section

variable (hreturns : ∀ r, ∃ rs, neighbours t r = .ok rs)

include hreturns

/-- The search gives an answer if looking for neighbours always ends. -/
theorem exists_ok_of_ends {s : List NodeRef × List NodeRef} {result : Result Bool}
    (hends : Ends (mixStep t push) s result) : ∃ found, result = .ok found := by
  induction hends with
  | next _ _ ih => exact ih
  | @stop s result hstop =>
    obtain ⟨seen, _ | ⟨r, stack⟩⟩ := s
    · exact ⟨false, (Sum.inr.inj hstop).symm⟩
    · rcases mixStep_cons t push seen r stack with ⟨-, heq⟩ | ⟨-, -, heq⟩ | ⟨-, -, rs, -, heq⟩ |
          ⟨-, -, c, hc, heq⟩ | ⟨-, -, -, heq⟩ <;> rw [heq] at hstop <;> cases hstop
      · exact ⟨true, rfl⟩
      · obtain ⟨rs, hrs⟩ := hreturns r
        cases hrs.symm.trans hc

theorem exists_isMixedLogical (n : NodeRef) : ∃ found, isMixedLogical t n = .ok found := by
  obtain ⟨rs, hrs⟩ := hreturns n
  exact exists_ok_of_ends hreturns (ends_append hrs)

theorem isMixedLogical_iff (hn : IsOr t n) : isMixedLogical t n = .ok true ↔ Finds t n := by
  obtain ⟨rs, hrs⟩ := hreturns n
  obtain ⟨found, hfound⟩ := exists_isMixedLogical hreturns n
  have hpush : ∀ rs stack : List NodeRef, (rs ++ stack).Perm (rs ++ stack) := fun _ _ => .refl _
  rw [← (searched_start hpush hn hrs).found_iff hpush hn (hfound ▸ ends_append hrs), hfound,
    Except.ok.injEq]

/-- In whatever order the search puts neighbours on the stack, it ends with the same answer. -/
theorem ends_isMixedLogical (hpush : ∀ rs stack, (push rs stack).Perm (rs ++ stack))
    (hn : IsOr t n) (hrs : neighbours t n = .ok rs) :
    Ends (mixStep t push) ([n], push rs []) (isMixedLogical t n) := by
  obtain ⟨result, hends⟩ := exists_ends hpush (t := t) ([n], push rs [])
  obtain ⟨found, rfl⟩ := exists_ok_of_ends hreturns hends
  obtain ⟨answer, hanswer⟩ := exists_isMixedLogical hreturns n
  have hfound := (searched_start hpush hn hrs).found_iff hpush hn hends
  rw [← isMixedLogical_iff hreturns hn, hanswer, Except.ok.injEq, ← Bool.eq_iff_iff] at hfound
  rwa [hanswer, ← hfound]

end

/-- One of two expressions with `||` is an operand of the other one, perhaps in parentheses. -/
def Joins (t : Tree) (m m' : NodeRef) : Prop :=
  IsOr t m ∧ IsOr t m' ∧ (t.HasOperand m m' ∨ t.HasParent m m')

/-- The expressions belong to one group of expressions with `||`. -/
def Connected (t : Tree) : NodeRef → NodeRef → Prop := Relation.ReflTransGen (Joins t)

/-- An expression with `&&` is an operand of the expression or its parent, perhaps with parentheses
    in between. -/
def Touches (t : Tree) (m : NodeRef) : Prop :=
  ∃ a, IsAnd t a ∧ (t.HasOperand m a ∨ t.HasParent m a)

theorem isOr_of_connected (hn : IsOr t n) (hm : Connected t n m) : IsOr t m := by
  cases hm with
  | refl => exact hn
  | tail _ hjoins => exact hjoins.2.1

section

variable (h : t.Linked)

include h

theorem enterStep_of_binary? {b : Binary} (hb : t.binary? r = some b) :
    t.enterStep r = .inr r := by
  rw [Tree.enterStep]
  split
  · next inner hinner =>
    have hkind := (h.enclosed r inner hinner).2.1
    rw [(h.operands r b hb).2.2.1] at hkind
    cases hkind
  · rfl

/-- Where links and parents agree, looking for neighbours ends. -/
theorem exists_neighbours_of_linked (r : NodeRef) : ∃ rs, neighbours t r = .ok rs :=
  exists_neighbours fun b _ => ⟨h.exists_skipParentheses b.right, h.exists_skipParentheses b.left⟩

/-- The neighbours of a binary expression that are binary expressions are those that it has as
    operands or as its parent, through parentheses. -/
theorem comesBy_iff {b c : Binary} (hm : t.binary? m = some b) (ha : t.binary? a = some c) :
    ComesBy t m a ↔ t.HasOperand m a ∨ t.HasParent m a := by
  have hkind : t.kind? a ≠ some .parenthesizedExpression := by
    rw [(h.operands a c ha).2.2.1]
    decide
  have henter := enterStep_of_binary? h ha
  have hoperand : t.HasOperand m a ↔
      t.skipParentheses b.left = .ok a ∨ t.skipParentheses b.right = .ok a := by
    rw [Tree.skipParentheses_eq_iff henter, Tree.skipParentheses_eq_iff henter, Tree.HasOperand, hm]
    simp
  rw [hoperand, ← h.parent_walkUpParentheses_eq_iff hkind]
  obtain ⟨rs, hrs⟩ := exists_neighbours_of_linked h m
  obtain ⟨hnone, -⟩ | ⟨b', left, right, hb', hright, hleft, rfl⟩ := neighbours_eq_ok hrs
  · cases hnone.symm.trans hm
  · cases hb'.symm.trans hm
    simp only [ComesBy, hrs, Except.ok.injEq, exists_eq_left', hleft, hright, List.mem_cons,
      List.not_mem_nil, or_false, eq_comm (a := a)]
    rw [← or_assoc, or_comm (a := right = a)]

theorem joins_iff (hm : IsOr t m) : Joins t m r ↔ ComesBy t m r ∧ IsOr t r := by
  obtain ⟨b, hb, -⟩ := Option.map_eq_some_iff.mp hm
  constructor
  · rintro ⟨-, hr, hjoined⟩
    obtain ⟨c, hc, -⟩ := Option.map_eq_some_iff.mp hr
    exact ⟨(comesBy_iff h hb hc).mpr hjoined, hr⟩
  · rintro ⟨hcomes, hr⟩
    obtain ⟨c, hc, -⟩ := Option.map_eq_some_iff.mp hr
    exact ⟨hm, hr, (comesBy_iff h hb hc).mp hcomes⟩

theorem touches_iff (hm : IsOr t m) : Touches t m ↔ ∃ a, ComesBy t m a ∧ IsAnd t a := by
  obtain ⟨b, hb, -⟩ := Option.map_eq_some_iff.mp hm
  constructor
  · rintro ⟨a, hand, htouched⟩
    obtain ⟨c, hc, -⟩ := Option.map_eq_some_iff.mp hand
    exact ⟨a, (comesBy_iff h hb hc).mpr htouched, hand⟩
  · rintro ⟨a, hcomes, hand⟩
    obtain ⟨c, hc, -⟩ := Option.map_eq_some_iff.mp hand
    exact ⟨a, hand, (comesBy_iff h hb hc).mp hcomes⟩

/-- What can be reached from an expression with `||` is its group. -/
theorem connected_iff (hn : IsOr t n) : Connected t n m ↔ Reaches t n m := by
  have hor {m : NodeRef} (hm : Reaches t n m) : IsOr t m := by
    cases hm with
    | refl => exact hn
    | tail _ hnext => exact hnext.2
  constructor
  · intro hm
    induction hm with
    | refl => exact .refl
    | tail _ hjoins ih => exact ih.tail ((joins_iff h (hor ih)).mp hjoins)
  · intro hm
    induction hm with
    | refl => exact .refl
    | tail hm hnext ih => exact ih.tail ((joins_iff h (hor hm)).mpr hnext)

/-- Of two expressions that are joined, the one is an operand of the other exactly if that is its
    parent. -/
theorem joins_symm (hjoins : Joins t m r) : Joins t r m := by
  obtain ⟨hm, hr, hjoined⟩ := hjoins
  obtain ⟨b, hb, -⟩ := Option.map_eq_some_iff.mp hm
  obtain ⟨c, hc, -⟩ := Option.map_eq_some_iff.mp hr
  refine ⟨hr, hm, ?_⟩
  rw [h.hasOperand_iff hc hb, ← h.hasOperand_iff hb hc]
  exact hjoined.symm

theorem connected_symm (hm : Connected t n m) : Connected t m n :=
  (Relation.ReflTransGen.swap _ _ hm).lift id fun _ _ => joins_symm h

/-- An expression is mixed exactly if its group touches an expression with `&&`. -/
theorem isMixedLogical_iff_touches (hn : IsOr t n) :
    isMixedLogical t n = .ok true ↔ ∃ m, Connected t n m ∧ Touches t m := by
  rw [isMixedLogical_iff (exists_neighbours_of_linked h) hn, Finds]
  refine exists_congr fun m => ?_
  rw [← connected_iff h hn]
  refine and_congr_right fun hm => ?_
  rw [touches_iff h (isOr_of_connected hn hm)]

/-- All expressions of a group get the same answer. -/
theorem isMixedLogical_eq (hn : IsOr t n) (hm : Connected t n m) :
    isMixedLogical t m = isMixedLogical t n := by
  obtain ⟨found, hfound⟩ := exists_isMixedLogical (exists_neighbours_of_linked h) n
  obtain ⟨found', hfound'⟩ := exists_isMixedLogical (exists_neighbours_of_linked h) m
  have htouches := isMixedLogical_iff_touches h hn
  have htouches' := isMixedLogical_iff_touches h (isOr_of_connected hn hm)
  rw [hfound, Except.ok.injEq] at htouches
  rw [hfound', Except.ok.injEq] at htouches'
  rw [hfound, hfound', Except.ok.injEq, Bool.eq_iff_iff, htouches, htouches']
  refine exists_congr fun r => and_congr_left fun _ => ⟨hm.trans, (connected_symm h hm).trans⟩

end

/-- The options that do not leave alone what is mixed with `&&`. -/
def Options.mixing (o : Options) : Options := { o with ignoreMixedLogicalExpressions := false }

theorem isExempt_mixing (o : Options) (s : Types.Store) (leftType : Types.TypeId)
    (hm : isMixedLogical t m = .ok false) :
    isExempt o.mixing t s m leftType = isExempt o t s m leftType := by
  simp only [isExempt, Options.mixing, hm, Bool.false_eq_true, ite_self]

variable {p : TypeLint.Program} {f : SourceFile}

theorem run_check_of_isOr (hf : Shown p f) (hm : IsOr f.tree m) (o : Options) (mem : Memory) :
    (check o m).run f mem = (checkLogicalOr o m).run f mem := by
  obtain ⟨b, hb, -⟩ := Option.map_eq_some_iff.mp hm
  rw [check, Check.run_bind_of_ok rfl, (hf.linked.operands m b hb).2.2.1]

/-- To an expression that is not mixed the option makes no difference. -/
theorem run_check_mixing (hf : Shown p f) (hor : IsOr f.tree m)
    (hm : isMixedLogical f.tree m = .ok false) (o : Options) (mem : Memory) :
    (check o m).run f mem = (check o.mixing m).run f mem := by
  rw [run_check_of_isOr hf hor, run_check_of_isOr hf hor, checkLogicalOr, checkLogicalOr,
    Check.run_bind_of_ok rfl, Check.run_bind_of_ok rfl]
  simp only [isExempt_mixing o _ _ hm]

theorem checkLogicalOr_gives_nil {o : Options} (ho : o.ignoreMixedLogicalExpressions = true)
    (hm : isMixedLogical f.tree m = .ok true) : (checkLogicalOr o m).Gives f (· = []) := by
  refine Check.gives_bind Check.gives_file ?_
  rintro f rfl
  split
  · exact Check.gives_pure rfl
  · refine Check.gives_bind (Check.gives_any _) fun s _ => ?_
    refine Check.gives_bind (Check.gives_any _) fun leftType _ => ?_
    split_ifs
    · exact Check.gives_pure rfl
    · refine Check.gives_bind (Check.gives_lift _) fun exempt hexempt => ?_
      have hmixed : isExempt o f.tree s m leftType = .ok true := by
        rw [isExempt]
        split_ifs
        · rfl
        · simp [hm, bind, Except.bind, pure, Except.pure]
      cases hmixed.symm.trans hexempt
      exact Check.gives_pure rfl

/-- With the option a mixed expression is never reported. -/
theorem check_gives_nil (hf : Shown p f) (hor : IsOr f.tree m) {o : Options}
    (ho : o.ignoreMixedLogicalExpressions = true) (hm : isMixedLogical f.tree m = .ok true) :
    (check o m).Gives f (· = []) := by
  intro mem reports hreports
  rw [run_check_of_isOr hf hor] at hreports
  exact checkLogicalOr_gives_nil ho hm mem reports hreports

/-- In every built file the loops over parentheses end, and of two binary expressions the one is an
    operand of the other exactly if that is its parent. From every expression with `||` the search
    for `&&` ends, in whatever order it takes up neighbours, and finds one exactly if the group of
    the expression touches one. All expressions of the group get the same answer, and the option to
    leave mixed expressions alone passes over all of them or makes no difference to any. -/
theorem mixed_iff_touches {fileName : String} {p : TypeLint.Program} {b : Built}
    (hb : build fileName p = .ok b) (o : Options) {n : NodeRef} (hn : IsOr b.file.tree n) :
    (∀ r, (∃ m, b.file.tree.skipParentheses r = .ok m ∧ Ends b.file.tree.enterStep r m) ∧
      Ends b.file.tree.outwardStep r (b.file.tree.walkUpParentheses r)) ∧
    (∀ m r, (b.file.tree.binary? m).isSome → (b.file.tree.binary? r).isSome →
      (b.file.tree.HasOperand m r ↔ b.file.tree.HasParent r m)) ∧
    (∃ rs found, neighbours b.file.tree n = .ok rs ∧
      isMixedLogical b.file.tree n = .ok found ∧
      (∀ push : List NodeRef → List NodeRef → List NodeRef,
        (∀ rs stack, (push rs stack).Perm (rs ++ stack)) →
        Ends (mixStep b.file.tree push) ([n], push rs []) (.ok found)) ∧
      (found = true ↔ ∃ m, Connected b.file.tree n m ∧ Touches b.file.tree m) ∧
      ∀ m, Connected b.file.tree n m → isMixedLogical b.file.tree m = .ok found) ∧
    (o.ignoreMixedLogicalExpressions = true →
      (∀ m, Connected b.file.tree n m → (check o m).Gives b.file (· = [])) ∨
      ∀ m, Connected b.file.tree n m → ∀ mem,
        (check o m).run b.file mem = (check o.mixing m).run b.file mem) := by
  have hf := (shown_of_build hb).1
  have h := hf.linked
  obtain ⟨rs, hrs⟩ := exists_neighbours_of_linked h n
  obtain ⟨found, hfound⟩ := exists_isMixedLogical (exists_neighbours_of_linked h) n
  have hmixed {m : NodeRef} (hm : Connected b.file.tree n m) :
      isMixedLogical b.file.tree m = .ok found := (isMixedLogical_eq h hn hm).trans hfound
  have hor {m : NodeRef} (hm : Connected b.file.tree n m) := isOr_of_connected hn hm
  refine ⟨fun r => ⟨?_, h.ends_walkUpParentheses r⟩, fun m r hm hr => ?_,
    ⟨rs, found, hrs, hfound, fun push hpush => ?_, ?_, fun m => hmixed⟩, fun ho => ?_⟩
  · obtain ⟨m, hm⟩ := h.exists_skipParentheses r
    exact ⟨m, hm, Tree.skipParentheses_eq_ok_iff.mp hm⟩
  · obtain ⟨c, hc⟩ := Option.isSome_iff_exists.mp hm
    obtain ⟨d, hd⟩ := Option.isSome_iff_exists.mp hr
    exact h.hasOperand_iff hc hd
  · exact hfound ▸ ends_isMixedLogical (exists_neighbours_of_linked h) hpush hn hrs
  · rw [← isMixedLogical_iff_touches h hn, hfound, Except.ok.injEq]
  · cases found with
    | true => exact .inl fun m hm => check_gives_nil hf (hor hm) ho (hmixed hm)
    | false => exact .inr fun m hm => run_check_mixing hf (hor hm) (hmixed hm) o

/-- An expression with `||` inside another one, around one with `&&`, all in parentheses. -/
def mixedGroup : TypeLint.Program :=
  [.statement (.expression (.binary (.identifier "a") .barBarToken
    (.paren (.binary (.identifier "b") .barBarToken
      (.paren (.paren (.binary (.identifier "c") .ampersandAmpersandToken (.identifier "d"))))))))]

theorem mixed_iff_touches_nested :
    ∃ b rs, build "a.ts" mixedGroup = .ok b ∧ IsOr b.file.tree (some 18) ∧
      Connected b.file.tree (some 18) (some 15) ∧
      isMixedLogical b.file.tree (some 15) = .ok true ∧
      neighbours b.file.tree (some 18) = .ok rs ∧
      Ends (mixStep b.file.tree fun rs stack => rs.reverse ++ stack) ([some 18], rs.reverse ++ [])
        (.ok true) := by
  obtain ⟨b, hb⟩ : ∃ b, build "a.ts" mixedGroup = .ok b := exists_build _ (by decide +kernel)
  obtain ⟨houter, hinner, hand, hparens⟩ :
      b.file.tree.binary? (some 18) = some ⟨some 0, some 1, .barBarToken, some 17⟩ ∧
      b.file.tree.binary? (some 15) = some ⟨some 3, some 4, .barBarToken, some 14⟩ ∧
      b.file.tree.binary? (some 10) = some ⟨some 7, some 8, .ampersandAmpersandToken, some 9⟩ ∧
      ∀ r ∈ [(some 17, some 15), (some 14, some 12), (some 12, some 10)],
        (b.file.tree.get? r.1).bind Node.parenthesized? = some r.2 :=
    of_build hb (fun b =>
      b.file.tree.binary? (some 18) = some ⟨some 0, some 1, .barBarToken, some 17⟩ ∧
      b.file.tree.binary? (some 15) = some ⟨some 3, some 4, .barBarToken, some 14⟩ ∧
      b.file.tree.binary? (some 10) = some ⟨some 7, some 8, .ampersandAmpersandToken, some 9⟩ ∧
      ∀ r ∈ [(some 17, some 15), (some 14, some 12), (some 12, some 10)],
        (b.file.tree.get? r.1).bind Node.parenthesized? = some r.2) (by decide +kernel)
  have hor : IsOr b.file.tree (some 18) := congrArg (Option.map Binary.operator) houter
  have hor' : IsOr b.file.tree (some 15) := congrArg (Option.map Binary.operator) hinner
  have hand' : IsAnd b.file.tree (some 10) := congrArg (Option.map Binary.operator) hand
  have hwraps : b.file.tree.Wraps (some 17) (some 15) :=
    .single (hparens (some 17, some 15) (by simp))
  have hwraps' : b.file.tree.Wraps (some 14) (some 10) :=
    .head (hparens (some 14, some 12) (by simp)) (.single (hparens (some 12, some 10) (by simp)))
  have hconnected : Connected b.file.tree (some 18) (some 15) :=
    .single ⟨hor, hor', .inl ⟨_, houter, .inr hwraps⟩⟩
  have htouches : Touches b.file.tree (some 15) :=
    ⟨some 10, hand', .inl ⟨_, hinner, .inr hwraps'⟩⟩
  obtain ⟨-, -, ⟨rs, found, hrs, -, hends, hiff, hsame⟩, -⟩ :=
    mixed_iff_touches hb Options.default hor
  obtain rfl := hiff.mpr ⟨_, hconnected, htouches⟩
  exact ⟨b, rs, hb, hor, hconnected, hsame _ hconnected, hrs,
    hends (fun rs stack => rs.reverse ++ stack)
      fun rs stack => (List.reverse_perm rs).append_right stack⟩

end TypeLint.Rules.NullishCoalescing
