import TypeLint.Proofs.Syntax.WalksEnd
import TypeLint.Proofs.Types.Printing

namespace TypeLint.Types.Store

open Syntax (Ends)

/-- Printing a type ends with a text: it asks for the texts of the types that this one is made of,
    with no bound on the depth, and the printing of each of these ends. -/
inductive Prints (s : Store) : TypeId → String → Prop where
  | level {id : TypeId} {shown : TypeId → String} (h : ∀ m ∈ s.asked id, s.Prints m (shown m)) :
    s.Prints id (s.textOver shown id)

/-- Goes on to the constraint of a type parameter. -/
def constraintStep (s : Store) (id : TypeId) : TypeId ⊕ TypeId :=
  match s.constraint? id with
  | some bound => .inl bound
  | none => .inr id

variable {s : Store} {id bound : TypeId} {text : String}

/-- The text of a type is made of the texts of the types that it asks for. -/
theorem Made.textOver_text (h : s.Made) (hid : s.Known id) : s.textOver s.text id = s.text id :=
  (h.normal.closed.textOver_congr (.refl s) hid fun _ hm =>
    h.textTo_eq (h.normal.closed.known_of_mem_asked hm)).symm

theorem Prints.eq_text (h : s.Prints id text) (hs : s.Made) (hid : s.Known id) :
    text = s.text id := by
  induction h with
  | @level id shown hasked ih =>
    have hclosed := hs.normal.closed
    rw [← hs.textOver_text hid]
    refine hclosed.textOver_congr (.refl s) hid fun m hm => ?_
    exact ih m hm (hclosed.known_of_mem_asked hm)

theorem prints_boolean (s : Store) : s.Prints TypeId.boolean "boolean" := by
  have hlevel : s.Prints TypeId.boolean (s.textOver s.text TypeId.boolean) := by
    refine .level fun m hm => ?_
    rw [asked_boolean] at hm
    exact absurd hm List.not_mem_nil
  rwa [textOver_boolean] at hlevel

theorem Made.text_boolean (h : s.Made) : s.text TypeId.boolean = "boolean" :=
  text_keyword h.normal.initial (by decide)

/-- The printing of a known type ends, since it goes down to types with smaller numbers and to
    `boolean`, which asks for none. -/
theorem Made.prints_text (h : s.Made) (hid : s.Known id) : s.Prints id (s.text id) := by
  induction id using Nat.strong_induction_on with
  | _ id ih =>
    rw [← h.textOver_text hid]
    refine .level fun m hm => ?_
    rcases h.ordered.lt_of_mem_asked hm with hlt | ⟨rfl, -⟩
    · exact ih m hlt (h.normal.closed.known_of_mem_asked hm)
    · rw [h.text_boolean]
      exact s.prints_boolean

theorem Ordered.constraint?_lt (h : s.Ordered) (hbound : s.constraint? id = some bound) :
    bound < id := by
  rw [constraint?] at hbound
  split at hbound
  · next name constraint hdata =>
    refine h id _ hdata bound ?_
    rw [hbound]
    exact List.mem_singleton_self bound
  · cases hbound

theorem constraintAfter_of_none (hnone : s.constraint? id = none) (steps : Nat) :
    s.constraintAfter steps id = id := by
  cases steps with
  | zero => rfl
  | succ steps => rw [constraintAfter, hnone]

/-- No type is its own constraint, so that a constraint that is there is followed. -/
theorem Ordered.constraintAfter_succ (h : s.Ordered) (hbound : s.constraint? id = some bound)
    (steps : Nat) : s.constraintAfter (steps + 1) id = s.constraintAfter steps bound := by
  rw [constraintAfter, hbound]
  exact if_neg (Nat.ne_of_lt (h.constraint?_lt hbound))

/-- Following constraints ends at a type that has none, in fewer steps than the number of the type
    that it begins with. -/
theorem Ordered.ends_constraintStep (h : s.Ordered) (id : TypeId) :
    ∃ last, Ends s.constraintStep id last ∧ s.constraint? last = none ∧
      ∀ steps, id ≤ steps → s.constraintAfter steps id = last := by
  induction id using Nat.strong_induction_on with
  | _ id ih =>
    cases hbound : s.constraint? id with
    | none =>
      exact ⟨id, .stop (by rw [constraintStep, hbound]), hbound,
        fun steps _ => constraintAfter_of_none hbound steps⟩
    | some bound =>
      have hlt := h.constraint?_lt hbound
      obtain ⟨last, hends, hlast, hafter⟩ := ih bound hlt
      refine ⟨last, .next (by rw [constraintStep, hbound]) hends, hlast, fun steps hsteps => ?_⟩
      obtain ⟨steps, rfl⟩ := Nat.exists_eq_succ_of_ne_zero
        (Nat.ne_zero_of_lt (Nat.lt_of_lt_of_le hlt hsteps))
      rw [h.constraintAfter_succ hbound]
      exact hafter steps (Nat.le_of_lt_succ (Nat.lt_of_lt_of_le hlt hsteps))

/-- In a store that is made, a type mentions only types with smaller numbers. Hence printing a known
    type, which has no bound on its depth, ends, and with its text; and following constraints ends
    at a type that has none, which any number of steps from that of the type on is enough for. -/
theorem Made.descends (h : s.Made) :
    (∀ id data, s.lookup id = some data → ∀ m ∈ data.mentioned, m < id) ∧
    (∀ id, s.Known id → ∀ text, s.Prints id text ↔ text = s.text id) ∧
    ∀ id, s.Known id → ∃ last, Ends s.constraintStep id last ∧ s.Known last ∧
      s.constraint? last = none ∧ ∀ steps, id ≤ steps → s.constraintAfter steps id = last := by
  refine ⟨h.ordered, fun id hid text => ⟨fun hprints => hprints.eq_text h hid, ?_⟩,
    fun id hid => ?_⟩
  · rintro rfl
    exact h.prints_text hid
  · obtain ⟨last, hends, hlast, hafter⟩ := h.ordered.ends_constraintStep id
    refine ⟨last, hends, ?_, hlast, hafter⟩
    rw [← hafter id (Nat.le_refl id)]
    exact h.normal.closed.known_constraintAfter hid id

/-- A store with `"a" | undefined` as the constraint of `T`, which is that of `U`, and with the
    union of `U[]` and `boolean`. -/
def boundedStore : Store :=
  initial.serve [.literalString "a", .union [14, TypeId.undefined], .parameter "T" (some 15),
    .parameter "U" (some 16), .array 17, .union [18, TypeId.boolean]]

theorem descends_bounded :
    boundedStore.Made ∧ boundedStore.Prints 19 "boolean | U[]" ∧
      Ends boundedStore.constraintStep 17 15 ∧ boundedStore.constraint? 15 = none := by
  have hmade : boundedStore.Made := Made.initial.serve (by decide)
  obtain ⟨-, hprints, hconstraints⟩ := hmade.descends
  refine ⟨hmade, (hprints 19 (by decide) _).mpr (by decide), ?_⟩
  obtain ⟨last, hends, -, hnone, hafter⟩ := hconstraints 17 (by decide)
  have hlast : boundedStore.constraintAfter 17 17 = 15 := by decide
  rw [hafter 17 (Nat.le_refl 17)] at hlast
  subst hlast
  exact ⟨hends, hnone⟩

end TypeLint.Types.Store

namespace TypeLint.Types.Store

open Syntax (Ends)

/-- The type that a number of constraints lead to, if there are that many. -/
def constraintAt? (s : Store) : Nat → TypeId → Option TypeId
  | 0, id => some id
  | n + 1, id => (s.constraint? id).bind (s.constraintAt? n)

variable {s s' : Store} {id bound last : TypeId} {length : Nat}

theorem constraintAt?_add (s : Store) (m n : Nat) (id : TypeId) :
    s.constraintAt? (m + n) id = (s.constraintAt? m id).bind (s.constraintAt? n) := by
  induction m generalizing id with
  | zero => rw [Nat.zero_add]; rfl
  | succ m ih =>
    rw [Nat.succ_add, constraintAt?, constraintAt?, Option.bind_assoc]
    exact congrArg _ (funext ih)

/-- Where following constraints ends is the end of a chain. -/
theorem exists_constraintAt?_of_ends (h : Ends s.constraintStep id last) :
    ∃ length, s.constraintAt? length id = some last := by
  induction h with
  | @stop id last hstop =>
    rw [constraintStep] at hstop
    cases hbound : s.constraint? id with
    | none =>
      rw [hbound] at hstop
      exact ⟨0, congrArg some (Sum.inr.inj hstop)⟩
    | some bound =>
      rw [hbound] at hstop
      cases hstop
  | @next id bound last hnext _ ih =>
    obtain ⟨length, hlength⟩ := ih
    rw [constraintStep] at hnext
    cases hbound : s.constraint? id with
    | none =>
      rw [hbound] at hnext
      cases hnext
    | some other =>
      rw [hbound] at hnext
      obtain rfl := Sum.inl.inj hnext
      exact ⟨length + 1, by rw [constraintAt?, hbound, Option.bind_some, hlength]⟩

section

variable (h : s.Ordered)

include h

theorem Ordered.constraintAfter_le (steps : Nat) (id : TypeId) :
    s.constraintAfter steps id ≤ id := by
  induction steps generalizing id with
  | zero => exact Nat.le_refl id
  | succ steps ih =>
    cases hbound : s.constraint? id with
    | none => rw [constraintAfter_of_none hbound]
    | some bound =>
      rw [h.constraintAfter_succ hbound]
      exact Nat.le_trans (ih bound) (Nat.le_of_lt (h.constraint?_lt hbound))

/-- Following constraints leaves exactly the types alone that have none. -/
theorem Ordered.constraintAfter_eq_self_iff {steps : Nat} (hsteps : steps ≠ 0) (id : TypeId) :
    s.constraintAfter steps id = id ↔ s.constraint? id = none := by
  refine ⟨fun heq => ?_, fun hnone => constraintAfter_of_none hnone _⟩
  by_contra hsome
  obtain ⟨steps, rfl⟩ := Nat.exists_eq_succ_of_ne_zero hsteps
  obtain ⟨bound, hbound⟩ := Option.ne_none_iff_exists'.mp hsome
  rw [h.constraintAfter_succ hbound] at heq
  have hle := h.constraintAfter_le steps bound
  rw [heq] at hle
  exact absurd (h.constraint?_lt hbound) (Nat.not_lt_of_le hle)

/-- As many constraints are followed as there are, or as may be followed. -/
theorem Ordered.constraintAt?_min (hlast : s.constraintAt? length id = some last)
    (hnone : s.constraint? last = none) (steps : Nat) :
    s.constraintAt? (min length steps) id = some (s.constraintAfter steps id) := by
  induction steps generalizing id length with
  | zero => rw [Nat.min_zero]; rfl
  | succ steps ih =>
    cases length with
    | zero =>
      obtain rfl := Option.some.inj hlast
      rw [constraintAfter_of_none hnone, Nat.zero_min]
      rfl
    | succ length =>
      obtain ⟨bound, hbound, hrest⟩ := Option.bind_eq_some_iff.mp hlast
      rw [h.constraintAfter_succ hbound, Nat.succ_min_succ, constraintAt?, hbound,
        Option.bind_some, ih hrest]

/-- Following constraints comes to the end of a chain exactly if it may go as far. -/
theorem Ordered.constraint?_constraintAfter_eq_none_iff
    (hlast : s.constraintAt? length id = some last) (hnone : s.constraint? last = none)
    (steps : Nat) :
    s.constraint? (s.constraintAfter steps id) = none ↔ length ≤ steps := by
  have hreached := h.constraintAt?_min hlast hnone steps
  constructor
  · intro hend
    by_contra hlong
    -- The rest of the chain begins with a constraint of the type that has been reached.
    obtain ⟨rest, rfl⟩ := Nat.exists_eq_add_of_lt (Nat.lt_of_not_le hlong)
    rw [Nat.min_eq_right (Nat.le_of_not_le hlong)] at hreached
    rw [Nat.add_assoc, constraintAt?_add, hreached, Option.bind_some, constraintAt?, hend] at hlast
    cases hlast
  · intro hle
    rw [Nat.min_eq_left hle, hlast] at hreached
    rwa [← Option.some.inj hreached]

theorem Ordered.constraintAfter_eq_iff (hlast : s.constraintAt? length id = some last)
    (hnone : s.constraint? last = none) (steps : Nat) :
    s.constraintAfter steps id = last ↔ length ≤ steps := by
  rw [← h.constraint?_constraintAfter_eq_none_iff hlast hnone steps]
  constructor
  · rintro rfl
    exact hnone
  · intro hend
    have hle := (h.constraint?_constraintAfter_eq_none_iff hlast hnone steps).mp hend
    have hreached := h.constraintAt?_min hlast hnone steps
    rw [Nat.min_eq_left hle, hlast] at hreached
    exact (Option.some.inj hreached).symm

end

theorem Extends.constraintAt?_eq (hs : s.Extends s') (h : s.Closed) (hid : s.Known id) (n : Nat) :
    s'.constraintAt? n id = s.constraintAt? n id := by
  induction n generalizing id with
  | zero => rfl
  | succ n ih =>
    rw [constraintAt?, constraintAt?, hs.constraint?_eq hid]
    cases hbound : s.constraint? id with
    | none => rfl
    | some bound =>
      have hknown : s.Known bound := by
        rw [constraint?] at hbound
        split at hbound
        · next hdata => exact h.mentioned _ _ hdata _ (Option.mem_toList.mpr hbound)
        · cases hbound
      exact ih hknown

theorem constraint?_parameter (s : Store) (name : String) (constraint : Option TypeId) :
    (s.parameter name constraint).2.constraint? (s.parameter name constraint).1 = constraint := by
  rw [constraint?, parameter, lookup_intern]

/-- Chains of every length can be made in front of a type. -/
theorem Made.exists_chain (h : s.Made) (hid : s.Known id) (length : Nat) :
    ∃ s' first, s'.Made ∧ s.Extends s' ∧ s'.Known first ∧
      s'.constraintAt? length first = some id := by
  induction length with
  | zero => exact ⟨s, id, h, .refl s, hid, rfl⟩
  | succ length ih =>
    obtain ⟨s', bound, hmade, hs, hbound, hchain⟩ := ih
    have hgrown : s'.Extends (s'.parameter "T" (some bound)).2 := s'.extends_intern _
    refine ⟨(s'.parameter "T" (some bound)).2, (s'.parameter "T" (some bound)).1,
      .intern hmade rfl ?_, hs.trans hgrown, known_of_lookup (s'.lookup_intern _), ?_⟩
    · exact List.forall_mem_singleton.mpr hbound
    · rw [constraintAt?, constraint?_parameter, Option.bind_some,
        hgrown.constraintAt?_eq hmade.normal.closed hbound, hchain]

/-- In a store that is made, the chain of constraints of a known type comes to an end. The type
    stands for this end, for a type without a constraint, and for what that one stands for, exactly
    if the chain has no more constraints than are followed; of a longer chain it stands for the type
    that so many constraints lead to. Chains of every length can be made in front of it. -/
theorem Made.baseConstraint_of_chain (h : s.Made) (hid : s.Known id) :
    (∃ length last, s.constraintAt? length id = some last ∧ s.constraint? last = none) ∧
    (∀ length last, s.constraintAt? length id = some last → s.constraint? last = none →
      s.constraintAt? (min length constraintSteps) id = some (s.baseConstraint id) ∧
      (s.baseConstraint id = last ↔ length ≤ constraintSteps) ∧
      (s.constraint? (s.baseConstraint id) = none ↔ length ≤ constraintSteps) ∧
      (s.baseConstraint (s.baseConstraint id) = s.baseConstraint id ↔
        length ≤ constraintSteps)) ∧
    ∀ length, ∃ s' first, s'.Made ∧ s.Extends s' ∧ s'.Known first ∧
      s'.constraintAt? length first = some id := by
  refine ⟨?_, fun length last hlast hnone => ?_, h.exists_chain hid⟩
  · obtain ⟨last, hends, hnone, -⟩ := h.ordered.ends_constraintStep id
    obtain ⟨length, hlast⟩ := exists_constraintAt?_of_ends hends
    exact ⟨length, last, hlast, hnone⟩
  · have hend := h.ordered.constraint?_constraintAfter_eq_none_iff hlast hnone constraintSteps
    refine ⟨h.ordered.constraintAt?_min hlast hnone constraintSteps,
      h.ordered.constraintAfter_eq_iff hlast hnone constraintSteps, hend, ?_⟩
    rw [← hend]
    exact h.ordered.constraintAfter_eq_self_iff (by decide) (s.baseConstraint id)

/-- A store with a number of type parameters, each of which is the constraint of the next one; that
    of the first one is `string`. -/
def chainStore (length : Nat) : Store :=
  initial.serve ((List.range length).map fun i =>
    .parameter "T" (some (if i = 0 then TypeId.string else TypeId.builtinCount + i - 1)))

theorem baseConstraint_of_chain_full :
    (chainStore 16).Made ∧ (chainStore 16).Known 29 ∧
      (chainStore 16).constraintAt? 16 29 = some TypeId.string ∧
      (chainStore 16).constraint? TypeId.string = none ∧
      (chainStore 16).baseConstraint 29 = TypeId.string := by
  have hmade : (chainStore 16).Made := Made.initial.serve (by decide)
  have hchain : (chainStore 16).Known 29 ∧
      (chainStore 16).constraintAt? 16 29 = some TypeId.string ∧
      (chainStore 16).constraint? TypeId.string = none := by decide
  obtain ⟨-, hall, -⟩ := hmade.baseConstraint_of_chain hchain.1
  obtain ⟨-, hend, -⟩ := hall 16 TypeId.string hchain.2.1 hchain.2.2
  exact ⟨hmade, hchain.1, hchain.2.1, hchain.2.2, hend.mpr (Nat.le_refl 16)⟩

/-- The last of seventeen type parameters stands for the first one, which stands for `string`. -/
theorem baseConstraint_cut :
    (chainStore 17).Made ∧ (chainStore 17).Known 30 ∧
      (chainStore 17).constraintAt? 17 30 = some TypeId.string ∧
      (chainStore 17).constraint? TypeId.string = none ∧
      (chainStore 17).baseConstraint 30 = 14 ∧
      (chainStore 17).constraint? 14 = some TypeId.string ∧
      (chainStore 17).baseConstraint ((chainStore 17).baseConstraint 30) = TypeId.string :=
  ⟨Made.initial.serve (by decide), by decide⟩

end TypeLint.Types.Store
