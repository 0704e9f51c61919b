import TypeLint.Proofs.Lint.Indifference
import TypeLint.Proofs.Lint.Noninterference
import TypeLint.Proofs.Types.Canonical
import TypeLint.Proofs.Values.Verdicts

namespace TypeLint

open Syntax Binding TypeLint.Types

theorem Types.Flags.intersects_of_contains {a b : Flags} (hb : b.isEmpty = false)
    (h : a.contains b = true) : a.intersects b = true := by
  rw [Flags.contains, beq_iff_eq] at h
  rw [Flags.intersects, h]
  exact bne_iff_ne.mpr (beq_eq_false_iff_ne.mp hb)

namespace Types.Store

variable {s : Store} {id part : TypeId}

section

variable (h : s.Normal)

include h

/-- Only `undefined` has its flag. -/
theorem Normal.intersects_undefined_iff :
    (s.flagsOf id).intersects .undefined = true ↔ id = TypeId.undefined := by
  constructor
  · intro hflag
    have hnullish : (s.flagsOf id).intersects (Flags.void ∪ Flags.nullable) = true := by
      rw [Flags.nullable, Flags.intersects_union, Flags.intersects_union, hflag, Bool.or_true,
        Bool.or_true]
    have hvoid : Flags.void.intersects .undefined = false := by decide
    have hnull : Flags.null.intersects .undefined = false := by decide
    rcases lookup_of_flagsOf hnullish with hdata | hdata | hdata
    · rw [flagsOf, hdata] at hflag
      cases hvoid.symm.trans hflag
    · exact Store.unique hdata (h.initial.lookup_eq_some (by decide))
    · rw [flagsOf, hdata] at hflag
      cases hnull.symm.trans hflag
  · rintro rfl
    rw [flagsOf_undefined h.initial]
    decide

theorem Normal.contains_undefined_iff :
    (s.flagsOf id).contains .undefined = true ↔ id = TypeId.undefined := by
  constructor
  · intro hflag
    exact h.intersects_undefined_iff.mp (Flags.intersects_of_contains (by decide) hflag)
  · rintro rfl
    rw [flagsOf_undefined h.initial]
    decide

theorem Normal.hasFlag_undefined_iff :
    s.hasFlag id .undefined = true ↔ TypeId.undefined ∈ s.unionMembers id := by
  rw [hasFlag, List.any_eq_true]
  constructor
  · rintro ⟨part, hpart, hflag⟩
    exact h.intersects_undefined_iff.mp hflag ▸ hpart
  · exact fun hmem => ⟨_, hmem, h.intersects_undefined_iff.mpr rfl⟩

end

end Types.Store

/-- The oracle of a project with the option set as given. -/
def Oracle.withExactness (t : Oracle) (exact : Bool) : Oracle :=
  { t with options := { t.options with exactOptionalPropertyTypes := exact } }

theorem Oracle.Closed.withExactness {t : Oracle} (h : t.Closed) (exact : Bool) :
    (t.withExactness exact).Closed :=
  { h with }

namespace Rules.TypeAssertion

variable {s : Store} {t : Oracle} {uncast cast id part : TypeId}

theorem mem_definedParts_iff (h : s.Normal) :
    part ∈ definedParts s id ↔ part ∈ s.unionMembers id ∧ part ≠ TypeId.undefined := by
  rw [definedParts, List.mem_filter, Bool.not_eq_true', Bool.eq_false_iff, ne_eq,
    h.contains_undefined_iff]

theorem nodup_definedParts (h : s.Canonical) (id : TypeId) : (definedParts s id).Nodup := by
  refine List.Nodup.filter _ ?_
  exact (h.pairwise_members .union id).imp Nat.ne_of_lt

/-- Types with the same parts besides `undefined` are the same if both have it. -/
theorem eq_of_definedParts (h : s.Canonical) (huncast : TypeId.undefined ∈ s.unionMembers uncast)
    (hcast : TypeId.undefined ∈ s.unionMembers cast)
    (hmem : ∀ part, part ∈ definedParts s uncast ↔ part ∈ definedParts s cast) :
    uncast = cast := by
  refine h.eq_of_members (c := .union) fun part => ?_
  change part ∈ s.unionMembers uncast ↔ part ∈ s.unionMembers cast
  by_cases hpart : part = TypeId.undefined
  · rw [hpart]
    exact iff_of_true huncast hcast
  · have hiff := hmem part
    rwa [mem_definedParts_iff h.toNormal, mem_definedParts_iff h.toNormal, and_iff_left hpart,
      and_iff_left hpart] at hiff

/-- Only a type is unchanged by an assertion to it. -/
theorem isUnchanged_iff (h : s.Made) (options : CompilerOptions) :
    isUnchanged s options uncast cast = true ↔ uncast = cast := by
  constructor
  · intro hunchanged
    rw [isUnchanged, Bool.or_eq_true, beq_iff_eq] at hunchanged
    refine hunchanged.elim id fun hparts => ?_
    simp only [Bool.and_eq_true, beq_iff_eq, List.all_eq_true, List.contains_iff_mem] at hparts
    obtain ⟨⟨⟨⟨-, huncast⟩, hcast⟩, hlength⟩, hsubset⟩ := hparts
    -- Of two lists as long as each other, the one inside the other has all of it.
    have hperm := ((nodup_definedParts h.canonical cast).subperm hsubset).perm_of_length_le
      hlength.le
    exact eq_of_definedParts h.canonical (h.normal.hasFlag_undefined_iff.mp huncast)
      (h.normal.hasFlag_undefined_iff.mp hcast) fun part => hperm.mem_iff.symm
  · rintro rfl
    rw [isUnchanged, beq_self_eq_true, Bool.true_or]

theorem isUnnecessary_withExactness (h : t.store.Made) (exact : Bool) (f : SourceFile)
    (r : NodeRef) (a : Assertion) (uncast cast : TypeId) :
    isUnnecessary f (t.withExactness exact) r a uncast cast =
      isUnnecessary f t r a uncast cast := by
  have hunchanged : isUnchanged t.store (t.withExactness exact).options uncast cast =
      isUnchanged t.store t.options uncast cast :=
    Bool.eq_iff_iff.mpr ((isUnchanged_iff h _).trans (isUnchanged_iff h _).symm)
  rw [isUnnecessary, isUnnecessary, ← hunchanged]
  rfl

/-- The oracles of a project with the option and without it. -/
def exactnesses (t : Oracle) : Set (Option Oracle) :=
  Set.range fun exact => some (t.withExactness exact)

theorem indifferent_check (h : t.store.Made) (file : SourceFile) (o : Options) (r : NodeRef) :
    (check o r).Indifferent file (exactnesses t) := by
  refine Check.indifferent_bind Check.indifferent_file fun f => ?_
  split
  · exact Check.indifferent_pure _
  · refine Check.indifferent_bind (Check.indifferent_orFail _ _) fun a => ?_
    split_ifs
    · exact Check.indifferent_pure _
    · have htype (r : NodeRef) : (Check.typeAt r).Indifferent file (exactnesses t) := by
        refine Check.indifferent_typeAt t ?_
        rintro _ ⟨exact, rfl⟩
        exact ⟨_, rfl, rfl⟩
      refine Check.indifferent_bind_oracle t ?_ (Check.indifferent_bind (htype r) fun cast => ?_)
      · rintro _ ⟨exact, rfl⟩
        refine ⟨_, rfl, ?_⟩
        simp only [isUnnecessary_withExactness h]
        rfl
      split_ifs
      · exact Check.indifferent_pure _
      · refine Check.indifferent_bind (htype a.expression) fun uncast => ?_
        split_ifs
        · split
          · exact Check.indifferent_pure _
          · exact Check.indifferent_fail _
        · exact Check.indifferent_pure _

/-- Where types are made by constructors, an assertion leaves a type unchanged only if it asserts
    this very type, whatever the options are. The rule alone therefore reports the same with
    `exactOptionalPropertyTypes` and without it, and so it does in a linter of the library, whenever
    the linter comes to an end. -/
theorem isUnchanged_iff_and_reports_eq (h : t.store.Made) :
    (∀ options uncast cast, isUnchanged t.store options uncast cast = true ↔ uncast = cast) ∧
    ∀ (o : Options) (category : Category), t.Closed → ∀ file, ∃ reported,
      (∀ exact, Linter.outcome ⟨[⟨rule o, category⟩]⟩ file (some (t.withExactness exact)) =
        .ok (.ok reported)) ∧
      ∀ l : Linter, l.OfLibrary → l.ruleNames.Nodup → ⟨rule o, category⟩ ∈ l.rules → ∀ exact,
        (file.Divisible → file.tree.Grounded → ∃ found oracle,
          l.lint file (some (t.withExactness exact)) = .ok (.ok (found, oracle))) ∧
        ∀ found oracle, l.lint file (some (t.withExactness exact)) = .ok (.ok (found, oracle)) →
          found.filter (·.rule == info.name) = reported := by
  refine ⟨fun options _ _ => isUnchanged_iff h options, fun o category ht file => ?_⟩
  have halike : ∀ rule' ∈ [(⟨rule o, category⟩ : ConfiguredRule)],
      rule'.rule.Indifferent file (exactnesses t) :=
    List.forall_mem_singleton.mpr ⟨Check.indifferent_pure _, indifferent_check h file o⟩
  obtain ⟨reported, halone⟩ : ∃ reported, ∀ exact,
      Linter.outcome ⟨[⟨rule o, category⟩]⟩ file (some (t.withExactness exact)) =
        .ok (.ok reported) := by
    have hends (exact : Bool) : ∃ found oracle,
        Linter.lint ⟨[⟨rule o, category⟩]⟩ file (some (t.withExactness exact)) =
          .ok (.ok (found, oracle)) :=
      Linter.exists_lint <| List.forall_mem_singleton.mpr
        ⟨Check.survives_pure trivial, fun r _ _ _ => survives_check (ht.withExactness exact) o r⟩
    obtain ⟨all, vs, hall⟩ | ⟨c, hcrash⟩ := Linter.lookAt_indifferent (l := ⟨_⟩) halike
    · exact ⟨_, fun exact => Linter.outcome_of_lint
        (Linter.lint_of_lookAt (.inl rfl) (hall _ ⟨exact, rfl⟩))⟩
    · obtain ⟨found, oracle, hlint⟩ := hends true
      obtain ⟨all, vs, hall, -⟩ := Linter.lint_eq_ok hlint
      cases hall.symm.trans (hcrash _ ⟨true, rfl⟩)
  refine ⟨reported, halone, fun l hl hnames hrule exact => ?_⟩
  refine ⟨fun hfile htree => ?_, fun found oracle hlint => ?_⟩
  · obtain ⟨found, hfound⟩ :=
      hl.exists_outcome (ht.withExactness exact) h.ordered.grounded hfile htree
    exact ⟨found, Linter.lint_of_outcome hfound⟩
  · -- What the rule reports among others is what it reports alone.
    have hown := hl.outcome_alone hnames (ht.withExactness exact) hlint hrule
    exact (Except.ok.inj (Except.ok.inj (hown.symm.trans (halone exact))))

/-- A store with `undefined | string` and `undefined | number`. -/
def maybeStore : Store :=
  Store.initial.serve [.union [TypeId.undefined, TypeId.string],
    .union [TypeId.undefined, TypeId.number]]

theorem made_maybeStore : maybeStore.Made := Store.Made.initial.serve (by decide)

/-- `x as T;` -/
def asserting : TypeLint.Program := [.statement (.expression (.asType (.identifier "x") "T"))]

/-- A table with the types of `x` and of `T`. -/
def assertingTable (uncast cast : TypeId) : TypeTable :=
  { TypeTable.new .strict with
    store := maybeStore
    nodeTypes := [(some 0, uncast), (some 4, cast)] }

theorem closed_assertingTable (huncast : maybeStore.Known uncast) (hcast : maybeStore.Known cast) :
    (assertingTable uncast cast).Closed :=
  TypeTable.closed_of_nodeTypes made_maybeStore.normal.closed
    (List.forall_mem_cons.mpr ⟨huncast, List.forall_mem_singleton.mpr hcast⟩) .strict

/-- The rules about assertions of both kinds. -/
def bothAssertions : Linter :=
  ⟨[⟨rule .default, .warning⟩, ⟨NonNullAssertion.rule, .error⟩]⟩

theorem bothAssertions_ofLibrary : bothAssertions.OfLibrary := by
  rintro _ (_ | ⟨_, _ | ⟨_, ⟨⟩⟩⟩)
  · exact ⟨"no-unnecessary-type-assertion", .null, rfl⟩
  · exact ⟨"no-unnecessary-non-null-assertion", .null, rfl⟩

/-- The assertion is reported if `x` and `T` have the same type, and it is not if they differ in
    the other part than `undefined`. -/
theorem isUnchanged_iff_and_reports_eq_maybe :
    ∃ b, Program.build "a.ts" asserting = .ok b ∧ maybeStore.Made ∧
      bothAssertions.OfLibrary ∧ bothAssertions.ruleNames.Nodup ∧ b.file.Divisible ∧
      b.file.tree.Grounded ∧
      ∀ cast ∈ [14, 15], (assertingTable 14 cast).oracle.Closed ∧ ∃ reported,
        (reported = [] ↔ cast = 15) ∧ ∀ exact, ∃ found oracle,
          bothAssertions.lint b.file (some ((assertingTable 14 cast).oracle.withExactness exact)) =
            .ok (.ok (found, oracle)) ∧ found.filter (·.rule == info.name) = reported := by
  have hnames : bothAssertions.ruleNames.Nodup := by decide
  have hknown : ∀ cast ∈ [14, 15], maybeStore.Known cast := by decide
  have hp : Program.Disciplined asserting := by decide
  obtain ⟨b, hb⟩ := Program.exists_build "a.ts" (p := asserting) (by decide)
  have hf := (Program.shown_of_build hb).1
  have hreports := Program.of_build hb (fun b => ∀ cast ∈ ([14, 15] : List TypeId),
    (((Linter.outcome ⟨[⟨rule .default, .warning⟩]⟩ b.file
      (some ((assertingTable 14 cast).oracle.withExactness true))).toOption.bind
        (·.toOption)).map List.isEmpty) = some (cast == 15))
    (by decide +kernel)
  refine ⟨b, hb, made_maybeStore, bothAssertions_ofLibrary, hnames, hf.divisible hp, hf.grounded hp,
    fun cast hcast => ?_⟩
  have hclosed : (assertingTable 14 cast).oracle.Closed :=
    (closed_assertingTable (by decide) (hknown cast hcast)).oracle
  obtain ⟨-, hsame⟩ :=
    isUnchanged_iff_and_reports_eq (t := (assertingTable 14 cast).oracle) made_maybeStore
  obtain ⟨reported, halone, hamong⟩ := hsame .default .warning hclosed b.file
  refine ⟨hclosed, reported, ?_, fun exact => ?_⟩
  · have hempty := hreports cast hcast
    rw [halone true] at hempty
    rwa [Except.toOption, Option.bind_some, Except.toOption, Option.map_some, Option.some_inj,
      Bool.eq_iff_iff, List.isEmpty_iff, beq_iff_eq] at hempty
  · obtain ⟨hends, hown⟩ :=
      hamong bothAssertions bothAssertions_ofLibrary hnames List.mem_cons_self exact
    obtain ⟨found, oracle, hlint⟩ := hends (hf.divisible hp) (hf.grounded hp)
    exact ⟨found, oracle, hlint, hown found oracle hlint⟩

end Rules.TypeAssertion

end TypeLint
