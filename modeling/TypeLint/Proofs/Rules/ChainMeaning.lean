import TypeLint.Proofs.Binding.Order
import TypeLint.Proofs.Binding.PropertyTypes
import TypeLint.Proofs.Lint.Outcomes
import TypeLint.Proofs.Program.Lossless
import TypeLint.Proofs.Rules.Steady

namespace TypeLint.Rules.OptionalChain

open Syntax Binding Check MemberNullability Values TypeLint.Types TypeLint.Types.Store
open Program (of_build)

/-- A step of a chain, `.name` or `?.name`. -/
structure Step where
  optional : Bool
  name : String
  deriving DecidableEq, Repr

/-- The step with a point. -/
def Step.plain (step : Step) : Step := { step with optional := false }

/-- What a chain of steps from a value gives. A step from a nullish value is an error, and an
    optional one ends the chain with `undefined`. -/
def evaluate (w : World) : Value → List Step → Option Value
  | v, [] => some v
  | v, step :: rest =>
    if v.isNullish then if step.optional then some .undefined else none
    else evaluate w (w.read v step.name) rest

/-- All steps from the first value are taken, up to the second one. -/
inductive Arrives (w : World) : Value → List Step → Value → Prop where
  | here {v : Value} : Arrives w v [] v
  | step {v u : Value} {step : Step} {rest : List Step} (hv : v.isNullish = false)
      (h : Arrives w (w.read v step.name) rest u) : Arrives w v (step :: rest) u

variable {w : World} {u v : Value} {step : Step} {steps before after : List Step}

theorem exists_of_arrives_concat (h : Arrives w v (steps ++ [step]) u) :
    ∃ u', Arrives w v steps u' ∧ u'.isNullish = false ∧ u = w.read u' step.name := by
  induction steps generalizing v with
  | nil =>
    cases h with
    | step hv h =>
      cases h
      exact ⟨v, .here, hv, rfl⟩
  | cons first rest ih =>
    cases h with
    | step hv h =>
      obtain ⟨u', harrives, hu', rfl⟩ := ih h
      exact ⟨u', .step hv harrives, hu', rfl⟩

/-- An optional step may be a plain one if no value from which it is taken is nullish. -/
theorem evaluate_plain (h : ∀ u, Arrives w v before u → u.isNullish = false) :
    evaluate w v (before ++ step.plain :: after) = evaluate w v (before ++ step :: after) := by
  induction before generalizing v with
  | nil =>
    have hv := h v .here
    simp only [List.nil_append, evaluate, hv, Step.plain, Bool.false_eq_true, if_false]
  | cons first rest ih =>
    simp only [List.cons_append, evaluate]
    cases hv : v.isNullish with
    | true => rfl
    | false => exact ih fun u hu => h u (.step hv hu)

/-- The receiver and the step of a property access. -/
def step? (t : Tree) (r : NodeRef) : Option (NodeRef × Step) := do
  let n ← t.get? r
  if n.kind = .propertyAccessExpression then
    let access ← n.access?
    let name ← t.identifierText? access.nameOrArgument
    some (access.expression, ⟨access.questionDot.isSome, name⟩)
  else none

theorem exists_access_of_step? {t : Tree} {r receiver : NodeRef}
    (h : step? t r = some (receiver, step)) :
    ∃ n access, t.get? r = some n ∧ n.kind = .propertyAccessExpression ∧ n.access? = some access ∧
      access.expression = receiver ∧ t.identifierText? access.nameOrArgument = some step.name := by
  obtain ⟨n, hn, h⟩ := Option.bind_eq_some_iff.mp h
  split_ifs at h with hkind
  obtain ⟨access, haccess, h⟩ := Option.bind_eq_some_iff.mp h
  obtain ⟨name, hname, h⟩ := Option.bind_eq_some_iff.mp h
  cases h
  exact ⟨n, access, hn, hkind, haccess, rfl, hname⟩

theorem kind?_of_step? {t : Tree} {r receiver : NodeRef} (h : step? t r = some (receiver, step)) :
    t.kind? r = some .propertyAccessExpression := by
  obtain ⟨n, _, hn, hkind, -⟩ := exists_access_of_step? h
  rw [Tree.kind?, hn, Option.map_some, hkind]

/-- Steps lead from a node to another one. -/
inductive Leads (t : Tree) (x : NodeRef) : NodeRef → List Step → Prop where
  | here : Leads t x x []
  | step {receiver r : NodeRef} {steps : List Step} {step : Step} (h : Leads t x receiver steps)
      (hstep : step? t r = some (receiver, step)) : Leads t x r (steps ++ [step])

section

variable {t : TypeTable} {tree : Tree} {x r receiver : NodeRef} {id type : TypeId}

theorem baseConstraint_of_isConcrete {s : Store} (h : s.isConcrete id = true) :
    s.baseConstraint id = id := by
  have hnone : s.constraint? id = none := by
    rw [isConcrete] at h
    rw [constraint?]
    split
    · next hdata =>
      rw [hdata] at h
      cases h
    · rfl
  rw [baseConstraint, constraintSteps, constraintAfter, hnone]

/-- The type of a step is that of reading the property of its receiver. -/
theorem exists_reading_of_step? (hreads : t.ReadsProperties tree)
    (hstep : step? tree r = some (receiver, step)) (hname : Decimal.readIndex? step.name = none)
    (htype : t.typeAt? r = some type) :
    ∃ object part property, t.typeAt? receiver = some object ∧
      t.store.Reading object step.name type part property := by
  obtain ⟨n, access, hnode, hkind, haccess, rfl, hnamed⟩ := exists_access_of_step? hstep
  obtain ⟨access', object, name, haccess', hobject, hnamed', hreading⟩ :=
    hreads r n type hnode hkind htype
  obtain rfl := Option.some.inj (haccess.symm.trans haccess')
  obtain rfl := Option.some.inj (hnamed.symm.trans hnamed')
  obtain ⟨part, property, hreading⟩ := hreading hname
  exact ⟨object, part, property, hobject, hreading⟩

/-- If a type is concrete and hides no nullish values, so are the types that are read on the way,
    and the values that are read are of these types. -/
theorem inhabits_of_arrives (ht : t.Interned) (hreads : t.ReadsProperties tree)
    (hid : t.typeAt? x = some id) (hconcrete : t.store.Throughout id t.store.isConcrete)
    (hexcludes : t.store.Throughout id t.store.excludesNullish) (h : Leads tree x r steps)
    (hnames : ∀ step ∈ steps, Decimal.readIndex? step.name = none)
    (htype : t.typeAt? r = some type) :
    t.store.Throughout type t.store.isConcrete ∧ t.store.Throughout type t.store.excludesNullish ∧
      ∀ w v u, Inhabits w t.store v id → Arrives w v steps u → Inhabits w t.store u type := by
  have hn := ht.made.normal
  induction h generalizing type with
  | here =>
    obtain rfl := Option.some.inj (hid.symm.trans htype)
    refine ⟨hconcrete, hexcludes, fun w v u hv harrives => ?_⟩
    cases harrives
    exact hv
  | step _ hstep ih =>
    rw [List.forall_mem_append, List.forall_mem_singleton] at hnames
    obtain ⟨object, part, property, hobject, hreading⟩ :=
      exists_reading_of_step? hreads hstep hnames.2 htype
    obtain ⟨hconcrete, hexcludes, hvalues⟩ := ih hnames.1 hobject
    refine ⟨hreading.throughout hn hconcrete (fun _ _ => isConcrete_of_union) ?_,
      hreading.throughout hn hexcludes (fun _ _ => excludesNullish_of_union) ?_,
      fun w v u hv harrives => ?_⟩
    · rw [isConcrete, hn.initial.lookup_eq_some rfl]
      rfl
    · rw [excludesNullish, hn.initial.lookup_eq_some rfl]
      rfl
    · obtain ⟨u', hreceiver, hnot, rfl⟩ := exists_of_arrives_concat harrives
      exact hreading.inhabits (hvalues w v u' hv hreceiver) hnot

/-- A node is nullish only because of what it reads from, if it is a step: no part of the type of
    its receiver has a property of the name that may be nullish. -/
def InheritsNullish (t : Oracle) (tree : Tree) (r : NodeRef) : Prop :=
  ∀ receiver step, step? tree r = some (receiver, step) →
    ∃ object, t.typeAt? receiver = some object ∧
      ∀ part ∈ t.store.unionMembers (t.store.baseConstraint object),
        (namedPropertyNullable t.store part step.name).1 ≠ some true

/-- The receiver of a step that is called unnecessary has a type without nullish parts, or it is no
    name, and nullish only because of what it reads from. -/
def Unneeded (t : Oracle) (tree : Tree) (r : NodeRef) : Prop :=
  ∃ id, t.typeAt? r = some id ∧
    (t.store.isNullableLike (t.store.baseConstraint id) = false ∨
      tree.kind? r ≠ some .identifier ∧ InheritsNullish t tree r)

theorem isNullable_eq_false_of_isNullableLike {s : Store} (h : s.isNullableLike id = false) :
    s.isNullable id = false := by
  rw [isNullableLike, hasFlag_union, hasFlag_union, Bool.or_eq_false_iff, Bool.or_eq_false_iff] at h
  exact h.1.2

/-- A property that does not count as nullable is not optional and has a type that is not
    nullable. -/
theorem optional_eq_false_of_namedPropertyNullable {s : Store} (hn : s.Normal) {part : TypeId}
    {name : String} {property : Property} (hname : Decimal.readIndex? name = none)
    (hdeclared : s.partProperty? name part = some property)
    (hconcrete : s.Throughout property.type s.isConcrete)
    (hnot : (namedPropertyNullable s part name).1 ≠ some true) :
    property.optional = false ∧ s.isNullable property.type = false := by
  rw [namedPropertyNullable, propertyType_eq hname, hdeclared] at hnot
  dsimp only at hnot
  cases hoptional : property.optional with
  | false =>
    rw [hoptional] at hnot
    exact ⟨rfl, by simpa using hnot⟩
  | true =>
    rw [hoptional] at hnot
    have hnever {top : TypeId} (htop : s.isConcrete top = false) :
        (s.unionMembers property.type).contains top = false := by
      refine Bool.eq_false_iff.mpr fun hmem => ?_
      have hself := (hconcrete.of_mem_unionMembers (List.contains_iff_mem.mp hmem)).self
      cases htop.symm.trans hself
    refine (hnot ?_).elim
    simp only [if_true, found, Option.map_some, isNullable_union_undefined hn.initial]
    rw [hnever, hnever]
    · rfl
    · rw [isConcrete, hn.initial.lookup_eq_some rfl]
      rfl
    · rw [isConcrete, hn.initial.lookup_eq_some rfl]
      rfl

/-- No value from which an unneeded step is taken is nullish. -/
theorem isNullish_eq_false_of_unneeded (ht : t.Interned) (hreads : t.ReadsProperties tree)
    (hid : t.typeAt? x = some id) (hconcrete : t.store.Throughout id t.store.isConcrete)
    (hexcludes : t.store.Throughout id t.store.excludesNullish)
    (hidentifier : tree.kind? x = some .identifier) (h : Leads tree x r steps)
    (hnames : ∀ step ∈ steps, Decimal.readIndex? step.name = none)
    (hunneeded : Unneeded t.oracle tree r)
    (hv : Inhabits w t.store v id) (harrives : Arrives w v steps u) : u.isNullish = false := by
  have hn := ht.made.normal
  obtain ⟨type, htype, hnullable | ⟨hkind, hinherits⟩⟩ := hunneeded
  · obtain ⟨hconcrete, hexcludes, hvalues⟩ :=
      inhabits_of_arrives ht hreads hid hconcrete hexcludes h hnames htype
    rw [baseConstraint_of_isConcrete (s := t.oracle.store) hconcrete.self] at hnullable
    exact hn.isNullish_eq_false_of_throughout (hvalues w v u hv harrives) hconcrete hexcludes
      (isNullable_eq_false_of_isNullableLike hnullable)
  · -- The receiver is a step from an object, whose property is not nullish on its own account.
    cases h with
    | here => exact (hkind hidentifier).elim
    | step hleads hstep =>
      rw [List.forall_mem_append, List.forall_mem_singleton] at hnames
      obtain ⟨object, part, property, hobject, hreading⟩ :=
        exists_reading_of_step? hreads hstep hnames.2 htype
      obtain ⟨object', hobject', hparts⟩ := hinherits _ _ hstep
      obtain rfl := Option.some.inj (hobject.symm.trans hobject')
      obtain ⟨hconcrete, hexcludes, hvalues⟩ :=
        inhabits_of_arrives ht hreads hid hconcrete hexcludes hleads hnames.1 hobject
      obtain ⟨u', hreceiver, hnot, rfl⟩ := exists_of_arrives_concat harrives
      rw [baseConstraint_of_isConcrete (s := t.oracle.store) hconcrete.self] at hparts
      obtain ⟨hoptional, hnullable⟩ := optional_eq_false_of_namedPropertyNullable hn hnames.2
        hreading.declared (hreading.throughout_property hconcrete) (hparts part hreading.mem)
      exact hreading.isNullish_eq_false hn (hvalues w v u' hv hreceiver) hnot
        (hreading.throughout_property hconcrete) (hreading.throughout_property hexcludes)
        hoptional hnullable

end

section

variable {t : Oracle} {f : SourceFile} (ht : t.Closed)

include ht

theorem givesOn_memberInheritsNullish (r : NodeRef) :
    (memberInheritsNullish r).GivesOn t f fun inherited =>
      inherited = true → InheritsNullish t f.tree r := by
  refine givesOn_bind agree_tree ?_
  rintro _ ⟨rfl, -⟩
  split
  · exact givesOn_pure fun hyes => absurd hyes (by decide)
  · next n access haccess =>
    split
    · exact givesOn_pure fun hyes => absurd hyes (by decide)
    · next name hname =>
      obtain ⟨n', hn, haccess⟩ := Option.bind_eq_some_iff.mp haccess
      obtain ⟨access', haccess, heq⟩ := Option.map_eq_some_iff.mp haccess
      cases heq
      refine givesOn_bind agree_store fun s hs => ?_
      refine givesOn_bind_of (agree_constrainedTypeAt ht _) (givesOn_constrainedTypeAt ht _) ?_
      rintro _ ⟨hknown, -⟩ ⟨object, hobject, rfl⟩
      rw [hs.1.isUnion_eq hknown, hs.1.unionMembers_eq hknown, hs.1.isNullable_eq ht.store hknown]
      have hparts {part : TypeId}
          (hpart : part ∈ t.store.unionMembers (t.store.baseConstraint object)) :
          t.store.Known part := ht.store.known_of_mem_unionMembers hknown hpart
      split_ifs with _ hkind
      · exact givesOn_pure fun hyes => absurd hyes (by decide)
      · refine givesOn_bind (agree_constrainedTypeAt ht _) fun key hkey => ?_
        refine givesOn_bind (agree_ask (answers_anyType fun part hpart =>
          answers_propertyNullable ht.store (hparts hpart) hkey.1)) fun _ _ => ?_
        refine givesOn_bind (agree_lift _) fun _ _ => ?_
        refine givesOn_pure fun _ receiver step hstep => ?_
        obtain ⟨n', _, hn', hproperty, -⟩ := exists_access_of_step? hstep
        obtain rfl := Option.some.inj (hn.symm.trans hn')
        exact absurd (hkind.symm.trans hproperty) (by decide)
      · refine givesOn_bind (agree_ask (answers_anyType fun part hpart =>
          answers_memberNullable ht.store name (hparts hpart))) ?_
        rintro _ ⟨rfl, -⟩
        refine givesOn_bind (agree_lift _) fun own hown => ?_
        refine givesOn_pure fun hyes receiver step hstep => ?_
        obtain ⟨n', access', hn', -, haccess', rfl, hname'⟩ := exists_access_of_step? hstep
        obtain rfl := Option.some.inj (hn.symm.trans hn')
        obtain rfl := Option.some.inj (haccess.symm.trans haccess')
        obtain rfl := Option.some.inj (hname.symm.trans hname')
        refine ⟨object, hobject, fun part hpart hnullable => ?_⟩
        rw [Bool.and_eq_true, Bool.not_eq_true'] at hyes
        rw [hyes.1] at hown
        have hno := forall_of_anyM_eq_ok_false hown.1 part hpart
        rw [hnullable] at hno
        cases hno

theorem givesOn_isOwnNullish (r : NodeRef) :
    (isOwnNullish r).GivesOn t f fun own => own = false →
      f.tree.kind? r ≠ some .identifier ∧ InheritsNullish t f.tree r := by
  have hmember : (memberInheritsNullish r >>= fun inherited => pure !inherited).GivesOn t f
      fun own => own = false → InheritsNullish t f.tree r := by
    refine givesOn_bind_of (MemberNullability.steady_memberInheritsNullish ht r)
      (givesOn_memberInheritsNullish ht r) fun inherited _ hinherited => ?_
    exact givesOn_pure fun hown => hinherited (by simpa using hown)
  refine givesOn_bind agree_tree ?_
  rintro _ ⟨rfl, -⟩
  split
  · next heq => exact hmember.imp fun _ hinherits hown => ⟨by rw [heq]; decide, hinherits hown⟩
  · next heq => exact hmember.imp fun _ hinherits hown => ⟨by rw [heq]; decide, hinherits hown⟩
  · next heq =>
    refine givesOn_bind (MemberNullability.steady_callInheritsNullish ht r) fun _ _ => ?_
    refine givesOn_pure fun _ => ⟨by rw [heq]; decide, fun receiver step hstep => ?_⟩
    cases heq.symm.trans (kind?_of_step? hstep)
  · exact givesOn_pure fun hown => absurd hown (by decide)

theorem givesOn_mayBeNullish (r : NodeRef) :
    (mayBeNullish r).GivesOn t f fun optionable => optionable = false → Unneeded t f.tree r := by
  refine givesOn_bind agree_store fun s hs => ?_
  refine givesOn_bind_of (agree_constrainedTypeAt ht _) (givesOn_constrainedTypeAt ht _) ?_
  rintro _ ⟨hknown, -⟩ ⟨id, hid, rfl⟩
  rw [hs.1.isNullableLike_eq ht.store hknown]
  split_ifs
  · exact givesOn_pure fun hno => absurd hno (by decide)
  · refine givesOn_bind_of (steady_isOwnNullish ht r) (givesOn_isOwnNullish ht r)
      fun own _ hown => ?_
    refine givesOn_pure fun hno => ⟨id, hid, ?_⟩
    rcases Bool.and_eq_false_iff.mp hno with hno | hno
    · exact .inr (hown hno)
    · exact .inl hno

/-- What a report of a step is about. -/
def StepReport (t : Oracle) (f : SourceFile) (found : Report) : Prop :=
  ∃ r receiver token, chainLink? f.tree r = some (receiver, true) ∧
    f.tree.tokenAfter? receiver (fun n => n.kind == .questionDotToken) = some token ∧
    found = report f r token ∧ Unneeded t f.tree receiver

theorem givesOn_check (r : NodeRef) :
    (check r).GivesOn t f fun reports => ∀ found ∈ reports, StepReport t f found := by
  have hnone : (pure [] : Check (List Report)).GivesOn t f fun reports =>
      ∀ found ∈ reports, StepReport t f found := givesOn_pure (List.forall_mem_nil _)
  refine givesOn_bind agree_file ?_
  rintro _ ⟨rfl, -⟩
  split
  · exact hnone
  · exact hnone
  · next receiver hlink =>
    refine givesOn_bind (MemberNullability.steady_optionalStepReadsIndex ht r) fun _ _ => ?_
    split_ifs
    · exact hnone
    · refine givesOn_bind_of (steady_mayBeNullish ht receiver) (givesOn_mayBeNullish ht receiver)
        fun optionable _ hunneeded => ?_
      split_ifs with hno
      · exact hnone
      · refine givesOn_bind (agree_orFail _ _) fun token htoken => ?_
        exact givesOn_pure (List.forall_mem_singleton.mpr
          ⟨r, receiver, token, hlink, htoken.1, rfl, hunneeded (Bool.not_eq_true _ ▸ hno)⟩)

end

open Program in
/-- The names that are declared in a file that is built are identifiers. -/
theorem declaresNames_of_shown {p : TypeLint.Program} {f : SourceFile} (hp : Disciplined p)
    (hf : Shown p f) : TypeTable.DeclaresNames f.tree := by
  intro r d hd
  rw [(hf.declaredName hp hd).2]
  decide

theorem kind?_of_identifierText? {t : Tree} {x : NodeRef} {name : String}
    (h : t.identifierText? x = some name) : t.kind? x = some .identifier := by
  obtain ⟨n, hn, h⟩ := Option.bind_eq_some_iff.mp h
  rw [Tree.kind?, hn, Option.map_some]
  rw [Node.identifier?, Node.payload?] at h
  split at h
  · next heq =>
    split_ifs at heq with hfits
    rw [Option.some.inj heq] at hfits
    exact congrArg some (beq_iff_eq.mp hfits)
  · cases h

/-- Linting reports only steps of a chain that may be plain: the whole chain gives the same then,
    for all values of the first expression. This is so for types that are concrete, and in which no
    intersection hides nullish values that all its members have. -/
theorem lint_steps_unneeded {p : TypeLint.Program} (hp : Program.Disciplined p) {name : String}
    {b : Program.Built} (hbuild : Program.build name p = .ok b) {t : TypeTable} (ht : t.Interned)
    (hnew : t.nodeTypes = []) {category : Category} {found : List Diagnostic}
    {oracle : Option Oracle}
    (hlint : Linter.lint ⟨[⟨rule, category⟩]⟩ b.file (some (t.bind b.file).oracle) =
      .ok (.ok (found, oracle)))
    {d : Diagnostic} (hd : d ∈ found) :
    ∃ r receiver token, chainLink? b.file.tree r = some (receiver, true) ∧
      b.file.tree.tokenAfter? receiver (fun n => n.kind == .questionDotToken) = some token ∧
      b.file.range token = (d.start, d.stop) ∧
      d.fixes = [⟨"Remove unnecessary optional chain",
        [b.file.replace token (plainStep (b.file.tree.kind? r))]⟩] ∧
      ∀ x before step after id, Leads b.file.tree x receiver before →
        step? b.file.tree r = some (receiver, step) →
        (∀ step ∈ before, Decimal.readIndex? step.name = none) →
        (b.file.tree.identifierText? x).isSome = true → (t.bind b.file).typeAt? x = some id →
        (t.bind b.file).store.Throughout id (t.bind b.file).store.isConcrete →
        (t.bind b.file).store.Throughout id (t.bind b.file).store.excludesNullish →
        ∀ w v, Inhabits w (t.bind b.file).store v id →
          evaluate w v (before ++ step.plain :: after) =
            evaluate w v (before ++ step :: after) := by
  have hf := (Program.shown_of_build hbuild).1
  have hinterned := TypeTable.interned_bind ht b.file
  have hreads := TypeTable.readsProperties_bind ht hnew (declaresNames_of_shown hp hf)
  obtain ⟨_, ⟨r, receiver, token, hlink, htoken, rfl, hunneeded⟩, rfl⟩ := Linter.exists_report
    (Rule.Builtin.optionalChain.steady hinterned.closed.oracle) (givesOn_pure (List.forall_mem_nil _))
    (fun r _ => givesOn_check hinterned.closed.oracle r) hlint hd
  refine ⟨r, receiver, token, hlink, htoken, rfl, rfl, ?_⟩
  intro x before step after id hleads _ hnames hx hid hconcrete hexcludes w v hv
  obtain ⟨name, hx⟩ := Option.isSome_iff_exists.mp hx
  exact evaluate_plain fun u => isNullish_eq_false_of_unneeded hinterned hreads hid hconcrete
    hexcludes (kind?_of_identifierText? hx) hleads hnames hunneeded hv

/-- Where the `?.` of an optional step stands. -/
def stepPlace? (f : SourceFile) (r : NodeRef) : Option (Nat × Nat) :=
  ((chainLink? f.tree r).bind fun link =>
    f.tree.tokenAfter? link.1 fun n => n.kind == .questionDotToken).map f.range

/-- A store with the type `{ b: { c: string } } | undefined`. -/
def memberStore : Store :=
  (((Store.initial.object ⟨none, [⟨"c", TypeId.string, false, false⟩], [], []⟩).2.object
    ⟨none, [⟨"b", 14, false, false⟩], [], []⟩).2.union [15, TypeId.undefined]).2

theorem made_memberStore : memberStore.Made :=
  .union (.intern (.intern .initial rfl (by decide)) rfl (by decide))
    (by decide)

/-- A table in which `{ b: { c: string } } | undefined` is called `T`. -/
def memberTable : TypeTable :=
  TypeTable.defineType { TypeTable.new .strict with store := memberStore } "T" 16

theorem interned_memberTable : memberTable.Interned :=
  ((TypeTable.interned_new .strict).withStore made_memberStore
    made_memberStore.normal.initial).defineType (by decide) "T"

/-- `declare const a: T; a?.b?.c;` -/
def chained : TypeLint.Program :=
  [.statement (.declared .const "a" "T"),
    .statement (.expression (.property (.property (.identifier "a") true "b") true "c"))]

theorem lint_steps_unneeded_inherited :
    ∃ b found oracle d, Program.build "a.ts" chained = .ok b ∧ Program.Disciplined chained ∧
      memberTable.Interned ∧ memberTable.nodeTypes = [] ∧
      Linter.lint ⟨[⟨rule, .error⟩]⟩ b.file (some (memberTable.bind b.file).oracle) =
        .ok (.ok (found, oracle)) ∧
      d ∈ found ∧ (d.start, d.stop) = (24, 26) ∧
      Leads b.file.tree (some 10) (some 16) [⟨true, "b"⟩, ⟨true, "c"⟩] ∧
      (memberTable.bind b.file).typeAt? (some 10) = some 16 ∧
      ∀ w v, Inhabits w (memberTable.bind b.file).store v 16 →
        evaluate w v [⟨true, "b"⟩, ⟨false, "c"⟩] = evaluate w v [⟨true, "b"⟩, ⟨true, "c"⟩] := by
  have hrun : Linter.messagesWith? ⟨rule, .error⟩ chained memberTable.bind =
      some [("neverOptionalChain", 24, 26)] := by decide +kernel
  obtain ⟨b, found, oracle, d, hb, hlint, hd, -, hrange⟩ := Linter.exists_of_messagesWith? hrun
  have hp : Program.Disciplined chained := by decide
  obtain ⟨r, receiver, token, hlink, htoken, hplace, -, hmeaning⟩ :=
    lint_steps_unneeded hp hb interned_memberTable rfl hlint hd
  rw [hrange] at hplace
  obtain ⟨honly, hreceiver, hfirst, hsecond⟩ := of_build hb (fun b =>
    (∀ i < b.file.tree.size, stepPlace? b.file (some i) = some (24, 26) → i = 16) ∧
      chainLink? b.file.tree (some 16) = some (some 13, true) ∧
      step? b.file.tree (some 13) = some (some 10, ⟨true, "b"⟩) ∧
      step? b.file.tree (some 16) = some (some 13, ⟨true, "c"⟩)) (by decide +kernel)
  obtain ⟨hname, htype⟩ := of_build hb (fun b =>
    b.file.tree.identifierText? (some 10) = some "a" ∧
      (memberTable.bind b.file).typeAt? (some 10) = some 16) (by decide +kernel)
  have hwithin := of_build hb (fun b =>
    ∀ id ∈ ([16, 15, 14, TypeId.string, TypeId.undefined] : List TypeId),
      (memberTable.bind b.file).store.isConcrete id = true ∧
        (memberTable.bind b.file).store.excludesNullish id = true ∧
        ∀ next ∈ (memberTable.bind b.file).store.below id,
          next ∈ [16, 15, 14, TypeId.string, TypeId.undefined]) (by decide +kernel)
  obtain rfl : r = some 16 := by
    obtain ⟨n, hn, -⟩ := Option.bind_eq_some_iff.mp hlink
    obtain ⟨i, rfl, hi⟩ := Option.bind_eq_some_iff.mp hn
    refine congrArg some (honly i (Array.getElem?_eq_some_iff.mp hi).1 ?_)
    rw [stepPlace?, hlink, Option.bind_some, htoken, Option.map_some, hplace]
  obtain rfl : receiver = some 13 :=
    congrArg Prod.fst (Option.some.inj (hlink.symm.trans hreceiver))
  have hleads : Leads b.file.tree (some 10) (some 13) [⟨true, "b"⟩] := .step .here hfirst
  refine ⟨b, found, oracle, d, hb, hp, interned_memberTable, rfl, hlint, hd, hrange,
    .step hleads hsecond, htype, fun w v hv => ?_⟩
  refine hmeaning _ _ _ [] 16 hleads hsecond (by decide) (by rw [hname]; rfl) htype ?_ ?_ w v hv
  · exact throughout_of_forall List.mem_cons_self fun id hid =>
      ⟨(hwithin id hid).1, (hwithin id hid).2.2⟩
  · exact throughout_of_forall List.mem_cons_self fun id hid =>
      ⟨(hwithin id hid).2.1, (hwithin id hid).2.2⟩

/-- A store with the types `{ a: string } | undefined` and `{ b: string } | undefined`. -/
def hidingStore : Store :=
  ((((Store.initial.object ⟨none, [⟨"a", TypeId.string, false, false⟩], [], []⟩).2.object
    ⟨none, [⟨"b", TypeId.string, false, false⟩], [], []⟩).2.union [14, TypeId.undefined]).2.union
      [15, TypeId.undefined]).2

theorem made_hidingStore : hidingStore.Made :=
  .union (.union (.intern (.intern .initial rfl (by decide)) rfl (by decide))
    (by decide)) (by decide)

/-- A table in which these types are called `U` and `V`. -/
def hidingTable : TypeTable :=
  (TypeTable.defineType { TypeTable.new .strict with store := hidingStore } "U" 16).defineType
    "V" 17

theorem interned_hidingTable : hidingTable.Interned :=
  (((TypeTable.interned_new .strict).withStore made_hidingStore
    made_hidingStore.normal.initial).defineType (by decide) "U").defineType
      (by decide) "V"

/-- `declare const x: U & V; x?.b;` -/
def hidden : TypeLint.Program :=
  [.statement (.declared .const "x" "U & V"),
    .statement (.expression (.property (.identifier "x") true "b"))]

/-- A step is reported although its receiver may be `undefined`, which all members of its type
    have. The optional step gives `undefined` then, and the plain one fails. -/
theorem lint_step_hidden :
    ∃ b found oracle d, Program.build "a.ts" hidden = .ok b ∧ Program.Disciplined hidden ∧
      hidingTable.Interned ∧ hidingTable.nodeTypes = [] ∧
      Linter.lint ⟨[⟨rule, .error⟩]⟩ b.file (some (hidingTable.bind b.file).oracle) =
        .ok (.ok (found, oracle)) ∧
      d ∈ found ∧ (d.start, d.stop) = (25, 27) ∧ stepPlace? b.file (some 17) = some (25, 27) ∧
      Leads b.file.tree (some 14) (some 17) [⟨true, "b"⟩] ∧
      b.file.tree.identifierText? (some 14) = some "x" ∧
      (hidingTable.bind b.file).typeAt? (some 14) = some 18 ∧
      (hidingTable.bind b.file).store.Throughout 18 (hidingTable.bind b.file).store.isConcrete ∧
      ∀ w, Inhabits w (hidingTable.bind b.file).store .undefined 18 ∧
        evaluate w .undefined [⟨true, "b"⟩] = some .undefined ∧
        evaluate w .undefined [⟨false, "b"⟩] = none := by
  have hrun : Linter.messagesWith? ⟨rule, .error⟩ hidden hidingTable.bind =
      some [("neverOptionalChain", 25, 27)] := by decide +kernel
  obtain ⟨b, found, oracle, d, hb, hlint, hd, -, hrange⟩ := Linter.exists_of_messagesWith? hrun
  have hp : Program.Disciplined hidden := by decide
  obtain ⟨hplace, hstep, hname, htype⟩ := of_build hb (fun b =>
    stepPlace? b.file (some 17) = some (25, 27) ∧
      step? b.file.tree (some 17) = some (some 14, ⟨true, "b"⟩) ∧
      b.file.tree.identifierText? (some 14) = some "x" ∧
      (hidingTable.bind b.file).typeAt? (some 14) = some 18) (by decide +kernel)
  have hwithin := of_build hb (fun b =>
    ∀ id ∈ ([18, 17, 16, 15, 14, TypeId.string, TypeId.undefined] : List TypeId),
      (hidingTable.bind b.file).store.isConcrete id = true ∧
        ∀ next ∈ (hidingTable.bind b.file).store.below id,
          next ∈ [18, 17, 16, 15, 14, TypeId.string, TypeId.undefined]) (by decide +kernel)
  obtain ⟨hintersection, hunion, hunion', hundefined⟩ := of_build hb (fun b =>
    (hidingTable.bind b.file).store.lookup 18 = some (.intersection [16, 17]) ∧
      (hidingTable.bind b.file).store.lookup 16 = some (.union [TypeId.undefined, 14]) ∧
      (hidingTable.bind b.file).store.lookup 17 = some (.union [TypeId.undefined, 15]) ∧
      (hidingTable.bind b.file).store.lookup TypeId.undefined = some (.intrinsic .undefined))
    (by decide +kernel)
  refine ⟨b, found, oracle, d, hb, hp, interned_hidingTable, rfl, hlint, hd, hrange, hplace,
    .step .here hstep, hname, htype, throughout_of_forall List.mem_cons_self hwithin,
    fun w => ⟨?_, rfl, rfl⟩⟩
  have hvalue : Inhabits w (hidingTable.bind b.file).store .undefined TypeId.undefined :=
    .intrinsic hundefined rfl
  refine .intersection hintersection fun m hm => ?_
  rcases List.mem_pair.mp hm with rfl | rfl
  · exact .union hunion List.mem_cons_self hvalue
  · exact .union hunion' List.mem_cons_self hvalue

end TypeLint.Rules.OptionalChain
