import TypeLint.Binding.Table
import TypeLint.Proofs.Types.Growth
import TypeLint.Rule.Check

namespace TypeLint

open Syntax Binding TypeLint.Types

namespace Oracle

/-- The second oracle differs from the first one only by types that have been made. -/
structure Grown (t t' : Oracle) : Prop where
  store : t.store.Extends t'.store
  others : t' = { t with store := t'.store }

/-- All types that the oracle answers with, and all that are mentioned inside of types, are known. -/
structure Closed (t : Oracle) : Prop where
  store : t.store.Closed
  typeAt : ∀ r id, t.typeAt? r = some id → t.store.Known id
  typeOfTypeNode : ∀ r id, t.typeOfTypeNode? r = some id → t.store.Known id
  contextualType : ∀ r id, t.contextualType? r = some id → t.store.Known id

variable {t t' t'' : Oracle}

theorem Grown.refl (t : Oracle) : t.Grown t := ⟨.refl _, rfl⟩

theorem Grown.trans (h : t.Grown t') (h' : t'.Grown t'') : t.Grown t'' := by
  refine ⟨h.store.trans h'.store, ?_⟩
  rw [h'.others, h.others]

theorem Grown.withStore (h : t.Grown t') {s : Store} (hs : t'.store.Extends s) :
    t.Grown { t' with store := s } :=
  h.trans ⟨hs, rfl⟩

theorem Grown.typeAt?_eq (h : t.Grown t') (r : NodeRef) : t'.typeAt? r = t.typeAt? r := by
  rw [h.others]

theorem Grown.options_eq (h : t.Grown t') : t'.options = t.options := by rw [h.others]

end Oracle

namespace Binding.TypeTable

/-- All types that the table records for nodes, and all that are mentioned inside of types, are
    known. -/
structure Closed (t : TypeTable) : Prop where
  store : t.store.Closed
  nodeTypes : ∀ entry ∈ t.nodeTypes, t.store.Known entry.2
  typeNodeTypes : ∀ entry ∈ t.typeNodeTypes, t.store.Known entry.2
  contextualTypes : ∀ entry ∈ t.contextualTypes, t.store.Known entry.2

variable {t : TypeTable}

theorem known_of_lookup {m : NodeMap TypeId} {s : Store} (h : ∀ entry ∈ m, s.Known entry.2)
    {r : NodeRef} {id : TypeId} (hid : m.lookup r = some id) : s.Known id := by
  obtain ⟨before, after, rfl, -⟩ := List.lookup_eq_some_iff.mp hid
  exact h (r, id) (List.mem_append_right _ List.mem_cons_self)

theorem Closed.known_typeAt? (h : t.Closed) {r : NodeRef} {id : TypeId}
    (hid : t.typeAt? r = some id) : t.store.Known id :=
  known_of_lookup h.nodeTypes hid

/-- A table that records known types answers with known types. -/
theorem Closed.oracle (h : t.Closed) : t.oracle.Closed where
  store := h.store
  typeAt _ _ := known_of_lookup h.nodeTypes
  typeOfTypeNode _ _ := known_of_lookup h.typeNodeTypes
  contextualType _ _ := known_of_lookup h.contextualTypes

end Binding.TypeTable

namespace Check

variable {α β : Type} {t : Oracle} {file : SourceFile}

/-- Two checks give related results, or none for the same reason. -/
inductive Alike (R : α → α → Prop) : Except Stop α → Except Stop α → Prop where
  | ok {a a' : α} (h : R a a') : Alike R (.ok a) (.ok a')
  | error (e : Stop) : Alike R (.error e) (.error e)

/-- What is left of two checks differs only by types that have been made. -/
structure SameMemory (t : Oracle) (m m' : Memory) : Prop where
  seen : m.seen = m'.seen
  oracle : ∃ t₁, m.oracle = some t₁ ∧ t.Grown t₁
  oracle' : ∃ t₂, m'.oracle = some t₂ ∧ t.Grown t₂

/-- The two checks give related results, whatever types have been made before. -/
def Agree (t : Oracle) (file : SourceFile) (R : α → α → Prop) (check check' : Check α) : Prop :=
  ∀ m m', SameMemory t m m' →
    Alike R (check.run file m).1 (check'.run file m').1 ∧
      SameMemory t (check.run file m).2 (check'.run file m').2

variable {R : α → α → Prop} {S : β → β → Prop} {check check' : Check α}
  {next next' : α → Check β}

theorem Alike.imp {R' : α → α → Prop} {x x' : Except Stop α} (h : Alike R x x')
    (himp : ∀ a a', R a a' → R' a a') : Alike R' x x' := by
  cases h with
  | ok ha => exact .ok (himp _ _ ha)
  | error e => exact .error e

theorem Agree.imp {R' : α → α → Prop} (h : Agree t file R check check')
    (himp : ∀ a a', R a a' → R' a a') : Agree t file R' check check' := fun m m' hm =>
  ⟨(h m m' hm).1.imp himp, (h m m' hm).2⟩

theorem agree_pure {a a' : α} (h : R a a') : Agree t file R (pure a) (pure a') := fun _ _ hm =>
  ⟨.ok h, hm⟩

theorem agree_fail (e : RuleFailure) : Agree t file R (fail e) (fail e) := fun _ _ hm =>
  ⟨.error _, hm⟩

theorem agree_crash (c : Crash) : Agree t file R (crash c) (crash c) := fun _ _ hm =>
  ⟨.error _, hm⟩

theorem agree_lift (result : Result α) :
    Agree t file (fun a a' => result = .ok a ∧ a = a') (lift result) (lift result) := by
  cases result with
  | ok a => exact agree_pure ⟨rfl, rfl⟩
  | error c => exact agree_crash c

theorem agree_bind (h : Agree t file R check check')
    (hnext : ∀ a a', R a a' → Agree t file S (next a) (next' a')) :
    Agree t file S (check >>= next) (check' >>= next') := by
  intro m m' hm
  obtain ⟨hresult, hmemory⟩ := h m m' hm
  rcases hrun : check.run file m with ⟨result, m₁⟩
  rcases hrun' : check'.run file m' with ⟨result', m₂⟩
  rw [hrun, hrun'] at hresult hmemory
  cases hresult with
  | ok ha =>
    rw [run_bind_of_ok hrun, run_bind_of_ok hrun']
    exact hnext _ _ ha m₁ m₂ hmemory
  | error e =>
    rw [run_bind_of_error hrun, run_bind_of_error hrun']
    exact ⟨.error e, hmemory⟩

theorem agree_file : Agree t file (fun f f' => file = f ∧ file = f') Check.file Check.file :=
  fun _ _ hm => ⟨.ok ⟨rfl, rfl⟩, hm⟩

theorem agree_tree :
    Agree t file (fun tree tree' => file.tree = tree ∧ file.tree = tree') Check.tree Check.tree :=
  fun _ _ hm => ⟨.ok ⟨rfl, rfl⟩, hm⟩

theorem agree_orFail (value : Option α) (e : RuleFailure) :
    Agree t file (fun a a' => value = some a ∧ a = a') (orFail value e) (orFail value e) := by
  cases value with
  | none => exact agree_fail e
  | some a => exact agree_pure ⟨rfl, rfl⟩

theorem agree_oracle :
    Agree t file (fun t₁ t₂ => t.Grown t₁ ∧ t.Grown t₂) Check.oracle Check.oracle := by
  intro m m' hm
  obtain ⟨t₁, ht₁, hgrown⟩ := hm.oracle
  obtain ⟨t₂, ht₂, hgrown'⟩ := hm.oracle'
  simp only [run, oracle, ht₁, ht₂]
  exact ⟨.ok ⟨hgrown, hgrown'⟩, hm⟩

theorem agree_store :
    Agree t file (fun s s' => t.store.Extends s ∧ t.store.Extends s') Check.store Check.store :=
  agree_bind agree_oracle fun _ _ h => agree_pure ⟨h.1.store, h.2.store⟩

theorem agree_options :
    Agree t file (fun o o' => t.options = o ∧ t.options = o') Check.options Check.options :=
  agree_bind agree_oracle fun _ _ h => agree_pure ⟨h.1.options_eq.symm, h.2.options_eq.symm⟩

theorem agree_typeAt (h : t.Closed) (r : NodeRef) :
    Agree t file (fun id id' => t.store.Known id ∧ id = id') (typeAt r) (typeAt r) := by
  refine agree_bind agree_oracle fun t₁ t₂ hgrown => ?_
  rw [hgrown.1.typeAt?_eq, hgrown.2.typeAt?_eq]
  exact (agree_orFail _ _).imp fun id _ hid => ⟨h.typeAt _ _ hid.1, hid.2⟩

theorem agree_constrainedTypeAt (h : t.Closed) (r : NodeRef) :
    Agree t file (fun id id' => t.store.Known id ∧ id = id') (constrainedTypeAt r)
      (constrainedTypeAt r) := by
  refine agree_bind agree_oracle fun t₁ t₂ hgrown => ?_
  rw [hgrown.1.typeAt?_eq, hgrown.2.typeAt?_eq]
  refine agree_bind (agree_orFail _ _) ?_
  rintro id _ ⟨hid, rfl⟩
  have hknown := h.typeAt _ _ hid
  rw [hgrown.1.store.baseConstraint_eq h.store hknown,
    hgrown.2.store.baseConstraint_eq h.store hknown]
  exact agree_pure ⟨h.store.known_baseConstraint hknown, rfl⟩

theorem agree_ask {question : Store → α × Store} {answer : α}
    (h : t.store.Answers question answer) :
    Agree t file (fun a a' => answer = a ∧ answer = a') (ask question) (ask question) := by
  intro m m' hm
  obtain ⟨t₁, ht₁, hgrown⟩ := hm.oracle
  obtain ⟨t₂, ht₂, hgrown'⟩ := hm.oracle'
  obtain ⟨hanswer, hstore⟩ := h t₁.store hgrown.store
  obtain ⟨hanswer', hstore'⟩ := h t₂.store hgrown'.store
  simp only [run, ask, ht₁, ht₂]
  exact ⟨.ok ⟨hanswer.symm, hanswer'.symm⟩, hm.seen, ⟨_, rfl, hgrown.withStore hstore⟩,
    ⟨_, rfl, hgrown'.withStore hstore'⟩⟩

theorem agree_firstSight (offset : Nat) :
    Agree t file Eq (firstSight offset) (firstSight offset) := by
  intro m m' hm
  simp only [run, firstSight, hm.seen]
  split_ifs
  · exact ⟨.ok rfl, hm⟩
  · exact ⟨.ok rfl, ⟨rfl, hm.oracle, hm.oracle'⟩⟩

end Check

end TypeLint
