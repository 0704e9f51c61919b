import TypeLint.Proofs.Emission.Walks
import TypeLint.Proofs.Program.Forms

namespace TypeLint.Syntax

namespace Payload

/-- The links of a payload field by field. A field that holds one link is a list of one. -/
def fields : Payload → List (List NodeRef)
  | empty | identifier _ | literal _ => []
  | template t => [[t.head], t.spans]
  | templateSpan s => [[s.expression], [s.literal]]
  | binary b => [[b.left], [b.operatorToken], [b.right]]
  | unary u => [[u.operand]]
  | wrapped e => [[e]]
  | conditional c => [[c.condition], [c.whenTrue], [c.whenFalse]]
  | access a => [[a.expression], [a.nameOrArgument], [a.questionDot]]
  | call c => [[c.expression], c.arguments, [c.questionDot]]
  | assertion a => [[a.expression], [a.typeNode]]
  | functionLike f => [f.parameters, [f.body]]
  | parameter p => [[p.name], [p.typeAnnotation]]
  | elements es => [es]
  | block ss => [ss]
  | variableStatement s => [[s.declarationList]]
  | variableList l => [l.declarations]
  | variableDeclaration d => [[d.name], [d.typeAnnotation], [d.initializer]]
  | ifStatement s => [[s.expression], [s.thenStatement], [s.elseStatement]]
  | loop l => [[l.initializer], [l.condition], [l.incrementor], [l.statement]]
  | switch s => [[s.expression], [s.caseBlock]]
  | caseClause c => [[c.expression], c.statements]
  | jump e => [[e]]
  | typeName n => [[n]]
  | compositeType ts => [ts]
  | wrappedType t => [[t]]

theorem fields_mapLinks (f : NodeRef → NodeRef) (p : Payload) :
    (p.mapLinks f).fields = p.fields.map (List.map f) := by
  cases p <;> rfl

theorem fits_mapLinks (f : NodeRef → NodeRef) (p : Payload) (kind : Kind) :
    (p.mapLinks f).fits kind = p.fits kind := by
  cases p <;> rfl

end Payload

end TypeLint.Syntax

namespace TypeLint.Program

open Syntax

theorem isToken_of_mem_enclosedKinds {kind : Kind} (h : kind ∈ enclosedKinds) :
    kind.isToken = true ∧ kind.text? = none := by
  simp only [enclosedKinds, List.mem_cons, List.not_mem_nil, or_false] at h
  rcases h with rfl | rfl | rfl | rfl <;> exact ⟨rfl, rfl⟩

/-- The kind of a node is not one of tokens, and its payload is one for the kind. -/
theorem Form.kind_and_fits {kind : Kind} {flags : Nat} {payload : Payload}
    {children : List Green} (h : Form kind flags payload children) :
    kind.isToken = false ∧ kind.text? = none ∧ payload.fits kind = true := by
  cases h with
  | compositeType kind h => rcases h with rfl | rfl <;> exact ⟨rfl, rfl, rfl⟩
  | prefixed kind h => rcases h with rfl | rfl <;> exact ⟨rfl, rfl, rfl⟩
  | block kind h => rcases h with rfl | rfl <;> exact ⟨rfl, rfl, rfl⟩
  | jump kind h => rcases h with rfl | rfl <;> exact ⟨rfl, rfl, rfl⟩
  | _ => exact ⟨rfl, rfl, rfl⟩

theorem TokenForm.isToken_eq_true {kind : Kind} {text : String} {payload : Payload}
    (h : TokenForm Kind.isToken kind text payload) : kind.isToken = true := by
  cases h with
  | fixed kind h => exact h
  | identifier name => rfl
  | number kind text h => rcases h with rfl | rfl <;> rfl
  | template text => rfl
  | enclosed kind text value h => exact (isToken_of_mem_enclosedKinds h).1

/-- The kind of a node says whether it is a token. -/
theorem HasForm.kindFits {g : Green} (h : HasForm g) : g.KindFits := by
  cases g with
  | token lead kind text payload labels => exact h.isToken_eq_true
  | node kind flags payload children labels => exact h.kind_and_fits.1

/-- What has no kind of tokens is a node. -/
theorem HasForm.exists_node {g : Green} (h : HasForm g) (hkind : g.kind.isToken = false) :
    ∃ flags payload gs labels, g = .node g.kind flags payload gs labels := by
  have hfits := h.kindFits
  cases g with
  | token lead kind text payload labels => cases hkind.symm.trans hfits
  | node kind flags payload gs labels => exact ⟨flags, payload, gs, labels, rfl⟩

/-- A token with a fixed spelling is spelled so. -/
theorem TokenForm.text_eq {marks : Kind → Bool} {kind : Kind} {text spelling : String}
    {payload : Payload} (h : TokenForm marks kind text payload)
    (hspelling : kind.text? = some spelling) : text = spelling := by
  cases h with
  | fixed kind h => simp [hspelling]
  | identifier name => cases hspelling
  | number kind text h => rcases h with rfl | rfl <;> cases hspelling
  | template text => cases hspelling
  | enclosed kind text value h =>
    rw [(isToken_of_mem_enclosedKinds h).2] at hspelling
    cases hspelling

theorem Form.children_ne_nil {kind : Kind} {flags : Nat} {payload : Payload}
    {children : List Green} (h : Form kind flags payload children) : children ≠ [] := by
  cases h with
  | compositeType kind h count items hitems =>
    rintro rfl
    simp at hitems
  | _ => simp

/-- Places in order are some of the places of all children. -/
theorem sublist_places (is : List Nat) {count : Nat} (hsorted : is.Pairwise (· < ·))
    (hlt : ∀ i ∈ is, i < count) : (is.map some).Sublist (places 0 count) := by
  have hsubperm : is.Subperm (List.range' 0 count) :=
    List.subperm_of_subset (hsorted.imp Nat.ne_of_lt) fun i hi => by simpa using hlt i hi
  exact (List.sublist_of_subperm_of_pairwise hsubperm (hsorted.imp Nat.le_of_lt)
    ((List.pairwise_lt_range').imp Nat.le_of_lt)).map some

/-- The links of a field lead nowhere or to children, in the order of the children. -/
def LinksTo (refs field : List NodeRef) : Prop := field = [none] ∨ field.Sublist refs

@[simp] theorem linksTo_none (refs : List NodeRef) : LinksTo refs [none] := .inl rfl

@[simp] theorem linksTo_some {i count : Nat} (h : i < count) :
    LinksTo (places 0 count) [some i] :=
  .inr (sublist_places [i] (by simp) (by simpa using h))

theorem linksTo_of_lt {r : NodeRef} {count : Nat} (h : ∀ i, r = some i → i < count) :
    LinksTo (places 0 count) [r] := by
  cases r with
  | none => exact linksTo_none _
  | some i => exact linksTo_some (h i rfl)

theorem linksTo_questionDotPlace (optional : Bool) {count : Nat} (h : 1 < count) :
    LinksTo (places 0 count) [questionDotPlace optional] :=
  linksTo_of_lt fun i hi => by cases optional <;> cases hi; exact h

theorem places_sublist_places {first count total : Nat} (h : first + count ≤ total) :
    (places first count).Sublist (places 0 total) := by
  refine sublist_places _ List.pairwise_lt_range' fun i hi => ?_
  rw [List.mem_range'_1] at hi
  omega

theorem linksTo_places {first count total : Nat} (h : first + count ≤ total) :
    LinksTo (places 0 total) (places first count) :=
  .inr (places_sublist_places h)

theorem linksTo_evenPlaces {count total : Nat} (h : 2 * count ≤ total + 1) :
    LinksTo (places 0 total) (evenPlaces count) := by
  have heven : evenPlaces count = ((List.range count).map (2 * ·)).map some := by
    simp [evenPlaces]
  rw [heven]
  refine .inr (sublist_places _ ?_ fun i hi => ?_)
  · rw [List.pairwise_map]
    exact List.pairwise_lt_range.imp fun hlt => by omega
  · obtain ⟨j, hj, rfl⟩ := List.mem_map.mp hi
    rw [List.mem_range] at hj
    omega

theorem elementPlaces_sublist (offset : Nat) (items : List Green) :
    (elementPlaces offset items).Sublist (places offset items.length) := by
  induction items generalizing offset with
  | nil => exact List.Sublist.slnil
  | cons g items ih =>
    simp only [elementPlaces, List.zipIdx_cons, List.filterMap_cons, places, List.length_cons,
      List.range'_succ, List.map_cons] at ih ⊢
    split
    · exact (ih _).cons _
    · next hsome =>
      split at hsome
      · cases hsome
      · cases hsome
        exact (ih _).cons_cons _

theorem linksTo_elementPlaces {offset total : Nat} {items : List Green}
    (h : offset + items.length ≤ total) :
    LinksTo (places 0 total) (elementPlaces offset items) :=
  .inr ((elementPlaces_sublist offset items).trans (places_sublist_places h))

/-- Every link of a payload is the place of a child. -/
theorem Form.linksTo {kind : Kind} {flags : Nat} {payload : Payload} {children : List Green}
    (h : Form kind flags payload children) :
    ∀ field ∈ payload.fields, LinksTo (places 0 children.length) field := by
  cases h with
  | compositeType kind h count items hitems =>
    simpa [Payload.fields] using linksTo_evenPlaces (by omega)
  | template head spans =>
    simpa [Payload.fields] using linksTo_places (by omega)
  | element receiver argument optional lead lead' lead'' =>
    simp [Payload.fields, linksTo_questionDotPlace]
  | call receiver closing items optional lead lead' =>
    simp only [Payload.fields, List.forall_mem_cons, List.length_cons, List.length_append]
    exact ⟨linksTo_some (by omega), linksTo_elementPlaces (by simp; omega),
      linksTo_questionDotPlace _ (by simp), by simp⟩
  | arrow opening closing token body parameters =>
    simpa [Payload.fields] using linksTo_elementPlaces (by omega)
  | function word opening closing body parameters =>
    simpa [Payload.fields] using linksTo_elementPlaces (by omega)
  | array opening closing items =>
    simpa [Payload.fields] using linksTo_elementPlaces (by omega)
  | emptyObject opening closing => simp [Payload.fields, LinksTo]
  | variableDeclaration name rest definite type value htype hvalue hname =>
    simp [Payload.fields, linksTo_of_lt htype, linksTo_of_lt hvalue]
  | block kind h opening closing items =>
    simpa [Payload.fields] using linksTo_places (by omega)
  | sourceFile statements eof =>
    simpa [Payload.fields] using linksTo_places (by omega)
  | caseClause word test colon statements =>
    simpa [Payload.fields] using linksTo_places (by omega)
  | defaultClause word colon statements =>
    simpa [Payload.fields] using linksTo_places (by omega)
  | _ => simp [Payload.fields, linksTo_questionDotPlace]

end TypeLint.Program
