import TypeLint.Rule.Check
import TypeLint.Types.Printer

namespace TypeLint.Rules.MemberNullability

open Syntax TypeLint.Types

/-- The receiver of a member access or the callee of a call, and whether the step is optional. -/
def chainLink? (t : Tree) (r : NodeRef) : Option (NodeRef × Bool) := do
  let n ← t.get? r
  match n.access? with
  | some access => some (access.expression, access.questionDot.isSome)
  | none =>
    if n.kind = .callExpression then
      n.call?.map fun call => (call.expression, call.questionDot.isSome)
    else none

/-- The fields of an element access. -/
def elementAccess? (t : Tree) (r : NodeRef) : Option Access := do
  let n ← t.get? r
  if n.kind = .elementAccessExpression then n.access? else none

/-- The node reads an element of an array, or of a tuple by a computed index. Such types say
    nothing about reads outside the bounds. -/
def readsIndex (r : NodeRef) : Check Bool := do
  let t ← Check.tree
  match elementAccess? t r with
  | none => return false
  | some access =>
    let s ← Check.store
    let object ← Check.typeAt access.expression
    return (s.unionMembers object).all s.isArray ||
      (s.isTuple object && !t.isLiteralExpression access.nameOrArgument)

/-- An optional step among the last ones of a chain has a receiver that reads an array index. -/
def optionalStepReadsIndexTo : Nat → NodeRef → Check Bool
  | 0, _ => Check.crash .endless
  | depth + 1, r => do
    let t ← Check.tree
    match chainLink? t r with
    | none => return false
    | some (receiver, false) => optionalStepReadsIndexTo depth receiver
    | some (receiver, true) =>
      let found ← readsIndex receiver
      if found then return true else optionalStepReadsIndexTo depth receiver

/-- An optional step of the chain that ends at a node has a receiver that reads an array index. More
    steps than there are nodes come by a node twice, and then there is no end to them. -/
def optionalStepReadsIndex (r : NodeRef) : Check Bool := do
  let t ← Check.tree
  optionalStepReadsIndexTo (t.size + 1) r

/-- The answer is yes for one of some types; they are asked in turn up to the first. -/
def anyType (question : TypeId → Store → Result Bool × Store) :
    List TypeId → Store → Result Bool × Store
  | [], s => (.ok false, s)
  | id :: rest, s =>
    match question id s with
    | (.ok false, s) => anyType question rest s
    | (answer, s) => (answer, s)

/-- The name of the property that a key of a literal type reads. -/
def keyName? (s : Store) (key : TypeId) : Option String :=
  match s.literalValue? key with
  | some (.string name) => some name
  | some (.number value) => some value.toText
  | _ => none

/-- Reading a property of this name may give a nullish value; nothing if there is no such
    property. -/
def namedPropertyNullable (s : Store) (object : TypeId) (name : String) : Option Bool × Store :=
  let (type, s) := s.propertyType object name
  (type.map s.isNullable, s)

/-- Reading a key that is no union may give a nullish value: the property of that name may, or
    there is none and an index signature takes the key. -/
def keyNullable (object key : TypeId) (s : Store) : Bool × Store :=
  match keyName? s key with
  | none => ((s.indexKeys object).contains key, s)
  | some name =>
    match namedPropertyNullable s object name with
    | (some nullable, s) => (nullable, s)
    | (none, s) => ((s.indexKeys object).contains key, s)

/-- Reading a key, or one of the parts of a key that is a union, may give a nullish value, down to
    a number of levels. -/
def propertyNullableTo (object : TypeId) : Nat → TypeId → Store → Result Bool × Store
  | 0, _, s => (.error .endless, s)
  | depth + 1, key, s =>
    if s.isUnion key then anyType (propertyNullableTo object depth) (s.unionMembers key) s
    else
      let (nullable, s) := keyNullable object key s
      (.ok nullable, s)

/-- Reading a key of an object may give a nullish value. More levels of unions than there are types
    come by a union twice, and then there is no end to them. -/
def propertyNullable (object key : TypeId) (s : Store) : Result Bool × Store :=
  propertyNullableTo object (s.size + 1) key s

/-- Reading a property of a part of an object may give a nullish value: the property may, or there
    is none and an index signature takes strings. -/
def memberNullable (name : String) (part : TypeId) (s : Store) : Result Bool × Store :=
  match namedPropertyNullable s part name with
  | (some nullable, s) => (.ok nullable, s)
  | (none, s) => (.ok (s.indexType? part TypeId.string).isSome, s)

/-- The member is nullish only because its object is: the object is a nullable union, no part of
    which has the member with a nullish value. The member has to be an identifier. -/
def memberInheritsNullish (r : NodeRef) : Check Bool := do
  let t ← Check.tree
  match (t.get? r).bind fun n => n.access?.map fun access => (n, access) with
  | none => return false
  | some (n, access) =>
    match t.identifierText? access.nameOrArgument with
    | none => return false
    | some name =>
      let s ← Check.store
      let object ← Check.constrainedTypeAt access.expression
      if !s.isUnion object then return false
      else
        let parts := s.unionMembers object
        let ownNullish ←
          if n.kind = .elementAccessExpression then do
            let key ← Check.constrainedTypeAt access.nameOrArgument
            Check.ask (anyType (fun part => propertyNullable part key) parts)
          else Check.ask (anyType (memberNullable name) parts)
        let ownNullish ← Check.lift ownNullish
        return !ownNullish && s.isNullable object

/-- The result of a call is nullish only because its callee is: the callee is a nullable union, no
    part of which returns a nullish value. -/
def callInheritsNullish (r : NodeRef) : Check Bool := do
  let t ← Check.tree
  match (t.get? r).bind fun n => if n.kind = .callExpression then n.call? else none with
  | none => return false
  | some call =>
    let s ← Check.store
    let callee ← Check.constrainedTypeAt call.expression
    if !s.isUnion callee then return false
    else
      let ownNullish := (s.unionMembers callee).any fun part =>
        (s.callReturns part).any s.isNullable
      return !ownNullish && s.isNullable callee

/-- A member that may be missing even though its type does not say so: an optional property, or an
    index whose values may be nullish. -/
def memberMayBeMissing (r : NodeRef) : Check Bool := do
  let t ← Check.tree
  match (t.get? r).bind fun n => n.access?.map fun access => (n, access) with
  | none => return false
  | some (n, access) =>
    let s ← Check.store
    let object ← Check.typeAt access.expression
    if n.kind = .elementAccessExpression then
      let key ← Check.typeAt access.nameOrArgument
      let nullable ← Check.ask (propertyNullable object key)
      Check.lift nullable
    else
      match t.identifierText? access.nameOrArgument with
      | none => return false
      | some name => return s.isOptionalProperty object name

end TypeLint.Rules.MemberNullability
