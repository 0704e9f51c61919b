import TypeLint.Types.Query
import TypeLint.Text.Identifier
import TypeLint.Text.Search

namespace TypeLint.Types

open Text

/-- A literal value as a type shows it. -/
def LiteralValue.text : LiteralValue → String
  | string value =>
    let escaped :=
      replaceAll ['\x22'] ['\\', '\x22'] (replaceAll ['\\'] ['\\', '\\'] value.toList)
    String.ofList ('\x22' :: escaped ++ ['\x22'])
  | number value => value.toText
  | bigint digits => digits ++ "n"
  | boolean value => if value then "true" else "false"

namespace Store

/-- The members of a union without `null` and `undefined`. If `folded`, `boolean` stands where the
    first of `true` and `false` stands; `shown` says that it has been put before. -/
def foldBoolean (folded : Bool) : Bool → List TypeId → List TypeId
  | _, [] => []
  | shown, id :: rest =>
    if folded && (id = TypeId.trueLiteral || id = TypeId.falseLiteral) then
      if shown then foldBoolean folded true rest
      else TypeId.boolean :: foldBoolean folded true rest
    else if id = TypeId.null || id = TypeId.undefined then foldBoolean folded shown rest
    else id :: foldBoolean folded shown rest

/-- The members of a union as they are shown: `null` and `undefined` last. -/
def unionOrder (members : List TypeId) : List TypeId :=
  let folded := members.contains TypeId.trueLiteral && members.contains TypeId.falseLiteral
  foldBoolean folded false members ++ [TypeId.null, TypeId.undefined].filter members.contains

/-- The text of a type, where `shown` says how the types that it is made of are shown. -/
def textOver (s : Store) (shown : TypeId → String) (id : TypeId) : String :=
  if id = TypeId.boolean then "boolean"
  else
    match s.lookup id with
    | none => "error"
    | some (.intrinsic kind) => kind.name
    | some (.literal value) => value.text
    | some (.enumLiteral enumName member _) =>
      if needsQuoting .esNext member then enumName ++ "[\x22" ++ member ++ "\x22]"
      else enumName ++ "." ++ member
    | some (.uniqueSymbol name) => "typeof " ++ name
    | some (.parameter name _) => name
    | some (.union members) => " | ".intercalate ((unionOrder members).map shown)
    | some (.intersection members) => " & ".intercalate (members.map shown)
    | some (.array element) =>
      let text := shown element
      if (s.isUnion element || s.isIntersection element) && element != TypeId.boolean then
        "(" ++ text ++ ")[]"
      else text ++ "[]"
    | some (.tuple elements) => "[" ++ ", ".intercalate (elements.map shown) ++ "]"
    | some (.object shape) =>
      match shape.name with
      | some name => name
      | none =>
        if shape.properties.isEmpty && shape.indexSignatures.isEmpty then
          match shape.callReturns with
          | returned :: _ => "() => " ++ shown returned
          | [] => "\x7b\x7d"
        else
          let properties := shape.properties.map fun p =>
            (if p.readonly then "readonly " else "") ++ p.name ++
              (if p.optional then "?" else "") ++ ": " ++ shown p.type ++ ";"
          let indexes := shape.indexSignatures.map fun i =>
            "[key: " ++ shown i.key ++ "]: " ++ shown i.value ++ ";"
          "\x7b " ++ " ".intercalate (properties ++ indexes) ++ " \x7d"

/-- The text of a type down to a number of levels. -/
def textTo (s : Store) : Nat → TypeId → String
  | 0, _ => "error"
  | depth + 1, id => s.textOver (s.textTo depth) id

/-- The text of a type; a type that is not known is an error. -/
def text (s : Store) (id : TypeId) : String := s.textTo (s.size + 1) id

end Store

end TypeLint.Types
