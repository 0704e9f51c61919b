import TypeLint.Json.Record
import TypeLint.ScriptTarget

namespace TypeLint

/-- The settings of a project that rules consult. -/
structure CompilerOptions where
  /-- `null` and `undefined` are types of their own. -/
  strictNullChecks : Bool
  /-- An optional property does not take `undefined` as a value. -/
  exactOptionalPropertyTypes : Bool
  /-- A look-up through an index signature may give `undefined`. -/
  noUncheckedIndexedAccess : Bool
  target : ScriptTarget
  deriving DecidableEq, Repr

namespace CompilerOptions

/-- The settings of a strict project. -/
def strict : CompilerOptions := ⟨true, false, false, .esNext⟩

instance : Inhabited CompilerOptions := ⟨strict⟩

/-- The names of the fields in the order of their declaration. -/
def fieldNames : List String :=
  ["strictNullChecks", "exactOptionalPropertyTypes", "noUncheckedIndexedAccess", "target"]

/-- The settings that a JSON record gives; those of a strict project are the defaults. -/
def ofJson? (value : Json) : Option CompilerOptions := do
  let fields ← value.record? fieldNames
  let strictNullChecks ← Json.field fields "strictNullChecks" strict.strictNullChecks Json.bool?
  let exactOptionalPropertyTypes ←
    Json.field fields "exactOptionalPropertyTypes" strict.exactOptionalPropertyTypes Json.bool?
  let noUncheckedIndexedAccess ←
    Json.field fields "noUncheckedIndexedAccess" strict.noUncheckedIndexedAccess Json.bool?
  let target ← Json.field fields "target" strict.target fun value =>
    value.choice?.bind ScriptTarget.ofName?
  some ⟨strictNullChecks, exactOptionalPropertyTypes, noUncheckedIndexedAccess, target⟩

/-- The settings as a JSON record. -/
def toJson (o : CompilerOptions) : Json :=
  .object [("strictNullChecks", .bool o.strictNullChecks),
    ("exactOptionalPropertyTypes", .bool o.exactOptionalPropertyTypes),
    ("noUncheckedIndexedAccess", .bool o.noUncheckedIndexedAccess),
    ("target", .string o.target.name)]

end CompilerOptions

end TypeLint
