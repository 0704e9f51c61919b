import TypeLint.Config
import TypeLint.Rules.Condition
import TypeLint.Rules.DuplicateCase
import TypeLint.Rules.ExtraNonNullAssertion
import TypeLint.Rules.NonNullAssertion
import TypeLint.Rules.NullishCoalescing
import TypeLint.Rules.OptionalChain
import TypeLint.Rules.SuppressionComment
import TypeLint.Rules.SwitchExhaustiveness
import TypeLint.Rules.TypeAssertion

namespace TypeLint

open Rules

/-- The rules that can be made, by name; each is made from its options if it takes them. -/
structure Registry where
  makers : List (String × (Json → Option Rule))

namespace Registry

/-- The registry without rules. -/
def empty : Registry := ⟨[]⟩

/-- The registry with one more rule, or with another one of this name in its place. -/
def register (g : Registry) (name : String) (make : Json → Option Rule) : Registry :=
  ⟨Json.insert name make g.makers⟩

/-- The names of the rules in order. -/
def names (g : Registry) : List String := g.makers.map (·.1)

/-- There is a rule of this name. -/
def contains (g : Registry) (name : String) : Bool := g.names.contains name

/-- The rule of a name with the given options. -/
def create (g : Registry) (name : String) (options : Json) : Except ConfigError Rule :=
  match g.makers.lookup name with
  | none => .error (.unknownRule name)
  | some make =>
    match make options with
    | none => .error (.invalidOptions name)
    | some rule => .ok rule

/-- The rules of this library. -/
def builtin : Registry :=
  ⟨[(TypeAssertion.info.name, TypeAssertion.create),
    (NonNullAssertion.info.name, NonNullAssertion.create),
    (ExtraNonNullAssertion.info.name, ExtraNonNullAssertion.create),
    (Condition.info.name, Condition.create),
    (OptionalChain.info.name, OptionalChain.create),
    (SwitchExhaustiveness.info.name, SwitchExhaustiveness.create),
    (NullishCoalescing.info.name, NullishCoalescing.create),
    (SuppressionComment.info.name, SuppressionComment.create),
    (DuplicateCase.info.name, DuplicateCase.create)]⟩

end Registry

end TypeLint
