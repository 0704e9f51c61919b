import TypeLint.Linter
import TypeLint.Registry

namespace TypeLint

/-- The category of the findings of a rule, if it is on. -/
def Severity.category? : Severity → Option Category
  | .off => none
  | .warn => some .warning
  | .error => some .error

namespace Linter

/-- The rules that some settings turn on, in their order. -/
def configuredRules (g : Registry) : List RuleSetting → Except ConfigError (List ConfiguredRule)
  | [] => .ok []
  | setting :: rest =>
    match setting.severity.category? with
    | none => configuredRules g rest
    | some category => do
      let rule ← g.create setting.name setting.options
      let others ← configuredRules g rest
      return ⟨rule, category⟩ :: others

/-- The linter that a configuration describes. -/
def ofConfig (c : LintConfig) (g : Registry) : Except ConfigError Linter := do
  let settings ← c.resolve
  let rules ← configuredRules g settings
  return ⟨rules⟩

end Linter

end TypeLint
