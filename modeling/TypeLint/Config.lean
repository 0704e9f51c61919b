import TypeLint.Json.Reader
import TypeLint.Json.Printer

namespace TypeLint

/-- How serious the findings of a rule are, if it is on. -/
inductive Severity where
  | off
  | warn
  | error
  deriving DecidableEq, Repr, Inhabited

namespace Severity

/-- The name of a severity. -/
def name : Severity → String
  | off => "off"
  | warn => "warn"
  | error => "error"

/-- The severity that a setting gives by name or by number. -/
def ofJson? : Json → Option Severity
  | .string "off" | .number (.natural 0) => some off
  | .string "warn" | .number (.natural 1) => some warn
  | .string "error" | .number (.natural 2) => some error
  | _ => none

end Severity

/-- What is wrong with a configuration. -/
inductive ConfigError where
  | unknownRule (name : String)
  | invalidOptions (rule : String)
  /-- The setting of a rule gives no severity; the value is shown. -/
  | invalidSeverity (rule value : String)
  /-- The text is not the text of a configuration. -/
  | malformed
  deriving DecidableEq, Repr

/-- The wording of an error. What the reader of JSON has to say about the options of a rule or about
    the text is given. -/
def ConfigError.message (source : String) : ConfigError → String
  | .unknownRule name => s!"unknown rule \x60{name}\x60"
  | .invalidOptions rule => s!"invalid options for rule \x60{rule}\x60: {source}"
  | .invalidSeverity rule value => s!"invalid severity for rule \x60{rule}\x60: {value}"
  | .malformed => s!"malformed lint configuration: {source}"

/-- Why a configuration file cannot be used. -/
inductive LoadError where
  | unreadable (path : String)
  | malformed (path : String)
  deriving DecidableEq, Repr

/-- The wording of an error. -/
def LoadError.message : LoadError → String
  | .unreadable path => s!"failed to read lint config {path}"
  | .malformed path => s!"failed to parse lint config {path}"

/-- A configuration: the settings of rules by their names. -/
structure LintConfig where
  rules : List (String × Json)
  deriving Inhabited

/-- The setting of one rule; without options they are `null`. -/
structure RuleSetting where
  name : String
  severity : Severity
  options : Json

namespace LintConfig

/-- How deep the setting of a rule may nest inside the two objects around it. -/
def settingDepth : Nat := Json.maxDepth - 2

/-- The settings of rules: an object. -/
def readRules (fuel : Nat) (cs : List Char) : Option (List (String × Json) × List Char) :=
  match Json.skipBlanks cs with
  | '\x7b' :: rest => Json.readObject fuel settingDepth rest
  | _ => none

/-- The members of a configuration up to the closing brace. The rules may be given once, and other
    members are passed over. -/
def readMembers (whole : Nat) : Nat → Option (List (String × Json)) → List Char →
    Option (List (String × Json) × List Char)
  | 0, _, _ => none
  | fuel + 1, rules, cs => do
    let (key, rest) ← Json.readKey cs
    let (rules, rest) ←
      if key == "rules" then
        if rules.isSome then none
        else (readRules whole rest).map fun (given, rest) => (some given, rest)
      else (Json.skipValue whole rest).map fun rest => (rules, rest)
    match Json.skipBlanks rest with
    | ',' :: rest => readMembers whole fuel rules rest
    | '\x7d' :: rest => some (rules.getD [], rest)
    | _ => none

/-- A configuration: an object, or an array with at most the rules in it. -/
def read (cs : List Char) : Option (List (String × Json) × List Char) :=
  let fuel := Json.fuelFor cs
  match Json.skipBlanks cs with
  | '\x7b' :: rest =>
    match Json.skipBlanks rest with
    | '\x7d' :: rest => some ([], rest)
    | rest => readMembers fuel fuel none rest
  | '[' :: rest =>
    match Json.skipBlanks rest with
    | ']' :: rest => some ([], rest)
    | rest => do
      let (rules, rest) ← readRules fuel rest
      match Json.skipBlanks rest with
      | ']' :: rest => some (rules, rest)
      | _ => none
  | _ => none

/-- The configuration that a text spells. -/
def ofText (text : String) : Except ConfigError LintConfig :=
  match (read text.toList).bind Json.complete with
  | some rules => .ok ⟨rules⟩
  | none => .error .malformed

/-- The configuration in a file, of which the contents are given if it could be read. -/
def ofFile (path : String) (contents : Option String) : Except LoadError LintConfig :=
  match contents with
  | none => .error (.unreadable path)
  | some text =>
    match ofText text with
    | .ok config => .ok config
    | .error _ => .error (.malformed path)

/-- The configuration without rules. -/
def empty : LintConfig := ⟨[]⟩

/-- The names of the rules in order. -/
def ruleNames (c : LintConfig) : List String := c.rules.map (·.1)

/-- The configuration with one more setting. A rule that has one keeps its place. -/
def withRule (c : LintConfig) (name : String) (setting : Json) : LintConfig :=
  ⟨Json.insert name setting c.rules⟩

/-- The severity and the options of a setting. -/
def parts? : Json → Option (Json × Json)
  | .array [severity] => some (severity, .null)
  | .array [severity, options] => some (severity, options)
  | .array _ => none
  | severity => some (severity, .null)

/-- The setting of a rule. -/
def resolveRule (name : String) (setting : Json) : Except ConfigError RuleSetting :=
  match parts? setting with
  | none => .error (.invalidSeverity name setting.compact)
  | some (severity, options) =>
    match Severity.ofJson? severity with
    | none => .error (.invalidSeverity name severity.compact)
    | some severity => .ok ⟨name, severity, options⟩

/-- The settings of all rules, also of those that are off. -/
def resolve (c : LintConfig) : Except ConfigError (List RuleSetting) :=
  c.rules.mapM fun (name, setting) => resolveRule name setting

end LintConfig

end TypeLint
