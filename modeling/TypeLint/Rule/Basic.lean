import TypeLint.Diagnostic
import TypeLint.Syntax.Node
import TypeLint.Text.Template

namespace TypeLint

open Syntax

/-- The description of a rule. -/
structure RuleInfo where
  name : String
  description : String
  /-- The rule asks for types. -/
  requiresTypes : Bool
  /-- The templates of the messages by their names. -/
  messages : List (String × String)
  deriving Repr, Inhabited

/-- The nodes that a rule is called for. -/
inductive Subscription where
  | kinds (kinds : List Kind)
  | allNodes
  deriving Repr, Inhabited

/-- Why a check gave up. -/
inductive RuleFailure where
  | missingToken (expected : String) (node : NodeRef)
  | unexpectedShape (expected : Kind) (node : NodeRef)
  | missingType (node : NodeRef)
  deriving DecidableEq, Repr

/-- The wording of a failure. -/
def RuleFailure.message : RuleFailure → String
  | .missingToken expected node => s!"expected \x60{expected}\x60 token near node {node.number}"
  | .unexpectedShape expected node => s!"node {node.number} is not a {expected.name}"
  | .missingType node => s!"no type available for node {node.number}"

/-- A finding of a rule. -/
structure Report where
  messageId : String
  start : Nat
  stop : Nat
  /-- The arguments of the message template. -/
  args : List String
  /-- A text that stands in place of the filled template. -/
  text : Option String
  fixes : List Fix
  deriving DecidableEq, Repr

namespace Report

/-- A finding in a range without arguments and fixes. -/
def new (messageId : String) (range : Nat × Nat) : Report :=
  ⟨messageId, range.1, range.2, [], none, []⟩

/-- The finding with one more argument. -/
def arg (r : Report) (value : String) : Report := { r with args := r.args ++ [value] }

/-- The finding with a text of its own. -/
def withText (r : Report) (text : String) : Report := { r with text := some text }

/-- The finding with one more fix. -/
def fix (r : Report) (fix : Fix) : Report := { r with fixes := r.fixes ++ [fix] }

end Report

namespace RuleInfo

/-- The message of this name with its arguments filled in; a message without a template is its
    name. -/
def message (i : RuleInfo) (id : String) (args : List String) : String :=
  match i.messages.lookup id with
  | some template => Text.fill template args
  | none => id

/-- The diagnostic that a report becomes. -/
def diagnostic (i : RuleInfo) (file : String) (category : Category) (r : Report) : Diagnostic :=
  { file := file
    rule := i.name
    messageId := r.messageId
    category := category
    messageText := r.text.getD (i.message r.messageId r.args)
    start := r.start
    stop := r.stop
    fixes := r.fixes }

end RuleInfo

end TypeLint
