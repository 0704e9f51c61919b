import TypeLint.Rule.Check

namespace TypeLint.Rules.Scripted

open Syntax

/-- A place in a text: an offset, or an end of the node at hand. -/
inductive Place where
  | offset (n : Nat)
  | nodeStart
  | nodeStop
  deriving DecidableEq, Repr

/-- An edit: of a range, or of the node at hand. -/
inductive EditScript where
  | range (start stop : Place) (text : String)
  | remove
  | replace (text : String)
  | before (text : String)
  | after (text : String)
  deriving DecidableEq, Repr

/-- A fix by its edits. -/
structure FixScript where
  description : String
  edits : List EditScript
  deriving DecidableEq, Repr

/-- An argument of a message: a text, or the text of the node at hand. -/
inductive Argument where
  | text (value : String)
  | nodeText
  deriving DecidableEq, Repr

/-- A report at the node at hand. -/
structure ReportScript where
  messageId : String
  start : Place
  stop : Place
  args : List Argument
  text : Option String
  fixes : List FixScript
  deriving DecidableEq, Repr

/-- How an action gives up. -/
inductive Surrender where
  | missingToken
  | unexpectedShape
  /-- Only if the node has no type. -/
  | missingType
  deriving DecidableEq, Repr

/-- An action: it gives up, or else reports something. -/
structure Action where
  /-- Only for nodes with this text. -/
  onlyFor : Option String
  surrender : Option Surrender
  report : Option ReportScript
  deriving DecidableEq, Repr

/-- A rule as data. -/
structure Script where
  name : String
  requiresTypes : Bool
  messages : List (String × String)
  subscription : Subscription
  onFile : List Action
  onNode : List Action

/-- The offset of a place at a node. -/
def Place.resolve (f : SourceFile) (r : NodeRef) : Place → Nat
  | offset n => n
  | nodeStart => (f.range r).1
  | nodeStop => (f.range r).2

/-- The edit at a node. -/
def EditScript.resolve (f : SourceFile) (r : NodeRef) : EditScript → TextEdit
  | range start stop text => f.replaceRange (start.resolve f r) (stop.resolve f r) text
  | remove => f.remove r
  | replace text => f.replace r text
  | before text => f.insertBefore r text
  | after text => f.insertAfter r text

/-- The fix at a node. -/
def FixScript.resolve (f : SourceFile) (r : NodeRef) (s : FixScript) : Fix :=
  ⟨s.description, s.edits.map (·.resolve f r)⟩

/-- The argument at a node. -/
def Argument.resolve (f : SourceFile) (r : NodeRef) : Argument → String
  | text value => value
  | nodeText => f.nodeText r

/-- The report at a node. -/
def ReportScript.resolve (f : SourceFile) (r : NodeRef) (s : ReportScript) : Report where
  messageId := s.messageId
  start := s.start.resolve f r
  stop := s.stop.resolve f r
  args := s.args.map (·.resolve f r)
  text := s.text
  fixes := s.fixes.map (·.resolve f r)

/-- Gives up at a node. -/
def Surrender.run (r : NodeRef) : Surrender → Check Unit
  | missingToken => Check.fail (.missingToken "token" r)
  | unexpectedShape => Check.fail (.unexpectedShape .unknown r)
  | missingType => do
    let _ ← Check.typeAt r
    return ()

/-- What an action reports at a node, if it does not give up. -/
def Action.run (f : SourceFile) (r : NodeRef) (a : Action) : Check (List Report) :=
  let reports := (a.report.map (·.resolve f r)).toList
  match a.surrender with
  | none => pure reports
  | some surrender => do
    surrender.run r
    return reports

/-- Runs the actions at a node in order. -/
def runActions (r : NodeRef) : List Action → Check (List Report)
  | [] => pure []
  | action :: rest => do
    let f ← Check.file
    let skipped := (action.onlyFor.map fun text => f.nodeText r != text).getD false
    let here ← if skipped then pure [] else action.run f r
    let others ← runActions r rest
    return here ++ others

/-- The rule that a script describes. -/
def Script.rule (s : Script) : Rule where
  info := ⟨s.name, "", s.requiresTypes, s.messages⟩
  subscription := s.subscription
  checkFile := do
    let f ← Check.file
    runActions f.root s.onFile
  check := fun r => runActions r s.onNode

/-- A member that is given; `null` does not count. -/
def member? (j : Json) (key : String) : Option Json := (j.get? key).filter fun v => !v.isNull

/-- The items of a member, none if it is not given. -/
def items (j : Json) (key : String) : List Json :=
  ((member? j key).bind Json.array?).getD []

/-- The text of a member. -/
def string? (j : Json) (key : String) : Option String := (member? j key).bind Json.string?

/-- A place: an offset, `s` or `e`. -/
def Place.ofJson? : Json → Option Place
  | .number (.natural n) => some (.offset n)
  | .string "s" => some .nodeStart
  | .string "e" => some .nodeStop
  | _ => none

/-- An edit: a verb with its text, or a range with its text. -/
def EditScript.ofJson? : Json → Option EditScript
  | .array [.string "remove"] => some .remove
  | .array [.string "replace", .string text] => some (.replace text)
  | .array [.string "before", .string text] => some (.before text)
  | .array [.string "after", .string text] => some (.after text)
  | .array [start, stop, .string text] => do
    let start ← Place.ofJson? start
    let stop ← Place.ofJson? stop
    some (.range start stop text)
  | _ => none

/-- A fix: a description and edits. -/
def FixScript.ofJson? (j : Json) : Option FixScript := do
  let edits ← (items j "edits").mapM EditScript.ofJson?
  some ⟨(string? j "description").getD "", edits⟩

/-- An argument; one word stands for the text of the node. -/
def Argument.ofJson? : Json → Option Argument
  | .string "$text" => some .nodeText
  | .string value => some (.text value)
  | _ => none

/-- A report: a message, a span, arguments and fixes. -/
def ReportScript.ofJson? (j : Json) : Option ReportScript := do
  let id ← string? j "id"
  let args ← (items j "args").mapM Argument.ofJson?
  let fixes ← (items j "fixes").mapM FixScript.ofJson?
  match items j "span" with
  | [start, stop] =>
    let start ← Place.ofJson? start
    let stop ← Place.ofJson? stop
    some ⟨id, start, stop, args, string? j "text", fixes⟩
  | _ => none

/-- A way to give up by its name. -/
def Surrender.ofName? : String → Option Surrender
  | "MissingToken" => some .missingToken
  | "UnexpectedShape" => some .unexpectedShape
  | "MissingType" => some .missingType
  | _ => none

/-- A member that need not be given, read if it is. -/
def optional? {α : Type} (read : Json → Option α) : Option Json → Option (Option α)
  | none => some none
  | some value => (read value).map some

/-- An action: how it gives up and what it reports, perhaps only for nodes with a certain text. -/
def Action.ofJson? (j : Json) : Option Action := do
  let surrender ←
    optional? (fun value => value.string?.bind Surrender.ofName?) (member? j "fail")
  let report ← optional? ReportScript.ofJson? (member? j "report")
  some ⟨string? j "if_text", surrender, report⟩

/-- A message: its name and its template. -/
def message? : Json → Option (String × String)
  | .array [.string id, .string template] => some (id, template)
  | _ => none

/-- The subscription to a list of kinds, or to all nodes if no list is given. -/
def subscription? (j : Json) : Option Subscription :=
  match member? j "kinds" with
  | none => some .allNodes
  | some _ =>
    ((items j "kinds").mapM fun (kind : Json) => kind.string?.bind Kind.ofName?).map .kinds

/-- A script. -/
def Script.ofJson? (j : Json) : Option Script := do
  let name ← string? j "name"
  let messages ← (items j "messages").mapM message?
  let subscription ← subscription? j
  let onFile ← (items j "on_file").mapM Action.ofJson?
  let onNode ← (items j "on_node").mapM Action.ofJson?
  let requiresTypes := ((member? j "requires").bind Json.bool?).getD false
  some ⟨name, requiresTypes, messages, subscription, onFile, onNode⟩

end TypeLint.Rules.Scripted
