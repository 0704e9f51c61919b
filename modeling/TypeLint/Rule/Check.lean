import TypeLint.Oracle
import TypeLint.Rule.Basic
import TypeLint.Syntax.Query
import TypeLint.Syntax.NodeEdit

namespace TypeLint

open Syntax TypeLint.Types

/-- What remains of a check for the checks after it. -/
structure Memory where
  /-- Whom to ask about types, if there is anyone. -/
  oracle : Option Oracle
  /-- The starts of the comments that the rule has looked at in this file. -/
  seen : List Nat

/-- Why a check gives no result. -/
inductive Stop where
  /-- The rule gives up on what it is called for. -/
  | failure (e : RuleFailure)
  /-- Nothing comes back from the rule. -/
  | crash (c : Crash)
  deriving DecidableEq, Repr

/-- A computation that looks at a file, asks for types and gives a result, unless it gives up or
    crashes. Types that it makes on the way stay in the store of the oracle, and the comments that it
    has looked at are remembered, also when it gives up. -/
def Check (α : Type) : Type := SourceFile → Memory → Except Stop α × Memory

namespace Check

/-- The result of a check. -/
def run {α : Type} (check : Check α) (file : SourceFile) (m : Memory) :
    Except Stop α × Memory :=
  check file m

instance : Monad Check where
  pure a := fun _ m => (.ok a, m)
  bind check next := fun file m =>
    match check file m with
    | (.ok a, m) => next a file m
    | (.error e, m) => (.error e, m)

theorem run_bind_of_ok {α β : Type} {check : Check α} {next : α → Check β} {file : SourceFile}
    {m m' : Memory} {a : α} (h : check.run file m = (.ok a, m')) :
    (check >>= next).run file m = (next a).run file m' := by
  rw [run] at h
  simp only [run, bind, h]

theorem run_bind_of_error {α β : Type} {check : Check α} {next : α → Check β} {file : SourceFile}
    {m m' : Memory} {e : Stop} (h : check.run file m = (.error e, m')) :
    (check >>= next).run file m = (.error e, m') := by
  rw [run] at h
  simp only [run, bind, h]

/-- Gives up. -/
def fail {α : Type} (e : RuleFailure) : Check α := fun _ m => (.error (.failure e), m)

/-- Crashes. -/
def crash {α : Type} (c : Crash) : Check α := fun _ m => (.error (.crash c), m)

/-- A result that may be a crash. -/
def lift {α : Type} : Result α → Check α
  | .ok a => pure a
  | .error c => crash c

/-- The value of an option; gives up if there is none. -/
def orFail {α : Type} (value : Option α) (e : RuleFailure) : Check α :=
  match value with
  | some a => pure a
  | none => fail e

/-- The file. -/
def file : Check SourceFile := fun file m => (.ok file, m)

/-- The tree of the file. -/
def tree : Check Tree := fun file m => (.ok file.tree, m)

/-- Whom to ask about types; without an oracle the root has no type. -/
def oracle : Check Oracle := fun file m =>
  match m.oracle with
  | some o => (.ok o, m)
  | none => (.error (.failure (.missingType file.root)), m)

/-- The types known so far. -/
def store : Check Store := do
  let o ← oracle
  return o.store

/-- The settings of the project. -/
def options : Check CompilerOptions := do
  let o ← oracle
  return o.options

/-- The type of an expression. -/
def typeAt (r : NodeRef) : Check TypeId := do
  let o ← oracle
  orFail (o.typeAt? r) (.missingType r)

/-- The type of an expression, with the constraint in place of a type parameter. -/
def constrainedTypeAt (r : NodeRef) : Check TypeId := do
  let o ← oracle
  let id ← orFail (o.typeAt? r) (.missingType r)
  return o.store.baseConstraint id

/-- Asks a question that may make types. -/
def ask {α : Type} (question : Store → α × Store) : Check α := fun file m =>
  match m.oracle with
  | some o =>
    let (a, s) := question o.store
    (.ok a, { m with oracle := some { o with store := s } })
  | none => (.error (.failure (.missingType file.root)), m)

/-- Remembers the comment that starts at an offset, and says whether it is looked at for the first
    time. -/
def firstSight (offset : Nat) : Check Bool := fun _ m =>
  if m.seen.contains offset then (.ok false, m)
  else (.ok true, { m with seen := offset :: m.seen })

end Check

/-- A rule: what it does once for a file and what it does for each node that it subscribes to. -/
structure Rule where
  info : RuleInfo
  subscription : Subscription
  checkFile : Check (List Report)
  check : NodeRef → Check (List Report)

end TypeLint
