import TypeLint.Program.Basic

namespace TypeLint.Program

open Syntax

mutual

/-- An expression and those inside it satisfy a condition. -/
def Expr.every (p : Expr → Bool) : Expr → Bool
  | .identifier name => p (.identifier name)
  | .string value => p (.string value)
  | .number text => p (.number text)
  | .bigint text => p (.bigint text)
  | .template text => p (.template text)
  | .substitution head spans => p (.substitution head spans)
  | .keyword kind => p (.keyword kind)
  | .paren e => p (.paren e) && e.every p
  | .binary left operator right =>
    p (.binary left operator right) && left.every p && right.every p
  | .prefixed operator e => p (.prefixed operator e) && e.every p
  | .postfixed e operator => p (.postfixed e operator) && e.every p
  | .nonNull e => p (.nonNull e) && e.every p
  | .property e optional name => p (.property e optional name) && e.every p
  | .element e optional argument =>
    p (.element e optional argument) && e.every p && argument.every p
  | .call callee optional arguments =>
    p (.call callee optional arguments) && callee.every p && Expr.everyIn p arguments
  | .conditional condition whenTrue whenFalse =>
    p (.conditional condition whenTrue whenFalse) && condition.every p && whenTrue.every p &&
      whenFalse.every p
  | .asType e typeText => p (.asType e typeText) && e.every p
  | .satisfiesType e typeText => p (.satisfiesType e typeText) && e.every p
  | .typeAssertion typeText e => p (.typeAssertion typeText e) && e.every p
  | .arrow parameters body => p (.arrow parameters body) && body.every p
  | .arrowBlock parameters body => p (.arrowBlock parameters body) && Item.everyIn p body
  | .function parameters body => p (.function parameters body) && Item.everyIn p body
  | .array items => p (.array items) && Expr.everyIn p items
  | .emptyObject => p .emptyObject
  | .commentBefore text e => p (.commentBefore text e) && e.every p
  | .commentAfter e text => p (.commentAfter e text) && e.every p
  | .emptyCall callee optional text => p (.emptyCall callee optional text) && callee.every p
  | .emptyArray text => p (.emptyArray text)
  | .typeNode text => p (.typeNode text)
  | .labeled label e => p (.labeled label e) && e.every p

/-- The expressions of a list and those inside them satisfy a condition. -/
def Expr.everyIn (p : Expr → Bool) : List Expr → Bool
  | [] => true
  | e :: rest => e.every p && Expr.everyIn p rest

/-- The expressions of a statement satisfy a condition. -/
def Stmt.every (p : Expr → Bool) : Stmt → Bool
  | .expression e => e.every p
  | .variable _ _ _ => true
  | .initialized _ _ _ initializer => initializer.every p
  | .declared _ _ _ => true
  | .definite _ _ => true
  | .block body => Item.everyIn p body
  | .ifThen condition consequent => condition.every p && consequent.every p
  | .ifElse condition consequent alternative =>
    condition.every p && consequent.every p && alternative.every p
  | .whileLoop condition body => condition.every p && body.every p
  | .doLoop body condition => body.every p && condition.every p
  | .forever body => body.every p
  | .forLoop condition body => condition.every p && body.every p
  | .switch e clauses => e.every p && Clause.everyIn p clauses
  | .breakOut => true
  | .returned e => e.every p
  | .thrown e => e.every p
  | .commentBefore _ s | .commentAfter s _ | .labeled _ s => s.every p

/-- The expressions of the entries of a list of statements satisfy a condition. -/
def Item.everyIn (p : Expr → Bool) : List Item → Bool
  | [] => true
  | .comment _ :: rest => Item.everyIn p rest
  | .statement s :: rest => s.every p && Item.everyIn p rest

/-- The expressions of clauses satisfy a condition. -/
def Clause.everyIn (p : Expr → Bool) : List Clause → Bool
  | [] => true
  | c :: rest => c.every p && Clause.everyIn p rest

/-- The expressions of a clause satisfy a condition. -/
def Clause.every (p : Expr → Bool) : Clause → Bool
  | .comment _ => true
  | .caseOf e body => e.every p && Item.everyIn p body
  | .default body => Item.everyIn p body
  | .labeled _ c => c.every p

end

/-- What is given as a keyword or as an operator is a kind of tokens. -/
def Expr.usesTokenKinds : Expr → Bool
  | .keyword kind | .binary _ kind _ | .prefixed kind _ | .postfixed _ kind => kind.isToken
  | _ => true

/-- What is given as a keyword or as an operator is one of some kinds. -/
def Expr.usesKinds (marks : Kind → Bool) : Expr → Bool
  | .keyword kind | .binary _ kind _ | .prefixed kind _ | .postfixed _ kind => marks kind
  | _ => true

/-- The expression is not one with a comment before it, behind it or in place of what it could
    hold. -/
def Expr.isPlain : Expr → Bool
  | .commentBefore _ _ | .commentAfter _ _ | .emptyCall _ _ _ | .emptyArray _ => false
  | _ => true

/-- Only kinds of tokens are given as keywords and operators, which the calls that write these are
    meant for. The calls take any kind: one that is not a kind of tokens leaves a leaf that is not
    among the tokens, and that of the end of a file, which is one, leaves a token before the end. -/
abbrev Disciplined (p : TypeLint.Program) : Prop := Item.everyIn Expr.usesTokenKinds p = true

/-- Comments stand before and behind statements and clauses only. -/
abbrev CommentFree (p : TypeLint.Program) : Prop := Item.everyIn Expr.isPlain p = true

end TypeLint.Program
