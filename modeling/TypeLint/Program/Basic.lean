import TypeLint.Syntax.Node

namespace TypeLint.Program

open Syntax

mutual

/-- An expression. -/
inductive Expr where
  | identifier (name : String)
  | string (value : String)
  | number (text : String)
  /-- A number of any size, with its suffix. -/
  | bigint (text : String)
  /-- A template without substitutions. -/
  | template (text : String)
  /-- A template with substitutions, each an identifier and the text behind it. -/
  | substitution (head : String) (spans : List (String × String))
  | keyword (kind : Kind)
  | paren (e : Expr)
  | binary (left : Expr) (operator : Kind) (right : Expr)
  | prefixed (operator : Kind) (e : Expr)
  | postfixed (e : Expr) (operator : Kind)
  | nonNull (e : Expr)
  | property (e : Expr) (optional : Bool) (name : String)
  | element (e : Expr) (optional : Bool) (argument : Expr)
  | call (callee : Expr) (optional : Bool) (arguments : List Expr)
  | conditional (condition whenTrue whenFalse : Expr)
  | asType (e : Expr) (typeText : String)
  | satisfiesType (e : Expr) (typeText : String)
  | typeAssertion (typeText : String) (e : Expr)
  | arrow (parameters : List String) (body : Expr)
  | arrowBlock (parameters : List String) (body : List Item)
  | function (parameters : List String) (body : List Item)
  | array (items : List Expr)
  | emptyObject
  | commentBefore (text : String) (e : Expr)
  | commentAfter (e : Expr) (text : String)
  /-- A call without arguments, with a comment between the parentheses. -/
  | emptyCall (callee : Expr) (optional : Bool) (comment : String)
  /-- An array without elements, with a comment between the brackets. -/
  | emptyArray (comment : String)
  | typeNode (text : String)
  | labeled (label : String) (e : Expr)

/-- A statement. -/
inductive Stmt where
  | expression (e : Expr)
  /-- A variable without an initial value. -/
  | variable (kind : VariableKind) (name : String) (typeText : Option String)
  /-- A variable with an initial value. -/
  | initialized (kind : VariableKind) (name : String) (typeText : Option String)
      (initializer : Expr)
  /-- `declare kind name: T;` -/
  | declared (kind : VariableKind) (name typeText : String)
  /-- `let name!: T;` -/
  | definite (name typeText : String)
  | block (body : List Item)
  | ifThen (condition : Expr) (consequent : Stmt)
  | ifElse (condition : Expr) (consequent alternative : Stmt)
  | whileLoop (condition : Expr) (body : Stmt)
  | doLoop (body : Stmt) (condition : Expr)
  /-- `for (;;) body` -/
  | forever (body : Stmt)
  /-- `for (; condition;) body` -/
  | forLoop (condition : Expr) (body : Stmt)
  | switch (e : Expr) (clauses : List Clause)
  | breakOut
  | returned (e : Expr)
  | thrown (e : Expr)
  | commentBefore (text : String) (s : Stmt)
  | commentAfter (s : Stmt) (text : String)
  | labeled (label : String) (s : Stmt)

/-- An entry of a list of statements. -/
inductive Item where
  | comment (text : String)
  | statement (s : Stmt)

/-- An entry of the clauses of a switch. -/
inductive Clause where
  | comment (text : String)
  | caseOf (e : Expr) (body : List Item)
  | default (body : List Item)
  | labeled (label : String) (c : Clause)

end

end TypeLint.Program

namespace TypeLint

/-- The statements of a file, with the comments between them. -/
abbrev Program := List Program.Item

end TypeLint
