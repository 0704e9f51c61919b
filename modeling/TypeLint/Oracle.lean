import TypeLint.CompilerOptions
import TypeLint.Syntax.Node
import TypeLint.Types.Query

namespace TypeLint

open Syntax TypeLint.Types

/-- What a host answers about the types in a file. Types come as numbers of its store, which may
    grow when it is asked about them. -/
structure Oracle where
  store : Store
  options : CompilerOptions
  /-- The type of an expression or of a declared name. -/
  typeAt? : NodeRef → Option TypeId
  /-- The type that a type node denotes. -/
  typeOfTypeNode? : NodeRef → Option TypeId
  /-- The type expected of an expression by its context. -/
  contextualType? : NodeRef → Option TypeId
  /-- The declaration that an identifier refers to. -/
  declarationOf? : NodeRef → Option NodeRef

end TypeLint
