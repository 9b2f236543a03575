import Arrow.Expr

/-!
# Statements and programs

The statements of the language, the functions that they declare, and programs.
-/

namespace Arrow

/-- Whether a name may be written again once it is bound. -/
inductive Mutability where
  | const
  | var
deriving DecidableEq

/-- The spelling of a mutability. -/
def Mutability.name : Mutability → String
  | const => "const"
  | var => "var"

/-- A type as it is written in a declaration; whether the type exists is a matter of running it. -/
structure DeclaredType where
  name : String
  constant : Bool
  position : Position
deriving DecidableEq

/-- A parameter of a function. -/
structure Parameter where
  name : String
  type : Option DeclaredType
  mutability : Mutability
  position : Position
deriving DecidableEq

mutual

/-- A statement. -/
inductive Statement where
  | declaration (kind : Mutability) (name : String) (type : Option DeclaredType) (init : Expr)
      (position : Position)
  | assignment (name : String) (value : Expr) (position : Position)
  | function (definition : Function)
  | returnValue (value : Expr) (position : Position)
  | expression (expr : Expr) (position : Position)
  | conditional (branches : List Branch) (otherwise : Option (List Statement))
      (position : Position)
  | whileLoop (condition : Expr) (body : List Statement) (position : Position)
  | forLoop (init : Statement) (condition : Expr) (update : Statement) (body : List Statement)
      (position : Position)

/-- The declaration of a function. Its position is that of the marker in front of its name. -/
structure Function where
  name : String
  params : List Parameter
  returnType : Option DeclaredType
  body : List Statement
  position : Position

/-- A condition and the statements that it guards. -/
structure Branch where
  condition : Expr
  body : List Statement

end

/-- A program is the sequence of its outermost statements. -/
structure Program where
  body : List Statement

end Arrow
