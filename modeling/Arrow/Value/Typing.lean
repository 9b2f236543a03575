import Arrow.Error
import Arrow.Program
import Arrow.Value

/-!
# Checking declared types

A declared type is resolved when a value meets it. A name that is no type is an error at the
declaration, and a value of another type is an error at `p`.
-/

namespace Arrow

/-- Checks a value of `subject` against the type declared for it. -/
def DeclaredType.check (type : DeclaredType) (value : Value) (subject : String) (p : Position) :
    Except RuntimeError Unit :=
  match TypeTag.ofName? type.name with
  | none => .error (.typeError (.unknownType type.name) type.position)
  | some tag =>
    if tag.admits value.kind then .ok ()
    else .error (.typeError (.mismatch subject tag value.kind) p)

/-- Checks a value against a type if one is declared. -/
def checkDeclared (type : Option DeclaredType) (value : Value) (subject : String) (p : Position) :
    Except RuntimeError Unit :=
  match type with
  | none => .ok ()
  | some type => type.check value subject p

end Arrow
