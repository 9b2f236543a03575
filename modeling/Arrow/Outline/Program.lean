import Arrow.Outline.Token
import Arrow.Program

/-!
# Outlines of programs

How the syntax tree of a program is laid out, with the positions of all its nodes.
-/

namespace Arrow.Outline

def ofPosition (p : Position) : Outline :=
  record "Position" [("line", atom (toString p.line)), ("column", atom (toString p.column))]

def ofLiteral (value : Literal) : Outline :=
  match value with
  | .integer n => group "Integer" [int n]
  | .float x => group "Float" [float x]
  | .text content => group "Text" [text content]
  | .bool b => group "Bool" [atom (toString b)]
  | .null => atom "Null"

mutual

def ofExpr : Expr → Outline
  | .literal value p =>
    record "Literal" [("value", ofLiteral value), ("position", ofPosition p)]
  | .var name p => record "Variable" [("name", text name), ("position", ofPosition p)]
  | .not operand p =>
    record "Unary"
      [("op", ofOperator .not), ("operand", ofExpr operand), ("position", ofPosition p)]
  | .binary left op right p =>
    record "Binary"
      [("left", ofExpr left), ("op", ofOperator op), ("right", ofExpr right),
        ("position", ofPosition p)]
  | .call callee arguments p =>
    record "Call"
      [("callee", text callee), ("arguments", list (ofExprs arguments)),
        ("position", ofPosition p)]
  | .array elements p =>
    record "Array" [("elements", list (ofExprs elements)), ("position", ofPosition p)]
  | .object fields p =>
    record "Object" [("fields", list (ofFields fields)), ("position", ofPosition p)]
  | .index target index p =>
    record "Index"
      [("target", ofExpr target), ("index", ofExpr index), ("position", ofPosition p)]
  | .member target property p =>
    record "Member"
      [("target", ofExpr target), ("property", text property), ("position", ofPosition p)]

def ofExprs : List Expr → List Outline
  | [] => []
  | expr :: exprs => ofExpr expr :: ofExprs exprs

def ofFields : List (String × Expr) → List Outline
  | [] => []
  | (key, value) :: fields => group "" [text key, ofExpr value] :: ofFields fields

end

def ofMutability (kind : Mutability) : Outline :=
  match kind with
  | .const => atom "Const"
  | .var => atom "Var"

def ofType (type : Option DeclaredType) : Outline :=
  option <| type.map fun type =>
    record "TypeAnnotation"
      [("name", text type.name), ("constant", atom (toString type.constant)),
        ("position", ofPosition type.position)]

def ofParameter (param : Parameter) : Outline :=
  record "Parameter"
    [("name", text param.name), ("declared_type", ofType param.type),
      ("mutability", ofMutability param.mutability), ("position", ofPosition param.position)]

mutual

def ofStatement : Statement → Outline
  | .declaration kind name type init p =>
    record "VariableDeclaration"
      [("kind", ofMutability kind), ("name", text name), ("declared_type", ofType type),
        ("init", ofExpr init), ("position", ofPosition p)]
  | .assignment name value p =>
    record "Assignment"
      [("name", text name), ("value", ofExpr value), ("position", ofPosition p)]
  | .function ⟨name, params, returnType, body, p⟩ =>
    group "Function"
      [record "FunctionDef"
        [("name", text name), ("params", list (params.map ofParameter)),
          ("return_type", ofType returnType), ("body", list (ofStatements body)),
          ("position", ofPosition p)]]
  | .returnValue value p =>
    record "Return" [("value", ofExpr value), ("position", ofPosition p)]
  | .expression expr p =>
    record "Expression" [("expr", ofExpr expr), ("position", ofPosition p)]
  | .conditional branches otherwise p =>
    record "If"
      [("branches", list (ofBranches branches)),
        ("otherwise", match otherwise with
          | none => option none
          | some body => option (some (list (ofStatements body)))),
        ("position", ofPosition p)]
  | .whileLoop condition body p =>
    record "While"
      [("condition", ofExpr condition), ("body", list (ofStatements body)),
        ("position", ofPosition p)]
  | .forLoop init condition update body p =>
    record "For"
      [("init", ofStatement init), ("condition", ofExpr condition),
        ("update", ofStatement update), ("body", list (ofStatements body)),
        ("position", ofPosition p)]

def ofStatements : List Statement → List Outline
  | [] => []
  | statement :: statements => ofStatement statement :: ofStatements statements

def ofBranches : List Branch → List Outline
  | [] => []
  | ⟨condition, body⟩ :: branches =>
    record "Branch" [("condition", ofExpr condition), ("body", list (ofStatements body))] ::
      ofBranches branches

end

/-- The outline of a program. -/
def ofProgram (program : Program) : Outline :=
  record "Program" [("body", list (ofStatements program.body))]

end Arrow.Outline
