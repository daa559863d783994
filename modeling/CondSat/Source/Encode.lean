import CondSat.Source.Expr

/-! # Trees as documents

Every node becomes an object with its kind under `node`; the members stand in
a fixed order. -/
set_option autoImplicit false
namespace CondSat.Source

def SourceType.toJson (type : SourceType) : Json :=
  match type.underlying with
  | some underlying =>
    .obj [("kind", .str "enum"), ("name", .str type.name), ("underlying", .str underlying.name)]
  | none =>
    if type.kind = .other then .obj [("kind", .str "other"), ("name", .str type.name)]
    else .str type.name

def Constant.toJson (constant : Constant) : Json :=
  .obj [("value", constant.value), ("type_code", .str constant.kind.name)]

/-- A predefined operator under its own name is written by its name alone. -/
def Operator.toJson (operator : Operator) : Json :=
  if operator.isPredefined && operator.tag.any (·.name == operator.name) then .str operator.name
  else .obj [("name", .str operator.name), ("return_type", operator.returnType.toJson),
    ("predefined", .bool operator.isPredefined)]

def Resolution.toJson (resolution : Resolution) : Json :=
  match resolution with
  | .resolved operator => operator.toJson
  | _ => .obj [("status", .str resolution.status)]

def constantMember : Option Constant → List (String × Json)
  | none => []
  | some constant => [("constant", constant.toJson)]

namespace Expr

mutual

def toJson : Expr → Json
  | literal constant type text =>
    .obj [("node", .str "literal"), ("value", constant.value), ("type", type.toJson),
      ("type_code", .str constant.kind.name), ("text", text)]
  | reference none type text constant =>
    .obj ([("node", .str "variable"), ("type", type.toJson), ("text", text),
      ("resolved", .bool false)] ++ constantMember constant)
  | reference (some declaration) type text constant =>
    .obj ([("node", .str "variable"), ("type", type.toJson), ("text", text),
      ("name", declaration.name), ("kind", .str declaration.kind.name),
      ("id", .int declaration.id)] ++ constantMember constant)
  | unary operator operand type text constant =>
    .obj ([("node", .str "unary"), ("operator", operator.toJson), ("operand", toJson operand),
      ("type", type.toJson), ("text", text)] ++ constantMember constant)
  | binary operator left right type text constant =>
    .obj ([("node", .str "binary"), ("operator", operator.toJson), ("left", toJson left),
      ("right", toJson right), ("type", type.toJson), ("text", text)]
      ++ constantMember constant)
  | unmodelled shape type text children constant =>
    .obj ([("node", .str "unsupported"), ("shape", .str shape.name), ("type", type.toJson),
      ("text", text), ("children", .arr (toJsons children))] ++ constantMember constant)

def toJsons : List Expr → List Json
  | [] => []
  | node :: rest => toJson node :: toJsons rest

end

end Expr

end CondSat.Source
