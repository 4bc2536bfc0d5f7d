import CppPrinter.Class.Scope
import CppPrinter.Expr.Arena
import Std.Data.TreeMap

/-!
# Programs

A program holds its classes and enumerations, an arena of expressions that refer to each other by
position, and resources by name. Members and statements refer into the arena too. Programs grow by
additions at the end of a table, which never move what is there already.
-/

namespace CppPrinter

/-- The bytes of each resource, sorted by name. -/
abbrev ResourceTable := Std.TreeMap String (List UInt8)

/-- A whole program. -/
structure Program where
  classes : Array (Class ExprId) := #[]
  enums : Array (Enum ExprId) := #[]
  exprs : Arena := {}
  resources : ResourceTable := {}

namespace Program

/-- The class at a position. -/
def class? (p : Program) (id : ClassId) : Rendered (Class ExprId) := lookUp p.classes id.index

/-- The enumeration at a position. -/
def enum? (p : Program) (id : EnumId) : Rendered (Enum ExprId) := lookUp p.enums id.index

/-- The classes in order of position. -/
def classIds (p : Program) : List ClassId := (List.range p.classes.size).map ClassId.mk

/-- What expressions see of the declarations. -/
def scope (p : Program) : Scope := ⟨p.classes.map Class.head, p.enums.map Enum.name⟩

/-- Adds a class; its position is the number of classes before. -/
def addClass (p : Program) (c : Class ExprId) : ClassId × Program :=
  (⟨p.classes.size⟩, { p with classes := p.classes.push c })

/-- Adds an enumeration; its position is the number of enumerations before. -/
def addEnum (p : Program) (e : Enum ExprId) : EnumId × Program :=
  (⟨p.enums.size⟩, { p with enums := p.enums.push e })

/-- Adds an expression; its position is the number of expressions before. -/
def addExpr (p : Program) (n : Node ExprId) : ExprId × Program :=
  (⟨p.exprs.nodes.size⟩, { p with exprs := p.exprs.push n })

/-- Adds a resource and gives back the bytes that had its name before. -/
def addResource (p : Program) (name : String) (bytes : List UInt8) :
    Option (List UInt8) × Program :=
  (p.resources[name]?, { p with resources := p.resources.insert name bytes })

/-- Changes the class at a position. -/
def modifyClass (p : Program) (id : ClassId) (change : Class ExprId → Class ExprId) :
    Rendered Program := do
  let c ← p.class? id
  return { p with classes := p.classes.setIfInBounds id.index (change c) }

end Program

end CppPrinter
