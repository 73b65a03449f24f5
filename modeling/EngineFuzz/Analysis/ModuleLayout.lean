import EngineFuzz.Program.Instruction

/-!
# Module layouts

The entities of a WebAssembly module in the order of their declaration.  In each category the
imports have the low indices, in order, and the definitions follow, in order.  Every entity is
exported under the name of its category and its index.

* `ModuleLayout.indexOf?`, `ModuleLayout.exportName?`: place and name of an entity.
* `ModuleLayout.orderingViolation?`: the first category in which an import follows a definition.
* `ModuleLayout.signature`: the type of the module.
-/

namespace EngineFuzz

/-- An entity of a module, with the variable that stands for it. -/
structure ModuleEntity where
  var : Variable
  entity : EntityType
  /-- The value of the script that supplies an import. -/
  source : Option Variable
deriving DecidableEq, Repr, Inhabited

namespace ModuleEntity

/-- Imports are the entities that the script supplies. -/
def isImport (e : ModuleEntity) : Bool := e.source.isSome

/-- The index space that the entity belongs to. -/
def category (e : ModuleEntity) : EntityCategory := e.entity.category

end ModuleEntity

/-- The entities of a module in the order of their declaration. -/
structure ModuleLayout where
  entities : List ModuleEntity
deriving DecidableEq, Repr

namespace ModuleLayout

/-- The layout of a module in which nothing has been declared. -/
def empty : ModuleLayout := ⟨[]⟩

/-- Declares an entity that the module defines. -/
def addDefinition (l : ModuleLayout) (v : Variable) (entity : EntityType) : ModuleLayout :=
  ⟨l.entities ++ [⟨v, entity, none⟩]⟩

/-- Declares an entity that a value of the script supplies. -/
def addImport (l : ModuleLayout) (v : Variable) (entity : EntityType) (source : Variable) :
    ModuleLayout :=
  ⟨l.entities ++ [⟨v, entity, some source⟩]⟩

/-- The imports, in the order of the import section. -/
def imports (l : ModuleLayout) : List ModuleEntity := l.entities.filter (·.isImport)

/-- The imports of one category. -/
def importsOf (l : ModuleLayout) (c : EntityCategory) : List ModuleEntity :=
  l.imports.filter fun e => e.category == c

/-- The definitions of one category. -/
def definitions (l : ModuleLayout) (c : EntityCategory) : List ModuleEntity :=
  l.entities.filter fun e => !e.isImport && e.category == c

/-- The entities of one category in the order of their indices. -/
def ordered (l : ModuleLayout) (c : EntityCategory) : List ModuleEntity :=
  l.importsOf c ++ l.definitions c

/-- The first entity of a variable. -/
def entityOf? (l : ModuleLayout) (v : Variable) : Option ModuleEntity :=
  l.entities.find? fun e => e.var == v

/-- The place of an entity in the index space of its category. -/
def indexOf? (l : ModuleLayout) (v : Variable) : Option Nat := do
  let target ← l.entityOf? v
  let alike := l.entities.filter fun e =>
    e.category == target.category && e.isImport == target.isImport
  let position ← alike.findIdx? fun e => e.var == v
  return if target.isImport then position else (l.importsOf target.category).length + position

/-- The name of the export with an index in a category. -/
def nameOf (c : EntityCategory) (index : Nat) : String := c.exportStem ++ natText index

/-- The name under which an entity is exported. -/
def exportName? (l : ModuleLayout) (v : Variable) : Option String := do
  let target ← l.entityOf? v
  return nameOf target.category (← l.indexOf? v)

/-- Looks for an import of a category that has been defined in before. -/
def firstViolation (defined : List EntityCategory) : List ModuleEntity → Option EntityCategory
  | [] => none
  | e :: rest =>
    if e.isImport then
      if defined.contains e.category then some e.category else firstViolation defined rest
    else firstViolation (e.category :: defined) rest

/-- The first category in which an import follows a definition. -/
def orderingViolation? (l : ModuleLayout) : Option EntityCategory := firstViolation [] l.entities

/-- Whether an import of the category would precede all definitions of the category. -/
def canImport (l : ModuleLayout) (c : EntityCategory) : Bool := (l.definitions c).isEmpty

/-- How many entities of a category there are, imported or defined. -/
def count (l : ModuleLayout) (c : EntityCategory) : Nat :=
  (l.entities.filter fun e => e.category == c).length

/-- The exports of one category. -/
def exportsOf (l : ModuleLayout) (c : EntityCategory) : List ModuleExport :=
  (l.ordered c).mapIdx fun index e => ⟨nameOf c index, e.entity⟩

/-- The type of the module. -/
def signature (l : ModuleLayout) : ModuleSignature where
  imports := l.imports.map (·.entity)
  exports := EntityCategory.all.flatMap l.exportsOf

end ModuleLayout

end EngineFuzz
