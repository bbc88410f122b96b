import ShapeFlow.OrderedMap
import ShapeFlow.Syntax.Program

/-!
# What a program declares

The declarations of a program are numbered in the order in which they were
written: the methods of each class declaration, then the functions, then the main
body, all behind the methods of the core classes that every program has.

Declarations of one class add up.  Its objects may have every part that one of
them declares, and of several methods with one name the one written last counts;
the same holds of functions.  Nothing is ever taken out of the numbering: a
definition that no longer counts keeps its number and is simply not found by name.
-/

namespace ShapeFlow

/-- The number of a definition. -/
structure DefId where
  index : Nat
deriving DecidableEq, Repr, Inhabited

/-- A method, a function or the main body. -/
structure Definition where
  /-- The class of a method. -/
  owner? : Option String := none
  decl : MethodDecl
deriving Inhabited

namespace Definition

/-- Whether the definition is a method. -/
def isMethod (definition : Definition) : Bool := definition.owner?.isSome

/-- The slots taken by the receiver: one for a method, none otherwise. -/
def receiverSlots (definition : Definition) : Nat := if definition.isMethod then 1 else 0

/-- The number of argument slots, the receiver of a method included. -/
def arity (definition : Definition) : Nat :=
  definition.decl.parameters.length + definition.receiverSlots

/-- The slot of a parameter.  Of parameters with one name the first counts. -/
def slotOf? (definition : Definition) (parameter : String) : Option Nat :=
  (definition.decl.parameters.findIdx? (· == parameter)).map
    fun position => position + 1 + definition.receiverSlots

/-- The name of a method behind that of its class; the plain name otherwise. -/
def qualifiedName (definition : Definition) : String :=
  match definition.owner? with
  | some owner => owner ++ "#" ++ definition.decl.name
  | none => definition.decl.name

/-- The slot of a parameter lies behind the slots of the receiver and within the arity. -/
theorem slotOf?_bounds (definition : Definition) {parameter : String} {slot : Nat}
    (hslot : definition.slotOf? parameter = some slot) :
    definition.receiverSlots < slot ∧ slot ≤ definition.arity := by
  obtain ⟨position, hposition, rfl⟩ := Option.map_eq_some_iff.mp hslot
  have hlt := (List.findIdx?_eq_some_iff_findIdx_eq.mp hposition).1
  unfold arity
  omega

end Definition

/-- What the declarations of one class amount to. -/
structure ClassInfo where
  /-- The parts that objects of the class may have, in the order of their first
  declaration. -/
  fields : List Selector := []
  /-- The method that counts for each name. -/
  methods : OrderedMap String DefId := ∅
deriving Inhabited

/-- Whether objects of the class may have this part. -/
def ClassInfo.declares (info : ClassInfo) (selector : Selector) : Bool :=
  info.fields.contains selector

/-- What a program declares. -/
structure Declarations where
  /-- All definitions, by number. -/
  definitions : Array Definition := #[]
  /-- The classes, in the order of their first declaration. -/
  classes : OrderedMap String ClassInfo := ∅
  /-- The function that counts for each name. -/
  functions : OrderedMap String DefId := ∅
  /-- The main body. -/
  main : DefId := ⟨0⟩
deriving Inhabited

namespace Declarations

/-! ## Look-up -/

/-- The definition with this number. -/
def definition? (declarations : Declarations) (id : DefId) : Option Definition :=
  declarations.definitions[id.index]?

/-- What is declared of a class. -/
def class? (declarations : Declarations) (className : String) : Option ClassInfo :=
  declarations.classes.get? className

/-- The function that counts for a name. -/
def function? (declarations : Declarations) (name : String) : Option DefId :=
  declarations.functions.get? name

/-- The method of a class that counts for a name. -/
def method? (declarations : Declarations) (className name : String) : Option DefId :=
  (declarations.class? className).bind fun info => info.methods.get? name

/-- Whether a class is declared and its objects may have this part. -/
def declares (declarations : Declarations) (className : String) (selector : Selector) : Bool :=
  match declarations.class? className with
  | some info => info.declares selector
  | none => false

/-! ## Collecting -/

/-- The numbers of definitions that are added behind the given ones, by name. -/
def numbered (first : Nat) (decls : List MethodDecl) : List (String × DefId) :=
  decls.zipIdx.map fun entry => (entry.1.name, ⟨first + entry.2⟩)

/-- Take in one declaration of a class. -/
def addClass (declarations : Declarations) (decl : ClassDecl) : Declarations :=
  let info := (declarations.class? decl.name).getD {}
  let methods := decl.methods.map fun method =>
    ({ owner? := some decl.name, decl := method } : Definition)
  { declarations with
    definitions := declarations.definitions ++ methods
    classes := declarations.classes.insert decl.name
      { fields := decl.fields.foldl Selector.addTo info.fields
        methods := info.methods.insertAll
          (numbered declarations.definitions.size decl.methods) } }

/-- Take in a list of functions. -/
def addFunctions (declarations : Declarations) (decls : List MethodDecl) : Declarations :=
  { declarations with
    definitions := declarations.definitions ++ decls.map fun decl => ({ decl := decl } : Definition)
    functions := declarations.functions.insertAll
      (numbered declarations.definitions.size decls) }

/-- The name of the main body. -/
def mainName : String := "<main>"

/-- Take in the main body. -/
def addMain (declarations : Declarations) (program : Program) : Declarations :=
  { declarations with
    definitions := declarations.definitions.push
      { decl := { name := mainName, body := program.main, span := program.mainSpan } }
    main := ⟨declarations.definitions.size⟩ }

/-! ## The core classes

Every program has the class of plain objects and the class of arrays.  All elements
of an array are one part of it, which the methods `[]` and `[]=` read and write
whatever the position. -/

/-- The class of objects without parts. -/
def objectClass : ClassDecl where
  name := "Object"

/-- The name of the class of arrays. -/
def arrayName : String := "Array"

/-- The class of arrays. -/
def arrayClass : ClassDecl where
  name := arrayName
  fields := [.element]
  methods := [
    { name := Expr.elementReader
      parameters := ["index"]
      body := [.read {} (.this {}) .element] },
    { name := Expr.elementWriter
      parameters := ["index", "value"]
      body := [.write {} (.this {}) .element (.name {} "value")] }]

/-- The classes that every program has. -/
def coreClasses : List ClassDecl := [objectClass, arrayClass]

/-- Everything that a program declares, behind the core classes. -/
def ofProgram (program : Program) : Declarations :=
  let classes := (coreClasses ++ program.classes).foldl addClass {}
  (classes.addFunctions program.functions).addMain program

end Declarations

end ShapeFlow
