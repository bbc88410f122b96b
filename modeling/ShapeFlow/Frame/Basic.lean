import ShapeFlow.Summary

/-!
# Frames

A frame is what is known at one point of a body that is being analyzed under
given argument types: the current type of each argument slot, what the locals
hold, the objects that the body has allocated, and what the body has done so far
that its callers will see.

Inside a frame a value is an *operand*.  Besides a type and a place it can be an
object that the body itself has allocated.  Such an object has parts of its own,
so that two locals that hold it see each other's writes.  Once it has been written
into something the callers can reach, it *has a home*: from then on it is the
value at that place, and its parts are read there.
-/

namespace ShapeFlow

/-- The number of an object allocated in a frame. -/
structure AllocId where
  index : Nat
deriving DecidableEq, Repr, Inhabited

/-- A value inside a frame. -/
inductive Operand where
  /-- A value of which only the type is known. -/
  | type (id : TypeId)
  /-- The value found at a place. -/
  | path (place : AccessPath)
  /-- An object that the frame has allocated. -/
  | fresh (id : AllocId)
deriving DecidableEq, Inhabited

/-- The place of an operand that is told by its place, if it lies within `base`. -/
def Operand.placeWithin? (base : AccessPath) : Operand → Option AccessPath
  | .path place => if place.liesWithin base then some place else none
  | .type _ | .fresh _ => none

/-- An object allocated in a frame. -/
structure Allocation where
  className : String
  fields : OrderedMap Selector Operand := ∅
  /-- The place at which callers can reach the object, if there is one. -/
  home? : Option AccessPath := none
deriving Inhabited

/-- What is known at one point of a body. -/
structure Frame where
  /-- The current types of the slots, from slot 1 on. -/
  slots : List TypeId
  /-- What the locals hold. -/
  locals : OrderedMap String Operand := ∅
  /-- The objects allocated so far. -/
  allocations : Array Allocation := #[]
  /-- The writes that callers will see. -/
  writes : List Write := []
  /-- The calls made. -/
  calls : List CallRecord := []
deriving Inhabited

namespace Frame

/-- Record that a place receives a value. -/
def record (target : AccessPath) (value : Value) (frame : Frame) : Frame :=
  { frame with writes := frame.writes ++ [⟨target, value⟩] }

/-- Record a call. -/
def recordCall (call : CallRecord) (frame : Frame) : Frame :=
  { frame with calls := frame.calls ++ [call] }

/-- A local receives an operand. -/
def setLocal (name : String) (operand : Operand) (frame : Frame) : Frame :=
  { frame with locals := frame.locals.insert name operand }

/-- Allocate one more object. -/
def allocate (allocation : Allocation) (frame : Frame) : AllocId × Frame :=
  (⟨frame.allocations.size⟩, { frame with allocations := frame.allocations.push allocation })

/-- Change one of the allocated objects. -/
def update (id : AllocId) (change : Allocation → Allocation) (frame : Frame) : Frame :=
  { frame with allocations := frame.allocations.modify id.index change }

/-- The objects whose home lies within a place, with their homes. -/
def residents (frame : Frame) (base : AccessPath) : List (AllocId × AccessPath) :=
  frame.allocations.toList.zipIdx.filterMap fun entry =>
    match entry.1.home? with
    | some home => if home.liesWithin base then some (⟨entry.2⟩, home) else none
    | none => none

/-- The locals that hold a place within the given one, with that place. -/
def localsWithin (frame : Frame) (base : AccessPath) : List (String × AccessPath) :=
  frame.locals.entries.filterMap fun entry =>
    (entry.2.placeWithin? base).map fun place => (entry.1, place)

/-- The parts of allocated objects that hold a place within the given one, with that
place. -/
def partsWithin (frame : Frame) (base : AccessPath) : List (AllocId × Selector × AccessPath) :=
  frame.allocations.toList.zipIdx.flatMap fun entry =>
    entry.1.fields.entries.filterMap fun part =>
      (part.2.placeWithin? base).map fun place => (⟨entry.2⟩, part.1, place)

end Frame

end ShapeFlow
