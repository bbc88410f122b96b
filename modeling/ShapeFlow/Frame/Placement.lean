import ShapeFlow.Frame.Fields

/-!
# Placing an object where callers see it

When an allocated object comes to stand at a place, the objects that it holds come
to stand at the places below.  `Placement.visit` walks through them, each once, and
records a write for every place that one of them holds, since callers see that place
under a second name from then on.

With `settling` set, each object gets the place at which it was met as its home, once
its parts have been walked through.  Parts that are met later in the same walk then
already find it at home.
-/

namespace ShapeFlow

/-- A walk through the objects that are being placed. -/
structure Placement where
  frame : Frame
  /-- The objects that were met. -/
  met : List AllocId := []

namespace Placement

/-- Give an object its home. -/
def settle (id : AllocId) (home : AccessPath) (walk : Placement) : Placement :=
  { walk with frame := walk.frame.update id fun object => { object with home? := some home } }

/-- What one part of a placed object means for the callers, where `visit` answers for
allocated objects. -/
def visitPart (visit : Placement → AllocId → AccessPath → Checked Placement) (walk : Placement)
    (target : AccessPath) (operand : Operand) : Checked Placement := do
  match ← walk.frame.resolve operand with
  | .type _ => pure walk
  | .path source => pure { walk with frame := walk.frame.record target (.path source) }
  | .fresh child => visit walk child target

/-- Walk through an object that stands at `place`, unless it was met before.  The room
is the number of objects that were not met yet. -/
def visit (settling : Bool) : Nat → Placement → AllocId → AccessPath → Checked Placement
  | room, walk, id, place => do
    if walk.met.contains id then pure walk
    else
      let object ← walk.frame.allocation id
      match room with
      | 0 => broken (.visit id)
      | room + 1 =>
        let walk ← object.fields.entries.foldlM
          (fun walk entry =>
            visitPart (visit settling room) walk (place.child entry.1) entry.2)
          { walk with met := id :: walk.met }
        pure (if settling then walk.settle id place else walk)

end Placement

namespace Frame

/-- Place an allocated object and everything that it holds. -/
def place (settling : Bool) (id : AllocId) (target : AccessPath) (frame : Frame) :
    Checked Frame := do
  let walk ← Placement.visit settling frame.allocations.size { frame } id target
  pure walk.frame

/-- Record that a place which callers can reach receives an operand.  An allocated
object is recorded with its type and has its home at that place from then on. -/
def recordOperand (declarations : Declarations) (span : Span) (target : AccessPath) :
    Operand → Framed Unit
  | .type type => modifyThe Frame (record target (.type type))
  | .path source => modifyThe Frame (record target (.path source))
  | .fresh id => do
    -- The type is read off the object while it has no home yet.
    let type ← (← getThe Frame).reify declarations span id
    modifyThe Frame (record target (.type type))
    let frame ← (← getThe Frame).place true id target
    set frame

end Frame

end ShapeFlow
