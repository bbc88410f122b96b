import ShapeFlow.Syntax.Selector

/-!
# Access paths

An access path names a place relative to one call: the value found by following
selectors from one of the slots of the call.  Slot 0 holds what the call returns;
the slots from 1 on hold its arguments, the receiver of a method being the first.
-/

namespace ShapeFlow

/-- The place reached from a slot by following selectors. -/
structure AccessPath where
  root : Nat
  selectors : List Selector := []
deriving DecidableEq, Repr, Inhabited

namespace AccessPath

/-- The slot that stands for what a call returns. -/
def resultSlot : Nat := 0

/-- Whether the place belongs to what the call returns. -/
def ofResult (path : AccessPath) : Bool := path.root == resultSlot

/-- The place one selector further on. -/
def child (path : AccessPath) (selector : Selector) : AccessPath :=
  { path with selectors := path.selectors ++ [selector] }

/-- The place several selectors further on. -/
def append (path : AccessPath) (selectors : List Selector) : AccessPath :=
  { path with selectors := path.selectors ++ selectors }

/-- Whether a place is `base` or lies below it. -/
def liesWithin (path base : AccessPath) : Bool :=
  path.root == base.root && base.selectors.isPrefixOf path.selectors

/-- The selectors that lead from `base` to a place at or below it. -/
def below? (path base : AccessPath) : Option (List Selector) :=
  if path.liesWithin base then some (path.selectors.drop base.selectors.length) else none

/-- The written form: the slot, then the selectors, separated by dots. -/
def render (path : AccessPath) : String :=
  path.selectors.foldl (fun text selector => text ++ "." ++ selector.render)
    ("$" ++ toString path.root)

/-- A place lies within a base exactly when it is the base with selectors appended. -/
theorem liesWithin_iff (path base : AccessPath) :
    path.liesWithin base = true ↔ ∃ selectors, path = base.append selectors := by
  obtain ⟨root, selectors⟩ := path
  obtain ⟨baseRoot, baseSelectors⟩ := base
  simp only [liesWithin, append, Bool.and_eq_true, beq_iff_eq, List.isPrefixOf_iff_prefix,
    AccessPath.mk.injEq]
  constructor
  · rintro ⟨rfl, rest, rfl⟩
    exact ⟨rest, rfl, rfl⟩
  · rintro ⟨rest, rfl, rfl⟩
    exact ⟨rfl, rest, rfl⟩

/-- Every place lies within itself. -/
theorem liesWithin_self (path : AccessPath) : path.liesWithin path = true :=
  (liesWithin_iff path path).mpr ⟨[], by simp [append]⟩

theorem append_nil (path : AccessPath) : path.append [] = path := by simp [append]

theorem child_append (path : AccessPath) (selector : Selector) (rest : List Selector) :
    (path.child selector).append rest = path.append (selector :: rest) := by
  simp [child, append]

/-- What lies below a place within a base lies within the base. -/
theorem liesWithin_append {path base : AccessPath} (hwithin : path.liesWithin base = true)
    (selectors : List Selector) : (path.append selectors).liesWithin base = true := by
  obtain ⟨between, rfl⟩ := (liesWithin_iff path base).mp hwithin
  exact (liesWithin_iff _ base).mpr ⟨between ++ selectors, by simp [append]⟩

/-- The selectors from a base to a place are those that were appended to the base. -/
theorem below?_append (base : AccessPath) (selectors : List Selector) :
    (base.append selectors).below? base = some selectors := by
  have hwithin : (base.append selectors).liesWithin base = true :=
    (liesWithin_iff _ base).mpr ⟨selectors, rfl⟩
  rw [below?, if_pos hwithin]
  simp [append]

end AccessPath

end ShapeFlow
