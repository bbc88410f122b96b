import ShapeFlow.Syntax.Expr

/-!
# Programs

A program declares classes and functions and has a main body.  A class may be
declared more than once; the declarations are kept as they were written, and
`ShapeFlow.Declarations` says what they amount to together.
-/

namespace ShapeFlow

/-- A method of a class or a top-level function. -/
structure MethodDecl where
  name : String
  parameters : List String := []
  body : List Expr := []
  span : Span := {}
deriving Inhabited

/-- One declaration of a class: the parts its objects may have, and its methods. -/
structure ClassDecl where
  name : String
  fields : List Selector := []
  methods : List MethodDecl := []
  span : Span := {}
deriving Inhabited

namespace Selector

/-- List one more selector last, unless it is listed already. -/
def addTo (selectors : List Selector) (selector : Selector) : List Selector :=
  if selector ∈ selectors then selectors else selectors ++ [selector]

/-- A selector is listed afterwards exactly when it is the new one or was listed
before. -/
theorem mem_addTo (selectors : List Selector) (selector other : Selector) :
    other ∈ addTo selectors selector ↔ other = selector ∨ other ∈ selectors := by
  unfold addTo
  split
  · rename_i hmem
    constructor
    · exact Or.inr
    · rintro (rfl | h)
      · exact hmem
      · exact h
  · simp [or_comm]

/-- Listing a selector keeps the list free of repetitions. -/
theorem nodup_addTo {selectors : List Selector} (hnodup : selectors.Nodup) (selector : Selector) :
    (addTo selectors selector).Nodup := by
  unfold addTo
  split
  · exact hnodup
  · rename_i hmem
    rw [List.nodup_append]
    refine ⟨hnodup, by simp, fun first hfirst second hsecond => ?_⟩
    rintro rfl
    exact hmem (List.mem_singleton.mp hsecond ▸ hfirst)

end Selector

namespace ClassDecl

/-- Declare one more part, unless this declaration has it already. -/
def declare (decl : ClassDecl) (selector : Selector) : ClassDecl :=
  { decl with fields := Selector.addTo decl.fields selector }

/-- Add a method behind the methods that are there. -/
def addMethod (decl : ClassDecl) (method : MethodDecl) : ClassDecl :=
  { decl with methods := decl.methods ++ [method] }

/-- The method that answers the field `@name`. -/
def reader (name : String) : MethodDecl where
  name := name
  body := [.ownField {} ("@" ++ name)]

/-- The method that sets the field `@name`. -/
def writer (name : String) : MethodDecl where
  name := name ++ "="
  parameters := [name]
  body := [.write {} (.this {}) (.field ("@" ++ name)) (.name {} name)]

/-- Declare the field `@name` with the methods `name` and `name=` that read and
write it. -/
def addAccessor (decl : ClassDecl) (name : String) : ClassDecl :=
  ((decl.declare (.field ("@" ++ name))).addMethod (reader name)).addMethod (writer name)

end ClassDecl

/-- A program: its declarations in the order in which they were written, and the
expressions that run first. -/
structure Program where
  classes : List ClassDecl := []
  functions : List MethodDecl := []
  main : List Expr := []
  mainSpan : Span := {}
deriving Inhabited

end ShapeFlow
