import ShapeFlow.Proofs.IntactWrites
import ShapeFlow.Proofs.Resolution

/-!
# Classes that are declared more than once

A class may be reopened: its objects may have every part that one of its declarations lists, and no
other (`Declarations.declares_ofProgram_iff`).  So what is declared of a core class stays declared
whatever a program adds to it.  This matters for arrays, whose elements are bound without asking
whether they are declared.

What a program declares are shapes that its analysis observes (`Declarations.shapes`), and
everything is (`Shapes.all`): whatever admits what is declared is a regime for the bodies of the
program (`Shapes.Admit.rules`).
-/

namespace ShapeFlow

namespace Declarations

variable {declarations : Declarations} {className : String} {selector : Selector}

theorem declares_eq_true_iff : declarations.declares className selector = true ↔
    ∃ info, declarations.class? className = some info ∧ selector ∈ info.fields := by
  unfold declares
  split
  · rename_i info hinfo
    simp [hinfo, ClassInfo.declares]
  · rename_i hnone
    simp [hnone]

/-- The classes are those that have a declaration. -/
theorem class?_ofProgram_isSome_iff (program : Program) (className : String) :
    ((ofProgram program).class? className).isSome = true ↔
      ∃ decl ∈ coreClasses ++ program.classes, decl.name = className :=
  (resolves_ofProgram program).declared className

/-- The parts that the objects of a class may have are those that a declaration of the class
lists. -/
theorem declares_ofProgram_iff (program : Program) (className : String) (selector : Selector) :
    (ofProgram program).declares className selector = true ↔
      ∃ decl ∈ coreClasses ++ program.classes, decl.name = className ∧ selector ∈ decl.fields := by
  have hresolves := resolves_ofProgram program
  have hparts : selector ∈ partsOf className (classDecls program) ↔
      ∃ decl ∈ coreClasses ++ program.classes, decl.name = className ∧ selector ∈ decl.fields := by
    simp only [partsOf, declarationsOf, List.mem_flatMap, List.mem_filter, decide_eq_true_eq,
      and_assoc]
    rfl
  rw [declares_eq_true_iff, ← hparts]
  constructor
  · rintro ⟨info, hinfo, hmem⟩
    rwa [hresolves.parts className info hinfo, List.mem_eraseDups] at hmem
  · intro hmem
    obtain ⟨decl, hdecl, hname, -⟩ := hparts.mp hmem
    obtain ⟨info, hinfo⟩ :=
      Option.isSome_iff_exists.mp ((hresolves.declared className).mpr ⟨decl, hdecl, hname⟩)
    refine ⟨info, hinfo, ?_⟩
    rwa [hresolves.parts className info hinfo, List.mem_eraseDups]

/-- What the declarations declare. -/
def shapes (declarations : Declarations) : Shapes where
  Class className := (declarations.class? className).isSome = true
  Part className selector := declarations.declares className selector = true

theorem admit_shapes (program : Program) :
    (ofProgram program).shapes.Admit (ofProgram program) where
  classes _ hclass := hclass
  parts _ _ hdeclares := hdeclares
  elements := (declares_ofProgram_iff program arrayName .element).mpr
    ⟨arrayClass, List.mem_append_left _ (by simp [coreClasses]), rfl, by simp [arrayClass]⟩

end Declarations

/-- Shapes that admit what a program declares are a regime for the bodies of the program. -/
theorem Shapes.Admit.rules {shapes : Shapes} {program : Program}
    (hallowed : shapes.Admit (.ofProgram program)) : shapes.regime.Rules (.ofProgram program) where
  lawful := shapes.lawful hallowed
  owned := (Declarations.owned_ofProgram program).1
  arrays := (Declarations.class?_ofProgram_isSome_iff program Declarations.arrayName).mpr
    ⟨Declarations.arrayClass, List.mem_append_left _ (by simp [Declarations.coreClasses]), rfl⟩

end ShapeFlow
