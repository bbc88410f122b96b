import ShapeFlow.Declarations

/-!
# What names resolve to

Definitions are numbered in the order in which they are written: the methods of the core classes,
then those of the class declarations of the program, then its functions, and last the main body
(`Declarations.written`).  A name stands for the definition of that name that is written last, among
the functions or among all declarations of a class.  What is listed without repetition, the classes,
and the parts and the method names of each class, is listed where it occurs first.

The class declarations are taken in one after the other.  `Declarations.Collects` says what has been
collected from those taken in so far, and each further one keeps it (`Collects.addClass`).
-/

namespace ShapeFlow

universe u v

/-! ## The last item with a property -/

section LastAt

variable {α : Type u} {β : Type v} {items more : List α} {holds : α → Prop} {position : Nat}

/-- The last of the items with the property stands at the position. -/
def LastAt (items : List α) (holds : α → Prop) (position : Nat) : Prop :=
  (∃ item, items[position]? = some item ∧ holds item) ∧
    ∀ later item, position < later → items[later]? = some item → ¬ holds item

theorem not_lastAt_nil : ¬ LastAt ([] : List α) holds position := by
  rintro ⟨⟨item, hitem, -⟩, -⟩
  exact nomatch hitem

/-- The last item with the property is one of those that come later, if one of these has it. -/
theorem lastAt_append : LastAt (items ++ more) holds position ↔
    (∃ offset, position = items.length + offset ∧ LastAt more holds offset) ∨
      LastAt items holds position ∧ ∀ item ∈ more, ¬ holds item := by
  constructor
  · rintro ⟨⟨item, hitem, hholds⟩, hlast⟩
    by_cases hlt : position < items.length
    · rw [List.getElem?_append_left hlt] at hitem
      refine Or.inr ⟨⟨⟨item, hitem, hholds⟩, fun later other hlater hother => ?_⟩,
        fun other hmem => ?_⟩
      · have hbound := (List.getElem?_eq_some_iff.mp hother).1
        exact hlast later other hlater (by rw [List.getElem?_append_left hbound, hother])
      · obtain ⟨offset, hoffset⟩ := List.mem_iff_getElem?.mp hmem
        refine hlast (items.length + offset) other (by omega) ?_
        rw [List.getElem?_append_right (by omega), Nat.add_sub_cancel_left, hoffset]
    · obtain ⟨offset, rfl⟩ := Nat.exists_eq_add_of_le (Nat.not_lt.mp hlt)
      rw [List.getElem?_append_right (by omega), Nat.add_sub_cancel_left] at hitem
      refine Or.inl ⟨offset, rfl, ⟨item, hitem, hholds⟩, fun later other hlater hother => ?_⟩
      refine hlast (items.length + later) other (by omega) ?_
      rw [List.getElem?_append_right (by omega), Nat.add_sub_cancel_left, hother]
  · rintro (⟨offset, rfl, ⟨item, hitem, hholds⟩, hlast⟩ | ⟨⟨⟨item, hitem, hholds⟩, hlast⟩, hnone⟩)
    · refine ⟨⟨item, ?_, hholds⟩, fun later other hlater hother => ?_⟩
      · rw [List.getElem?_append_right (by omega), Nat.add_sub_cancel_left, hitem]
      · rw [List.getElem?_append_right (by omega)] at hother
        exact hlast (later - items.length) other (by omega) hother
    · have hbound := (List.getElem?_eq_some_iff.mp hitem).1
      refine ⟨⟨item, ?_, hholds⟩, fun later other hlater hother => ?_⟩
      · rw [List.getElem?_append_left hbound, hitem]
      · by_cases hlt : later < items.length
        · rw [List.getElem?_append_left hlt] at hother
          exact hlast later other hlater hother
        · rw [List.getElem?_append_right (by omega)] at hother
          exact hnone other (List.mem_of_getElem? hother)

theorem lastAt_append_of_none (hnone : ∀ item ∈ more, ¬ holds item) :
    LastAt (items ++ more) holds position ↔ LastAt items holds position := by
  rw [lastAt_append]
  constructor
  · rintro (⟨offset, -, ⟨item, hitem, hholds⟩, -⟩ | ⟨hlast, -⟩)
    · exact absurd hholds (hnone item (List.mem_of_getElem? hitem))
    · exact hlast
  · exact fun hlast => Or.inr ⟨hlast, hnone⟩

theorem lastAt_cons {first : α} : LastAt (first :: items) holds position ↔
    (∃ offset, position = offset + 1 ∧ LastAt items holds offset) ∨
      position = 0 ∧ holds first ∧ ∀ item ∈ items, ¬ holds item := by
  have hsingle : LastAt [first] holds position ↔ position = 0 ∧ holds first := by
    constructor
    · rintro ⟨⟨item, hitem, hholds⟩, -⟩
      obtain rfl : position = 0 := by simpa using (List.getElem?_eq_some_iff.mp hitem).1
      exact ⟨rfl, Option.some.inj hitem ▸ hholds⟩
    · rintro ⟨rfl, hholds⟩
      exact ⟨⟨first, rfl, hholds⟩, fun later item hlater hitem =>
        absurd (List.getElem?_eq_some_iff.mp hitem).1 (Nat.not_lt.mpr hlater)⟩
  rw [← List.singleton_append, lastAt_append, hsingle, and_assoc, List.length_singleton]
  simp only [Nat.add_comm 1]

theorem lastAt_map {image : β → α} {sources : List β} :
    LastAt (sources.map image) holds position ↔
      LastAt sources (fun source => holds (image source)) position := by
  induction sources generalizing position with
  | nil => exact iff_of_false not_lastAt_nil not_lastAt_nil
  | cons source rest ih => simp only [List.map_cons, lastAt_cons, ih, List.forall_mem_map]

/-- There is a last item with the property if there is one at all. -/
theorem exists_lastAt_iff (items : List α) (holds : α → Prop) :
    (∃ position, LastAt items holds position) ↔ ∃ item ∈ items, holds item := by
  constructor
  · rintro ⟨position, ⟨item, hitem, hholds⟩, -⟩
    exact ⟨item, List.mem_of_getElem? hitem, hholds⟩
  · rintro ⟨item, hmem, hholds⟩
    induction items generalizing item with
    | nil => exact absurd hmem List.not_mem_nil
    | cons first rest ih =>
      by_cases hrest : ∃ other ∈ rest, holds other
      · obtain ⟨other, hother, hholds'⟩ := hrest
        obtain ⟨offset, hoffset⟩ := ih other hother hholds'
        exact ⟨offset + 1, lastAt_cons.mpr (Or.inl ⟨offset, rfl, hoffset⟩)⟩
      · have hfirst : item = first :=
          (List.mem_cons.mp hmem).resolve_right fun hmem => hrest ⟨item, hmem, hholds⟩
        exact ⟨0, lastAt_cons.mpr (Or.inr ⟨rfl, hfirst ▸ hholds, fun other hother hholds' =>
          hrest ⟨other, hother, hholds'⟩⟩)⟩

end LastAt

/-! ## Lists without repetitions -/

section Distinct

variable {α : Type u} [DecidableEq α]

/-- An item that comes last is listed if it has not occurred before. -/
theorem eraseDups_concat (items : List α) (item : α) :
    (items ++ [item]).eraseDups =
      if item ∈ items then items.eraseDups else items.eraseDups ++ [item] := by
  rw [List.eraseDups_append]
  by_cases hmem : item ∈ items <;> simp [List.removeAll, hmem, List.eraseDups_cons]

theorem foldl_addTo_eraseDups (selectors added : List Selector) :
    added.foldl Selector.addTo selectors.eraseDups = (selectors ++ added).eraseDups := by
  induction added generalizing selectors with
  | nil => rw [List.foldl_nil, List.append_nil]
  | cons selector rest ih =>
    have hadd : Selector.addTo selectors.eraseDups selector =
        (selectors ++ [selector]).eraseDups := by
      simp only [eraseDups_concat, Selector.addTo, List.mem_eraseDups]
    rw [List.foldl_cons, hadd, ih, List.append_assoc, List.singleton_append]

namespace OrderedMap

variable {β : Type v}

/-- Keys are listed in the order in which they occur first. -/
theorem keys_insertAll (map : OrderedMap α β) {keys : List α} (hkeys : map.keys = keys.eraseDups)
    (entries : List (α × β)) :
    (map.insertAll entries).keys = (keys ++ entries.map Prod.fst).eraseDups := by
  induction entries generalizing map keys with
  | nil => rw [List.map_nil, List.append_nil, ← hkeys]; rfl
  | cons entry rest ih =>
    have hinsert : (map.insert entry.1 entry.2).keys = (keys ++ [entry.1]).eraseDups := by
      simp only [keys_insert, eraseDups_concat, hkeys, List.mem_eraseDups]
    rw [insertAll, List.foldl_cons, ← insertAll, ih _ hinsert, List.map_cons, List.append_assoc,
      List.singleton_append]

end OrderedMap

end Distinct

/-! ## The definitions as they are written -/

/-- The definition is a method of the class and has the name. -/
def Definition.IsMethodOf (definition : Definition) (className name : String) : Prop :=
  definition.owner? = some className ∧ definition.decl.name = name

/-- The methods of a class declaration. -/
def ClassDecl.definitions (decl : ClassDecl) : List Definition :=
  decl.methods.map fun method => { owner? := some decl.name, decl := method }

namespace Declarations

/-- The methods of class declarations, in the order in which they are written. -/
def methodsOf (decls : List ClassDecl) : List Definition := decls.flatMap ClassDecl.definitions

/-- The declarations of a class. -/
def declarationsOf (className : String) (decls : List ClassDecl) : List ClassDecl :=
  decls.filter fun decl => decl.name = className

/-- The parts that are declared for a class. -/
def partsOf (className : String) (decls : List ClassDecl) : List Selector :=
  (declarationsOf className decls).flatMap ClassDecl.fields

/-- The names of the methods that are declared for a class. -/
def methodNamesOf (className : String) (decls : List ClassDecl) : List String :=
  (declarationsOf className decls).flatMap fun decl => decl.methods.map MethodDecl.name

/-- The main body of a program. -/
def mainOf (program : Program) : Definition where
  decl := { name := mainName, body := program.main, span := program.mainSpan }

/-- All class declarations that count for a program. -/
def classDecls (program : Program) : List ClassDecl := coreClasses ++ program.classes

/-- All definitions that count for a program, in the order in which they are written. -/
def written (program : Program) : List Definition :=
  methodsOf (classDecls program) ++ program.functions.map (fun decl => { decl := decl }) ++
    [mainOf program]

/-! ## Collecting class declarations -/

variable {declarations : Declarations} {className name : String} {id : DefId}

/-- What is declared of a class, nothing if the class is not declared. -/
def info (declarations : Declarations) (className : String) : ClassInfo :=
  (declarations.class? className).getD {}

theorem method?_eq_info (declarations : Declarations) (className name : String) :
    declarations.method? className name = (declarations.info className).methods.get? name := by
  unfold method? info
  cases declarations.class? className <;> rfl

/-- Numbered definitions replace those of their names, and of several with one name the last one
counts. -/
theorem get?_insertAll_numbered (map : OrderedMap String DefId) (first : Nat)
    (decls : List MethodDecl) :
    (map.insertAll (numbered first decls)).get? name = some id ↔
      (∃ offset, id.index = first + offset ∧ LastAt decls (·.name = name) offset) ∨
        map.get? name = some id ∧ ∀ decl ∈ decls, decl.name ≠ name := by
  -- The numbers of the rest go on from the first one.
  have hfrom : ∀ (start : Nat) (map : OrderedMap String DefId),
      (map.insertAll ((decls.zipIdx start).map fun entry =>
          (entry.1.name, ⟨first + entry.2⟩))).get? name = some id ↔
        (∃ offset, id.index = first + start + offset ∧ LastAt decls (·.name = name) offset) ∨
          map.get? name = some id ∧ ∀ decl ∈ decls, decl.name ≠ name := by
    induction decls with
    | nil => simp [OrderedMap.insertAll, not_lastAt_nil]
    | cons decl rest ih =>
      intro start map
      rw [List.zipIdx_cons, List.map_cons, OrderedMap.insertAll, List.foldl_cons,
        ← OrderedMap.insertAll, ih, OrderedMap.get?_insert]
      simp only [lastAt_cons, List.forall_mem_cons]
      constructor
      · rintro (⟨offset, hindex, hlast⟩ | ⟨hheld, hrest⟩)
        · exact Or.inl ⟨offset + 1, by omega, Or.inl ⟨offset, rfl, hlast⟩⟩
        · split at hheld
          · rename_i hname
            obtain rfl := Option.some.inj hheld
            exact Or.inl ⟨0, rfl, Or.inr ⟨rfl, hname.symm, hrest⟩⟩
          · rename_i hname
            exact Or.inr ⟨hheld, Ne.symm hname, hrest⟩
      · rintro (⟨_, hindex, ⟨offset, rfl, hlast⟩ | ⟨rfl, hname, hrest⟩⟩ | ⟨hheld, hname, hrest⟩)
        · exact Or.inl ⟨offset, by omega, hlast⟩
        · refine Or.inr ⟨?_, hrest⟩
          rw [if_pos hname.symm, Option.some.injEq]
          exact congrArg DefId.mk hindex.symm
        · exact Or.inr ⟨by rwa [if_neg (Ne.symm hname)], hrest⟩
  simpa [numbered] using hfrom 0 map

/-- What has been collected from the class declarations that were taken in. -/
structure Collects (declarations : Declarations) (taken : List ClassDecl) : Prop where
  definitions : declarations.definitions.toList = methodsOf taken
  functions : declarations.functions = ∅
  classes : declarations.classes.keys = (taken.map ClassDecl.name).eraseDups
  parts : ∀ className,
    (declarations.info className).fields = (partsOf className taken).eraseDups
  methodNames : ∀ className,
    (declarations.info className).methods.keys = (methodNamesOf className taken).eraseDups
  resolves : ∀ className name id, declarations.method? className name = some id ↔
    LastAt (methodsOf taken) (·.IsMethodOf className name) id.index

theorem collects_nothing : Collects {} [] where
  definitions := rfl
  functions := rfl
  classes := rfl
  parts _ := rfl
  methodNames _ := rfl
  resolves _ _ _ := iff_of_false nofun not_lastAt_nil

theorem info_addClass (declarations : Declarations) (decl : ClassDecl) (className : String) :
    (declarations.addClass decl).info className =
      if className = decl.name then
        { fields := decl.fields.foldl Selector.addTo (declarations.info decl.name).fields
          methods := (declarations.info decl.name).methods.insertAll
            (numbered declarations.definitions.size decl.methods) }
      else declarations.info className := by
  simp only [info, class?, addClass, OrderedMap.get?_insert]
  split <;> rfl

theorem map_fst_numbered (first : Nat) (decls : List MethodDecl) :
    (numbered first decls).map Prod.fst = decls.map MethodDecl.name := by
  rw [numbered, List.map_map]
  calc decls.zipIdx.map (fun entry => entry.1.name)
      = (decls.zipIdx.map Prod.fst).map MethodDecl.name := List.map_map.symm
    _ = decls.map MethodDecl.name := by rw [List.zipIdx_map_fst]

theorem declarationsOf_concat (className : String) (taken : List ClassDecl) (decl : ClassDecl) :
    declarationsOf className (taken ++ [decl]) =
      declarationsOf className taken ++ if className = decl.name then [decl] else [] := by
  rw [declarationsOf, List.filter_append]
  by_cases hname : className = decl.name
  · simp [declarationsOf, hname]
  · simp [declarationsOf, hname, Ne.symm hname]

/-- One more class declaration is taken in. -/
theorem Collects.addClass {taken : List ClassDecl} (hcollects : declarations.Collects taken)
    (decl : ClassDecl) : (declarations.addClass decl).Collects (taken ++ [decl]) where
  definitions := by
    simp [Declarations.addClass, hcollects.definitions, methodsOf, ClassDecl.definitions]
  functions := hcollects.functions
  classes := by
    simp only [Declarations.addClass, OrderedMap.keys_insert, hcollects.classes,
      List.map_append, List.map_singleton, eraseDups_concat, List.mem_eraseDups]
  parts className := by
    rw [info_addClass, partsOf, declarationsOf_concat, List.flatMap_append, ← partsOf]
    split
    · rename_i hname
      subst hname
      rw [hcollects.parts, foldl_addTo_eraseDups, List.flatMap_singleton]
    · rw [hcollects.parts, List.flatMap_nil, List.append_nil]
  methodNames className := by
    rw [info_addClass, methodNamesOf, declarationsOf_concat, List.flatMap_append, ← methodNamesOf]
    split
    · rename_i hname
      subst hname
      rw [OrderedMap.keys_insertAll _ (hcollects.methodNames _), map_fst_numbered,
        List.flatMap_singleton]
    · rw [hcollects.methodNames, List.flatMap_nil, List.append_nil]
  resolves className name id := by
    have hsize : declarations.definitions.size = (methodsOf taken).length := by
      rw [← hcollects.definitions, Array.length_toList]
    have hmethods : methodsOf (taken ++ [decl]) = methodsOf taken ++ decl.definitions := by
      rw [methodsOf, List.flatMap_append, List.flatMap_singleton, ← methodsOf]
    have hbefore := hcollects.resolves className name id
    rw [method?_eq_info] at hbefore
    rw [hmethods, method?_eq_info, info_addClass]
    split
    · rename_i hname
      subst hname
      rw [get?_insertAll_numbered, hsize, lastAt_append, ← hbefore, ClassDecl.definitions,
        List.forall_mem_map]
      simp only [lastAt_map, Definition.IsMethodOf, true_and]
    · rename_i hname
      rw [hbefore, lastAt_append_of_none]
      refine List.forall_mem_map.mpr fun method _ hmethod => hname ?_
      exact (Option.some.inj hmethod.1).symm

/-- All of the class declarations are taken in. -/
theorem Collects.foldl {taken : List ClassDecl} (hcollects : declarations.Collects taken)
    (decls : List ClassDecl) :
    (decls.foldl Declarations.addClass declarations).Collects (taken ++ decls) := by
  induction decls generalizing declarations taken with
  | nil => rwa [List.append_nil]
  | cons decl rest ih =>
    rw [← List.singleton_append, ← List.append_assoc]
    exact ih (hcollects.addClass decl)

/-! ## The declarations of a program -/

/-- What the names of a program resolve to, and in which order its declarations are listed. -/
structure Resolves (declarations : Declarations) (program : Program) : Prop where
  /-- The definitions are numbered in the order in which they are written. -/
  definitions : declarations.definitions.toList = written program
  /-- The main body is the last definition. -/
  main : declarations.main.index + 1 = declarations.definitions.size ∧
    declarations.definition? declarations.main = some (mainOf program)
  /-- A method is the last one of its name in all declarations of the class. -/
  method : ∀ className name id, declarations.method? className name = some id ↔
    LastAt (written program) (·.IsMethodOf className name) id.index
  noMethod : ∀ className name, declarations.method? className name = none ↔
    ∀ decl ∈ classDecls program, decl.name = className →
      ∀ method ∈ decl.methods, method.name ≠ name
  /-- A function is the last one of its name. -/
  function : ∀ name id, declarations.function? name = some id ↔
    ∃ position, id.index = (methodsOf (classDecls program)).length + position ∧
      LastAt program.functions (·.name = name) position
  noFunction : ∀ name, declarations.function? name = none ↔
    ∀ decl ∈ program.functions, decl.name ≠ name
  /-- The classes are those that are declared, in the order of their first declaration. -/
  declared : ∀ className, (declarations.class? className).isSome = true ↔
    ∃ decl ∈ classDecls program, decl.name = className
  classes : declarations.classes.keys = ((classDecls program).map ClassDecl.name).eraseDups
  /-- The parts and the method names of a class are those of all its declarations, in the order in
  which they occur first. -/
  parts : ∀ className info, declarations.class? className = some info →
    info.fields = (partsOf className (classDecls program)).eraseDups
  methodNames : ∀ className info, declarations.class? className = some info →
    info.methods.keys = (methodNamesOf className (classDecls program)).eraseDups
  /-- What a name resolves to is there, under that name. -/
  foundMethod : ∀ className name id, declarations.method? className name = some id →
    ∃ definition, declarations.definition? id = some definition ∧
      definition.owner? = some className ∧ definition.decl.name = name
  foundFunction : ∀ name id, declarations.function? name = some id →
    ∃ definition, declarations.definition? id = some definition ∧
      definition.owner? = none ∧ definition.decl.name = name

theorem collects_classDecls (program : Program) :
    ((classDecls program).foldl addClass {}).Collects (classDecls program) :=
  collects_nothing.foldl (classDecls program)

theorem written_eq (program : Program) :
    written program = methodsOf (classDecls program) ++
      (program.functions.map (fun decl => { decl := decl }) ++ [mainOf program]) :=
  List.append_assoc _ _ _

theorem definitions_ofProgram (program : Program) :
    (ofProgram program).definitions.toList = written program := by
  have hcollected := (collects_classDecls program).definitions
  simp only [ofProgram, addMain, addFunctions, Array.toList_push, Array.toList_appendList]
  rw [written, ← hcollected]
  rfl

theorem definition?_ofProgram (program : Program) (id : DefId) :
    (ofProgram program).definition? id = (written program)[id.index]? := by
  rw [definition?, ← Array.getElem?_toList, definitions_ofProgram]

theorem method?_ofProgram_iff (program : Program) (className name : String) (id : DefId) :
    (ofProgram program).method? className name = some id ↔
      LastAt (written program) (·.IsMethodOf className name) id.index := by
  rw [written_eq, lastAt_append_of_none]
  · exact (collects_classDecls program).resolves className name id
  · -- Neither a function nor the main body belongs to a class.
    refine List.forall_mem_append.mpr ⟨List.forall_mem_map.mpr fun decl _ hmethod => ?_,
      List.forall_mem_singleton.mpr fun hmethod => ?_⟩
    · exact nomatch hmethod.1
    · exact nomatch hmethod.1

theorem function?_ofProgram_iff (program : Program) (name : String) (id : DefId) :
    (ofProgram program).function? name = some id ↔
      ∃ position, id.index = (methodsOf (classDecls program)).length + position ∧
        LastAt program.functions (·.name = name) position := by
  have hcollects := collects_classDecls program
  have hfunctions : (ofProgram program).function? name =
      ((∅ : OrderedMap String DefId).insertAll
        (numbered (methodsOf (classDecls program)).length program.functions)).get? name := by
    rw [← hcollects.functions, ← hcollects.definitions]
    rfl
  rw [hfunctions, get?_insertAll_numbered]
  exact or_iff_left fun hheld => nomatch hheld.1

/-- A part of the program is not found by its name if nothing of the name is written. -/
theorem eq_none_iff_of_lastAt {α : Type u} {items : List α} {holds : α → Prop}
    {found? : Option DefId} {first : Nat}
    (hfound : ∀ id, found? = some id ↔
      ∃ position, id.index = first + position ∧ LastAt items holds position) :
    found? = none ↔ ∀ item ∈ items, ¬ holds item := by
  rw [Option.eq_none_iff_forall_ne_some]
  constructor
  · intro hnone item hmem hholds
    obtain ⟨position, hposition⟩ := (exists_lastAt_iff items holds).mpr ⟨item, hmem, hholds⟩
    exact hnone ⟨first + position⟩ ((hfound _).mpr ⟨position, rfl, hposition⟩)
  · intro hnone id hid
    obtain ⟨position, -, ⟨item, hitem, hholds⟩, -⟩ := (hfound id).mp hid
    exact hnone item (List.mem_of_getElem? hitem) hholds

/-- The class of that name is declared, if there is one. -/
theorem class?_ofProgram_eq (program : Program) (className : String) :
    (ofProgram program).class? className =
      ((classDecls program).foldl addClass {}).class? className := rfl

theorem resolves_ofProgram (program : Program) : (ofProgram program).Resolves program := by
  have hcollects := collects_classDecls program
  have hfound : ∀ (id : DefId) (holds : Definition → Prop),
      LastAt (written program) holds id.index →
        ∃ definition, (ofProgram program).definition? id = some definition ∧ holds definition := by
    rintro id holds ⟨⟨definition, hdefinition, hholds⟩, -⟩
    exact ⟨definition, (definition?_ofProgram program id).trans hdefinition, hholds⟩
  refine
    { definitions := definitions_ofProgram program
      main := ?main
      method := method?_ofProgram_iff program
      noMethod := ?noMethod
      function := function?_ofProgram_iff program
      noFunction := fun name => eq_none_iff_of_lastAt (function?_ofProgram_iff program name)
      declared := ?declared
      classes := hcollects.classes
      parts := ?parts
      methodNames := ?methodNames
      foundMethod := fun className name id hid =>
        hfound id _ ((method?_ofProgram_iff program className name id).mp hid)
      foundFunction := ?foundFunction }
  case main =>
    have hsize : (ofProgram program).definitions.size =
        (ofProgram program).main.index + 1 := Array.size_push _
    exact ⟨hsize.symm, Array.getElem?_push_size⟩
  case noMethod =>
    intro className name
    have hresolves : ∀ id, (ofProgram program).method? className name = some id ↔
        ∃ position, id.index = 0 + position ∧
          LastAt (methodsOf (classDecls program)) (·.IsMethodOf className name) position := by
      intro id
      simp only [Nat.zero_add, exists_eq_left']
      exact hcollects.resolves className name id
    rw [eq_none_iff_of_lastAt hresolves]
    simp only [methodsOf, ClassDecl.definitions, Definition.IsMethodOf, List.forall_mem_flatMap,
      List.forall_mem_map, Option.some.injEq, not_and]
    exact forall₂_congr fun decl _ =>
      ⟨fun hall hname method hmem => hall method hmem hname,
        fun hall method hmem hname => hall hname method hmem⟩
  case declared =>
    intro className
    have hkeys := OrderedMap.contains_iff_mem_keys (ofProgram program).classes className
    rw [OrderedMap.contains] at hkeys
    rw [class?, hkeys, show (ofProgram program).classes.keys = _ from hcollects.classes,
      List.mem_eraseDups, List.mem_map]
  case parts =>
    intro className info hinfo
    have hparts := hcollects.parts className
    rwa [Declarations.info, ← class?_ofProgram_eq, hinfo] at hparts
  case methodNames =>
    intro className info hinfo
    have hnames := hcollects.methodNames className
    rwa [Declarations.info, ← class?_ofProgram_eq, hinfo] at hnames
  case foundFunction =>
    intro name id hid
    obtain ⟨position, hindex, ⟨decl, hdecl, hname⟩, -⟩ :=
      (function?_ofProgram_iff program name id).mp hid
    have hlt := (List.getElem?_eq_some_iff.mp hdecl).1
    refine ⟨{ decl := decl }, ?_, rfl, hname⟩
    rw [definition?_ofProgram, written_eq, hindex, List.getElem?_append_right (by omega),
      Nat.add_sub_cancel_left, List.getElem?_append_left (by simpa using hlt), List.getElem?_map,
      hdecl]
    rfl

theorem slotOf?_eq_some_iff (definition : Definition) (parameter : String) (slot : Nat) :
    definition.slotOf? parameter = some slot ↔
      ∃ position, definition.decl.parameters[position]? = some parameter ∧
        (∀ earlier < position, definition.decl.parameters[earlier]? ≠ some parameter) ∧
          slot = 1 + position + if definition.owner?.isSome then 1 else 0 := by
  have hreceiver : definition.receiverSlots = if definition.owner?.isSome then 1 else 0 := rfl
  simp only [Definition.slotOf?, Option.map_eq_some_iff, List.findIdx?_eq_some_iff_getElem,
    beq_iff_eq, hreceiver]
  constructor
  · rintro ⟨position, ⟨hlt, hfound, hfirst⟩, rfl⟩
    refine ⟨position, List.getElem?_eq_some_iff.mpr ⟨hlt, hfound⟩, fun earlier hearlier hsame => ?_,
      by omega⟩
    exact hfirst earlier hearlier (List.getElem?_eq_some_iff.mp hsame).2
  · rintro ⟨position, hfound, hfirst, rfl⟩
    obtain ⟨hlt, hfound⟩ := List.getElem?_eq_some_iff.mp hfound
    refine ⟨position, ⟨hlt, hfound, fun earlier hearlier hsame => ?_⟩, by omega⟩
    exact hfirst earlier hearlier (List.getElem?_eq_some_iff.mpr ⟨Nat.lt_trans hearlier hlt, hsame⟩)

/-- The names of a program resolve to the definitions that are written last, classes, parts and
method names are listed where they occur first, and a parameter stands for the slot of its first
position, behind that of the receiver. -/
theorem ofProgram_resolves (program : Program) :
    (ofProgram program).Resolves program ∧
      ∀ (definition : Definition) (parameter : String),
        (∀ slot, definition.slotOf? parameter = some slot ↔
          ∃ position, definition.decl.parameters[position]? = some parameter ∧
            (∀ earlier < position, definition.decl.parameters[earlier]? ≠ some parameter) ∧
              slot = 1 + position + if definition.owner?.isSome then 1 else 0) ∧
        (definition.slotOf? parameter = none ↔ parameter ∉ definition.decl.parameters) ∧
        ∀ slot, definition.slotOf? parameter = some slot → slot ≤ definition.arity := by
  refine ⟨resolves_ofProgram program, fun definition parameter =>
    ⟨fun slot => slotOf?_eq_some_iff definition parameter slot, ?_, fun slot hslot =>
      (definition.slotOf?_bounds hslot).2⟩⟩
  rw [Definition.slotOf?, Option.map_eq_none_iff, List.findIdx?_eq_none_iff]
  simp only [beq_eq_false_iff_ne, ne_eq]
  exact ⟨fun hall hmem => hall parameter hmem rfl, fun hnot other hmem heq => hnot (heq ▸ hmem)⟩

end Declarations

end ShapeFlow
