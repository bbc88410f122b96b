import Mathlib.Data.List.Forall2
import ShapeFlow.Engine

/-!
# Blurred programs

A program is blurred by leaving out where its parts stand in the source text and by writing 0 for
every integer (`Program.blur`).  Two programs are alike once they are blurred exactly when they
differ in spans and in the values of integers alone.

What is found out about a program is blurred as well: the declarations, the failures, the recorded
calls, and with them frames and knowledge.  Of a failure only the labels depend on spans
(`Diagnostic.Matches`), and of a summary only its calls (`Summary.Matches`).
-/

namespace ShapeFlow

/-! ## Syntax -/

namespace Expr

mutual

/-- The expression without spans, in which all integers are 0. -/
def blur : Expr → Expr
  | integer _ _ => integer {} 0
  | name _ label => name {} label
  | this _ => this {}
  | ownField _ field => ownField {} field
  | read _ object selector => read {} object.blur selector
  | create _ className arguments => create {} className (blurAll arguments)
  | allocate _ className => allocate {} className
  | array _ elements => array {} (blurAll elements)
  | bind _ label value => bind {} label value.blur
  | write _ object selector value => write {} object.blur selector value.blur
  | send _ object method arguments => send {} object.blur method (blurAll arguments)
  | apply _ function arguments => apply {} function (blurAll arguments)

/-- The expressions without spans, in which all integers are 0. -/
def blurAll : List Expr → List Expr
  | [] => []
  | expr :: rest => expr.blur :: blurAll rest

end

@[simp] theorem span_blur (expr : Expr) : expr.blur.span = {} := by
  cases expr <;> simp only [blur, span]

@[simp] theorem length_blurAll (exprs : List Expr) : (blurAll exprs).length = exprs.length := by
  induction exprs with
  | nil => simp only [blurAll]
  | cons expr rest ih => simp only [blurAll, List.length_cons, ih]

@[simp] theorem isEmpty_blurAll (exprs : List Expr) : (blurAll exprs).isEmpty = exprs.isEmpty := by
  cases exprs <;> simp only [blurAll, List.isEmpty]

end Expr

/-- The definition without spans, in which all integers are 0. -/
def MethodDecl.blur (decl : MethodDecl) : MethodDecl :=
  { decl with body := Expr.blurAll decl.body, span := {} }

/-- The declaration without spans, in which all integers are 0. -/
def ClassDecl.blur (decl : ClassDecl) : ClassDecl :=
  { decl with methods := decl.methods.map MethodDecl.blur, span := {} }

/-- The program without spans, in which all integers are 0. -/
def Program.blur (program : Program) : Program where
  classes := program.classes.map ClassDecl.blur
  functions := program.functions.map MethodDecl.blur
  main := Expr.blurAll program.main
  mainSpan := {}

/-! ## Declarations -/

/-- The definition without spans, in which all integers are 0. -/
def Definition.blur (definition : Definition) : Definition :=
  { definition with decl := definition.decl.blur }

namespace Declarations

/-- The declarations with all definitions blurred. -/
def blur (declarations : Declarations) : Declarations :=
  { declarations with definitions := declarations.definitions.map Definition.blur }

variable (declarations : Declarations)

@[simp] theorem definition?_blur (id : DefId) :
    declarations.blur.definition? id = (declarations.definition? id).map Definition.blur := by
  simp [definition?, blur]

@[simp] theorem class?_blur (className : String) :
    declarations.blur.class? className = declarations.class? className := rfl

@[simp] theorem function?_blur (name : String) :
    declarations.blur.function? name = declarations.function? name := rfl

@[simp] theorem method?_blur (className name : String) :
    declarations.blur.method? className name = declarations.method? className name := rfl

@[simp] theorem declares_blur (className : String) (selector : Selector) :
    declarations.blur.declares className selector = declarations.declares className selector := rfl

end Declarations

/-! ## Failures -/

/-- The cause without its place. -/
def Cause.blur : Cause → Cause
  | unknownField className field _ => unknownField className field {}
  | unboundField className field _ => unboundField className field {}
  | notAnObject field _ => notAnObject field {}
  | undefinedVariable name _ => undefinedVariable name {}
  | undefinedClass className _ => undefinedClass className {}
  | undefinedMethod receiver method _ => undefinedMethod receiver method {}
  | thisOutsideMethod _ => thisOutsideMethod {}
  | arityMismatch definition expected found => arityMismatch definition expected found
  | recursiveSignature signature => recursiveSignature signature
  | depthExceeded signature limit => depthExceeded signature limit
  | mixedArray expected found _ => mixedArray expected found {}
  | unboundSlot method slot _ => unboundSlot method slot {}

/-- The diagnostic without the place of its cause. -/
def Diagnostic.blur : Diagnostic → Diagnostic
  | cause reason => cause reason.blur
  | inSignature signature source => inSignature signature source.blur

/-- The failure without its place. -/
def Failure.blur : Failure → Failure
  | rejected diagnostic => rejected diagnostic.blur
  | broken reference => broken reference

theorem Failure.blur_within (failure : Failure) (signature : String) :
    (failure.within signature).blur = failure.blur.within signature := by
  cases failure with
  | broken reference => rfl
  | rejected diagnostic => cases diagnostic <;> rfl

/-- Both causes are of one kind, and they differ at most in their places. -/
structure Cause.Matches (first second : Cause) : Prop where
  blur : first.blur = second.blur
  message : first.message = second.message
  code : first.code = second.code
  help? : first.help? = second.help?
  signature? : first.signature? = second.signature?
  /-- What to write beside the place is the same. -/
  note? : first.place?.map Prod.snd = second.place?.map Prod.snd

namespace Cause

variable (cause : Cause)

theorem message_blur : cause.blur.message = cause.message := by cases cause <;> rfl

theorem code_blur : cause.blur.code = cause.code := by cases cause <;> rfl

theorem help?_blur : cause.blur.help? = cause.help? := by cases cause <;> rfl

theorem signature?_blur : cause.blur.signature? = cause.signature? := by cases cause <;> rfl

theorem note?_blur : cause.blur.place?.map Prod.snd = cause.place?.map Prod.snd := by
  cases cause <;> rfl

theorem Matches.of_blur_eq {first second : Cause} (hsame : first.blur = second.blur) :
    first.Matches second where
  blur := hsame
  message := by rw [← message_blur, hsame, message_blur]
  code := by rw [← code_blur, hsame, code_blur]
  help? := by rw [← help?_blur, hsame, help?_blur]
  signature? := by rw [← signature?_blur, hsame, signature?_blur]
  note? := by rw [← note?_blur, hsame, note?_blur]

end Cause

namespace Diagnostic

/-- Both diagnostics attribute matching causes to the same signatures, so only their labels can
differ. -/
inductive Matches : Diagnostic → Diagnostic → Prop where
  | cause {first second : Cause} (hcause : first.Matches second) :
    Matches (.cause first) (.cause second)
  | inSignature (signature : String) {first second : Diagnostic} (hsource : Matches first second) :
    Matches (.inSignature signature first) (.inSignature signature second)

variable {first second : Diagnostic}

theorem Matches.of_blur_eq (hsame : first.blur = second.blur) : first.Matches second := by
  induction first generalizing second with
  | cause reason =>
    cases second with
    | cause other => exact .cause (.of_blur_eq (cause.inj hsame))
    | inSignature signature source => exact nomatch hsame
  | inSignature signature source ih =>
    cases second with
    | cause other => exact nomatch hsame
    | inSignature signature' source' =>
      obtain ⟨rfl, hsource⟩ := inSignature.inj hsame
      exact .inSignature signature (ih hsource)

end Diagnostic

/-! ## What is found out -/

/-- The call without its place. -/
def CallRecord.blur (call : CallRecord) : CallRecord := { call with span := {} }

/-- The summary without the places of its calls. -/
def Summary.blur (summary : Summary) : Summary :=
  { summary with calls := summary.calls.map CallRecord.blur }

/-- The frame without the places of the calls that it has recorded. -/
def Frame.blur (frame : Frame) : Frame := { frame with calls := frame.calls.map CallRecord.blur }

/-- What is known, without the places of the recorded calls. -/
def Knowledge.blur (knowledge : Knowledge) : Knowledge :=
  { knowledge with summaries := knowledge.summaries.map Summary.blur }

/-- The two summaries differ at most in the places of their calls. -/
structure Summary.Matches (first second : Summary) : Prop where
  signature : first.signature = second.signature
  result : first.result = second.result
  writes : first.writes = second.writes
  calls : List.Forall₂ (fun call other : CallRecord => other = { call with span := other.span })
    first.calls second.calls

theorem Summary.Matches.of_blur_eq {first second : Summary} (hsame : first.blur = second.blur) :
    first.Matches second where
  signature := show first.blur.signature = second.blur.signature by rw [hsame]
  result := show first.blur.result = second.blur.result by rw [hsame]
  writes := show first.blur.writes = second.blur.writes by rw [hsame]
  calls := by
    have hcalls : first.calls.map CallRecord.blur = second.calls.map CallRecord.blur :=
      congrArg Summary.calls hsame
    rw [← List.forall₂_eq_eq_eq, List.forall₂_map_left_iff, List.forall₂_map_right_iff] at hcalls
    refine hcalls.imp fun call other hblur => ?_
    have hother : other = { other.blur with span := other.span } := rfl
    rw [hother, ← hblur]
    rfl

/-- The same types, memos and statistics are known, and summaries that differ at most in the places
of their calls. -/
structure Knowledge.Matches (first second : Knowledge) : Prop where
  graph : first.graph = second.graph
  /-- A memo also counts how often it was asked, and with which results. -/
  memos : first.memos = second.memos
  summaries : List.Forall₂ Summary.Matches first.summaries.toList second.summaries.toList

theorem Knowledge.Matches.of_blur_eq {first second : Knowledge} (hsame : first.blur = second.blur) :
    first.Matches second where
  graph := show first.blur.graph = second.blur.graph by rw [hsame]
  memos := show first.blur.memos = second.blur.memos by rw [hsame]
  summaries := by
    have hsummaries : first.summaries.toList.map Summary.blur =
        second.summaries.toList.map Summary.blur := by
      rw [← Array.toList_map, ← Array.toList_map]
      exact congrArg (Array.toList ∘ Knowledge.summaries) hsame
    rw [← List.forall₂_eq_eq_eq, List.forall₂_map_left_iff, List.forall₂_map_right_iff]
      at hsummaries
    exact hsummaries.imp fun _ _ => .of_blur_eq

end ShapeFlow
