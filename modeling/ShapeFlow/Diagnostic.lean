import ShapeFlow.Syntax.Span

/-!
# Diagnostics

A diagnostic says why inference rejects a program.  Its cause is one of twelve
kinds (`Cause`), each with the names and numbers its message needs, and with the
place in the source text where the kind of fault has one.  A cause is attributed
to the signature under analysis when it arose; an attributed diagnostic is not
attributed again, so the innermost signature is the one that is reported.
-/

namespace ShapeFlow

/-- Why a program is rejected. -/
inductive Cause where
  /-- A part that the class of the object does not declare. -/
  | unknownField (className field : String) (span : Span)
  /-- A declared part that nothing has been assigned to. -/
  | unboundField (className field : String) (span : Span)
  /-- A part of a primitive value. -/
  | notAnObject (field : String) (span : Span)
  /-- A name that is neither a local nor a parameter. -/
  | undefinedVariable (name : String) (span : Span)
  /-- A class that is not declared. -/
  | undefinedClass (className : String) (span : Span)
  /-- A method or function that is not declared. -/
  | undefinedMethod (receiver method : String) (span : Span)
  /-- The running object, where none is running. -/
  | thisOutsideMethod (span : Span)
  /-- The wrong number of arguments. -/
  | arityMismatch (definition : String) (expected found : Nat)
  /-- A signature whose analysis needs itself. -/
  | recursiveSignature (signature : String)
  /-- More analyses within one another than allowed. -/
  | depthExceeded (signature : String) (limit : Nat)
  /-- Elements of one array that differ in type. -/
  | mixedArray (expected found : String) (span : Span)
  /-- A summary that mentions a slot which the call does not have. -/
  | unboundSlot (method : String) (slot : Nat) (span : Span)
deriving DecidableEq, Repr, Inhabited

namespace Cause

/-- The message. -/
def message : Cause → String
  | unknownField className field _ => s!"Unknown field {field} on {className}"
  | unboundField className field _ => s!"Field {field} of {className} is read before it is assigned"
  | notAnObject field _ => s!"Cannot select {field} on a primitive value"
  | undefinedVariable name _ => s!"Undefined variable: {name}"
  | undefinedClass className _ => s!"Undefined class: {className}"
  | undefinedMethod receiver method _ => s!"Undefined method {method} for {receiver}"
  | thisOutsideMethod _ => "`self` used outside of a class method"
  | arityMismatch definition expected found =>
    s!"Arity mismatch: {definition} expects {expected} arguments, found {found}"
  | recursiveSignature signature => s!"Recursive analysis of {signature}"
  | depthExceeded signature limit =>
    s!"Call depth limit of {limit} exceeded while analyzing {signature}"
  | mixedArray expected found _ => s!"Array elements disagree: expected {expected}, found {found}"
  | unboundSlot method slot _ =>
    s!"Result of {method} refers to slot {slot}, which the call does not bind"

/-- The code under which the kind of cause is documented. -/
def code : Cause → String
  | unknownField .. => "crux::infer::unknown_field"
  | unboundField .. => "crux::infer::unbound_field"
  | notAnObject .. => "crux::infer::not_an_object"
  | undefinedVariable .. => "crux::infer::undefined_variable"
  | undefinedClass .. => "crux::infer::undefined_class"
  | undefinedMethod .. => "crux::infer::undefined_method"
  | thisOutsideMethod .. => "crux::infer::self_outside_method"
  | arityMismatch .. => "crux::infer::arity_mismatch"
  | recursiveSignature .. => "crux::infer::recursive_signature"
  | depthExceeded .. => "crux::infer::call_depth_exceeded"
  | mixedArray .. => "crux::infer::heterogeneous_array"
  | unboundSlot .. => "crux::infer::unbound_slot"

/-- What to do about it, where there is general advice. -/
def help? : Cause → Option String
  | unknownField className field _ =>
    some s!"Declare {field} on class {className} before reading or writing it"
  | unboundField _ field _ => some s!"Assign {field} before reading it so its type is known"
  | notAnObject .. => some "Only object types have fields"
  | undefinedVariable .. => some "Ensure the variable is assigned or is a parameter before use"
  | undefinedClass .. => none
  | undefinedMethod _ method _ =>
    some s!"Define {method} on the receiver's class or as a top-level function"
  | thisOutsideMethod .. => none
  | arityMismatch .. => some "The receiver of a class method counts as its first argument"
  | recursiveSignature .. =>
    some <| "Signatures are analyzed once without fixed-point iteration, so a call that " ++
      "re-enters an unfinished signature cannot be typed"
  | depthExceeded .. =>
    some "Raise EngineOptions::max_call_depth if the call chain is legitimately this deep"
  | mixedArray .. => some "All elements of an array literal must have the same type"
  | unboundSlot .. =>
    some "This is an internal inconsistency between a cached instance and its call site"

/-- The place of the fault and what to write beside it, for the kinds that have one. -/
def place? : Cause → Option (Span × String)
  | unknownField className field span => some (span, s!"{className} has no field {field}")
  | unboundField _ field span => some (span, s!"{field} has no type yet")
  | notAnObject _ span => some (span, "primitive value")
  | undefinedVariable _ span => some (span, "undefined variable")
  | undefinedClass _ span => some (span, "undefined class")
  | undefinedMethod _ method span => some (span, s!"no method {method}")
  | thisOutsideMethod span => some (span, "no receiver here")
  | mixedArray _ found span => some (span, s!"element of type {found}")
  | unboundSlot _ _ span => some (span, "bound here")
  | arityMismatch .. | recursiveSignature .. | depthExceeded .. => none

/-- The signature that the cause itself names. -/
def signature? : Cause → Option String
  | recursiveSignature signature | depthExceeded signature _ => some signature
  | _ => none

end Cause

/-- Text to point at, and what to write beside it. -/
structure Label where
  offset : Nat
  length : Nat
  text : String
deriving DecidableEq, Repr

/-- A cause, attributed to a signature or not. -/
inductive Diagnostic where
  | cause (cause : Cause)
  | inSignature (signature : String) (source : Diagnostic)
deriving DecidableEq, Repr, Inhabited

namespace Diagnostic

instance : Coe Cause Diagnostic := ⟨cause⟩

/-- Attribute a diagnostic to a signature, unless it is attributed already. -/
def within (signature : String) : Diagnostic → Diagnostic
  | cause reason => inSignature signature (cause reason)
  | inSignature inner source => inSignature inner source

/-- The cause without any attribution. -/
def rootCause : Diagnostic → Cause
  | cause reason => reason
  | inSignature _ source => source.rootCause

/-- The signature that the diagnostic names. -/
def signature? : Diagnostic → Option String
  | cause reason => reason.signature?
  | inSignature signature _ => some signature

/-- The message. -/
def message : Diagnostic → String
  | cause reason => reason.message
  | inSignature signature _ => s!"While analyzing {signature}"

/-- The code under which the kind of diagnostic is documented. -/
def code : Diagnostic → String
  | cause reason => reason.code
  | inSignature .. => "crux::infer::in_signature"

/-- What to do about it, where there is general advice. -/
def help? : Diagnostic → Option String
  | cause reason => reason.help?
  | inSignature .. => none

/-- The text to point at.  A fault at an empty span points nowhere, and so does an
attribution, whose source points for it. -/
def labels : Diagnostic → List Label
  | cause reason =>
    match reason.place? with
    | some (span, text) =>
      match span.range? with
      | some (offset, length) => [⟨offset, length, text⟩]
      | none => []
    | none => []
  | inSignature .. => []

/-- Attribution keeps the cause. -/
@[simp] theorem rootCause_within (signature : String) (diagnostic : Diagnostic) :
    (within signature diagnostic).rootCause = diagnostic.rootCause := by
  cases diagnostic <;> rfl

/-- Of two attributions the inner one stays. -/
@[simp] theorem within_within (outer inner : String) (diagnostic : Diagnostic) :
    within outer (within inner diagnostic) = within inner diagnostic := by
  cases diagnostic <;> rfl

end Diagnostic

end ShapeFlow
