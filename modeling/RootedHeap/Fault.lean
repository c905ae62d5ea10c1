import RootedHeap.Word
import RootedHeap.Text.Layout
import RootedHeap.Text.Quoted

/-!
What can go wrong. A fault states its cause; the sentence that a reader sees is `Fault.message`, and
`Fault.layout` is the structural view used in logs. `Answer α` is a result that may be a fault.
-/

namespace RootedHeap

/-- Why a reference was refused. -/
inductive ReferenceFault where
  | notHeld (object : Handle)
  /-- The slot holds data where a reference was asked for, or a reference where data was. -/
  | otherKind (object : Handle) (slot : Nat) (value : Word)
  | notData (value : Word)
  | stated (text : String)
  deriving DecidableEq

/-- Why the state of the machine does not allow an operation. -/
inductive StateFault where
  | unbound
  | alreadyBound
  | alreadyHeld (cell : Handle)
  | stated (text : String)
  deriving DecidableEq

/-- Why a mutator program gave up. -/
inductive ProgramFault where
  | listTooLong (length : Nat)
  | listTag (cell : Handle) (tag expected : Word)
  | listTooShort (visited expected : Nat)
  | objectTag (object : Handle) (tag : Word) (expected : Option Word)
  | threadPanicked
  | stated (text : String)
  deriving DecidableEq

/-- The failure of an operation. -/
inductive Fault where
  | illegalReference (reason : ReferenceFault)
  | indexOutOfRange (index lower upper : Nat)
  | sizeMismatch (expected found : Nat)
  | outOfMemory
  | inactiveFrame (depth : Nat)
  | unstoppedRootScan
  | callStackOverflow
  | invalidState (reason : StateFault)
  | runtimeError (reason : ProgramFault)
  deriving DecidableEq

/-- A value, or the fault that came instead. -/
abbrev Answer (α : Type) := Except Fault α

namespace ReferenceFault

def text : ReferenceFault → String
  | .notHeld object => s!"object {object} not referenced"
  | .otherKind object slot value =>
    let kind := if value < 0 then "primitive" else "reference"
    s!"slot {slot} of object {object} holds {kind} value " ++ Word.text value
  | .notData value => "value = " ++ Word.text value ++ " >= 0 is not primitive data"
  | .stated text => text

end ReferenceFault

namespace StateFault

def text : StateFault → String
  | .unbound => "allocator used before initialize"
  | .alreadyBound => "allocator initialized twice"
  | .alreadyHeld cell => s!"allocator returned cell {cell} which is already held"
  | .stated text => text

end StateFault

namespace ProgramFault

def text : ProgramFault → String
  | .listTooLong length => s!"list is longer than {length} cells"
  | .listTag cell tag expected =>
    s!"list cell {cell} carries tag " ++ Word.text tag ++ ", expected " ++ Word.text expected
  | .listTooShort visited expected => s!"list has {visited} cells, expected {expected}"
  | .objectTag object tag expected =>
    s!"object {object} carries tag " ++ Word.text tag ++ ", expected "
      ++ Text.option (expected.map Word.text)
  | .threadPanicked => "mutator thread panicked"
  | .stated text => text

end ProgramFault

namespace Fault

def message : Fault → String
  | .illegalReference reason => "Illegal reference: " ++ reason.text
  | .indexOutOfRange index lower upper => s!"Index out of range: {index} not in [{lower}, {upper})"
  | .sizeMismatch expected found => s!"Cell size mismatch: {expected} slots vs {found} slots"
  | .outOfMemory => "Out of memory"
  | .inactiveFrame depth => s!"Inactive frame at depth {depth}"
  | .unstoppedRootScan => "Root scan contract violation: roots enumerated outside stop/resume"
  | .callStackOverflow => "Call stack overflow"
  | .invalidState reason => "Invalid state: " ++ reason.text
  | .runtimeError reason => "Runtime error: " ++ reason.text

def layout : Fault → String
  | .illegalReference reason => Text.wrapped "IllegalReference" (Text.quoted reason.text)
  | .indexOutOfRange index lower upper =>
    Text.record "IndexOutOfRange"
      [("index", toString index), ("lower", toString lower), ("upper", toString upper)]
  | .sizeMismatch expected found =>
    Text.record "SizeMismatch" [("expected", toString expected), ("found", toString found)]
  | .outOfMemory => "OutOfMemory"
  | .inactiveFrame depth => Text.wrapped "InactiveFrame" (toString depth)
  | .unstoppedRootScan => "RootScanContractViolation"
  | .callStackOverflow => "CallStackOverflow"
  | .invalidState reason => Text.wrapped "InvalidState" (Text.quoted reason.text)
  | .runtimeError reason => Text.wrapped "RuntimeError" (Text.quoted reason.text)

def isOutOfMemory : Fault → Bool
  | .outOfMemory => true
  | _ => false

def notHeld (object : Handle) : Fault := .illegalReference (.notHeld object)

end Fault

namespace Answer

def layout : Answer Word → String
  | .ok word => Text.wrapped "Ok" (Word.text word)
  | .error fault => Text.wrapped "Err" fault.layout

end Answer

end RootedHeap
