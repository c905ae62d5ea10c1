import RootedHeap.CommandLine.Session

/-!
The program: reads its arguments and the one file that they may name, and prints what the session
leaves behind.
-/

open RootedHeap CommandLine

def contentOf (path : String) : IO (Option ByteArray) := do
  try return some (← IO.FS.readBinFile path) catch _ => return none

def leave (output : Output) : IO UInt32 := do
  for line in output.lines do IO.println line
  if let some complaint := output.complaint then IO.eprintln complaint
  return output.code.toUInt32

def main (args : List String) : IO UInt32 := do
  match CommandLine.read args with
  | .error stop => leave (.ofStop stop)
  | .ok invocation =>
    let content ← match invocation.request.file? with
      | none => pure none
      | some path => contentOf path
    let before ← IO.monoNanosNow
    let work ← IO.lazyPure fun _ => invocation.work content
    let after ← IO.monoNanosNow
    leave (work.told ⟨after - before⟩)
