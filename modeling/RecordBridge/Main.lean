import RecordBridge.CommandLine.Run
/-!
# The program

Runs the tool on the files of the operating system: prints what a command
prints, shows why one fails, and exits with the status of the outcome.
-/
namespace RecordBridge.CommandLine

/-- The result of an action that may fail. -/
def attempt (action : IO α) : IO (Option α) := do
  try return some (← action) catch _ => return none

/-- The files of the operating system. -/
def disk : FileSystem IO where
  isDirectory path := do
    return (← attempt do (← IO.FS.realPath path).isDir).getD false
  read path := attempt do return (← IO.FS.readBinFile path).toList
  list path := attempt do
    let mut found := []
    for entry in ← (← IO.FS.realPath path).readDir do
      let data ← entry.path.metadata
      if data.type == .file then found := (entry.fileName, data.byteSize.toNat) :: found
    return found.mergeSort fun a b => a.1 ≤ b.1
  write path content := do
    return (← attempt (IO.FS.writeBinFile path ⟨content.toArray⟩)).isSome

/-- How the tool is used. -/
def usage : String :=
  "usage: [--registry FILE] inspect PATH [--glob PATTERN] [--sort size] [--limit COUNT]\n"
    ++ "       [--registry FILE] decode FILE [--format json|pretty]\n"
    ++ "       [--registry FILE] encode OPCODE FILE -o FILE\n"
    ++ "       [--registry FILE] fingerprint"

/-- Shows why a run fails, the outermost message first. -/
def showFailure (failure : Failure) : IO Unit := do
  match failure.messages with
  | [] => return
  | message :: causes =>
    IO.eprintln ("Error: " ++ message)
    for cause in causes do IO.eprintln ("  caused by: " ++ cause)

/-- Prints what a run printed, and what ended it. -/
def showOutcome : Outcome → IO Unit
  | .usage => IO.eprintln usage
  | .ran output failure => do
    IO.print output
    if let some failure := failure then showFailure failure

end RecordBridge.CommandLine

/-- Runs the tool. -/
def main (arguments : List String) : IO UInt32 := do
  let outcome ← RecordBridge.CommandLine.run RecordBridge.CommandLine.disk arguments
  RecordBridge.CommandLine.showOutcome outcome
  return outcome.status.toUInt32
