import RecordBridge.CommandLine.Command
import RecordBridge.CommandLine.Files
import RecordBridge.CommandLine.Glob
import RecordBridge.Report
/-!
# Running commands

A command reads files, prints, and may write one file. It ends well or with a
`Failure`; what was printed before that stays printed. The file system is a
parameter, so that a run can be reasoned about without one.

| here | operation |
| --- | --- |
| `CommandLine.loadRegistry` | `load_registry` |
| `CommandLine.listFiles` | `collect_frame_entries` |
| `CommandLine.sortBySize` | `maybe_sort_entries` |
-/
namespace RecordBridge

/-- What is wrong with a registry file. -/
inductive RegistryFault where
  /-- It cannot be read as text. -/
  | unreadable (path : String)
  /-- It is no configuration. -/
  | malformed
  /-- Its tables are no registry. -/
  | unsound (error : RegistryError)
deriving DecidableEq, Repr

/-- The wordings of a fault and of what caused it, from the outermost on. -/
def RegistryFault.messages : RegistryFault → List String
  | .unreadable path => ["read registry " ++ path]
  | .malformed => ["parse registry json"]
  | .unsound error => "build registry" :: error.message :: error.causes

/-- Why a command fails. -/
inductive Failure where
  /-- The built-in tables are no registry. -/
  | builtInRegistry (error : RegistryError)
  /-- A registry file is no registry. -/
  | registry (fault : RegistryFault)
  | readFrame (path : String)
  | readDirectory (path : String)
  | pattern
  | splitFrame (error : FrameError)
  | readRecord (path : String)
  | parseRecord
  | record (error : Record.JsonError)
  | encodeRecord (error : CodecError)
  /-- A record of the opcode is carried by no message. -/
  | noFrame (opcode : UInt16)
  | writeFrame (path : String)
deriving DecidableEq, Repr

/-- The wordings of a failure and of what caused it, from the outermost on. -/
def Failure.messages : Failure → List String
  | .builtInRegistry error =>
    "load registry" :: "build legacy registry" :: error.message :: error.causes
  | .registry fault => "load registry" :: fault.messages
  | .readFrame path => ["read frame " ++ path]
  | .readDirectory path => ["read dir " ++ path]
  | .pattern => ["invalid glob pattern"]
  | .splitFrame error => ["split frame", error.message]
  | .readRecord path => ["read record " ++ path]
  | .parseRecord => ["parse record json"]
  | .record error => error.messages
  | .encodeRecord error => "encode record" :: error.text :: error.causes
  | .noFrame opcode =>
    let opcode := showOpcode opcode
    [s!"opcode {opcode} produced no frame"]
  | .writeFrame path => ["write frame " ++ path]

/-- How a run ends. -/
inductive Outcome where
  /-- The arguments are misused. -/
  | usage
  /-- What was printed, and the failure that ended the run, if any. -/
  | ran (output : String) (failure : Option Failure)
deriving DecidableEq, Repr

/-- The exit status of an outcome. -/
def Outcome.status : Outcome → Nat
  | .usage => 2
  | .ran _ failure => if failure.isSome then 1 else 0

namespace CommandLine

variable {m : Type → Type} [Monad m] (files : FileSystem m)

/-- A run that ends with what it prints. -/
abbrev Print (m : Type → Type) := ExceptT Failure m String

/-- A value that must be there. -/
def orFail (failure : Failure) (value : Option α) : ExceptT Failure m α :=
  match value with
  | some value => pure value
  | none => throw failure

/-- A result whose error is a failure. -/
def orFailWith (failure : ε → Failure) (result : Except ε α) : ExceptT Failure m α :=
  match result with
  | .ok value => pure value
  | .error error => throw (failure error)

/-- The content of a file as text. -/
def readText? (path : String) : ExceptT Failure m (Option String) := do
  return (← files.read path).bind Utf8.decode?

/-- The registry in a file, or the built-in one. -/
def loadRegistry : Option String → ExceptT Failure m Registry
  | none => orFailWith .builtInRegistry Legacy.registry
  | some path => do
    let text ← orFail (.registry (.unreadable path)) (← readText? files path)
    let config ← orFail (.registry .malformed) (Config.read? text)
    orFailWith (.registry ∘ .unsound) config.build

/-- A frame file found in a directory. -/
structure FrameFile where
  path : String
  name : String
  size : Nat
deriving DecidableEq, Repr

/-- Whether a pattern stands for a file: for its path as written, or its name. -/
def FrameFile.matches? (pattern : Option Glob) (file : FrameFile) : Bool :=
  pattern.all fun pattern => pattern.matches? file.path || pattern.matches? file.name

/-- Files in descending order of size; those of one size by name. -/
def sortBySize (found : List FrameFile) : List FrameFile :=
  found.mergeSort fun a b => b.size < a.size ∨ (a.size = b.size ∧ a.name ≤ b.name)

/-- How many of the largest files are inspected unless a limit is given. -/
def largestCount : Nat := 10

/-- The files in a directory that a command asks for. -/
def selectFiles (pattern : Option Glob) (largestFirst : Bool) (limit : Option Nat)
    (found : List FrameFile) : List FrameFile :=
  let found := found.filter (·.matches? pattern)
  let found := if largestFirst then sortBySize found else found
  match limit.or (if largestFirst then some largestCount else none) with
  | some limit => found.take limit
  | none => found

/-- Inspects the frame in a file. -/
def inspectFile (registry : Registry) (path : String) : Print m := do
  let bytes ← orFail (.readFrame path) (← files.read path)
  let inspection ← orFailWith .splitFrame (registry.inspect defaultFrameLimit bytes)
  return inspection.text

/-- Inspects files one after the other, each under a heading, up to the first
that fails. -/
def inspectFiles (registry : Registry) : List FrameFile → m (String × Option Failure)
  | [] => return ("", none)
  | file :: rest => do
    match ← (inspectFile files registry file.path).run with
    | .error failure => return ("", some failure)
    | .ok text =>
      let (path, size) := (file.path, file.size)
      let (more, failure) ← inspectFiles registry rest
      return (s!"== {path} ({size} bytes) ==\n" ++ text ++ more, failure)

/-- The files in a directory that a command asks for. -/
def listFiles (directory : String) (glob : Option String) (largestFirst : Bool)
    (limit : Option Nat) : ExceptT Failure m (List FrameFile) := do
  let pattern ← match glob with
    | none => pure none
    | some text => some <$> orFail .pattern (Glob.parse? text)
  let found ← orFail (.readDirectory directory) (← files.list directory)
  return selectFiles pattern largestFirst limit
    (found.map fun (name, size) => ⟨joinPath directory name, name, size⟩)

/-- Decodes the frame in a file. -/
def decodeFile (codec : Codec) (path : String) (format : Format) : Print m := do
  let bytes ← orFail (.readFrame path) (← files.read path)
  let decoding ← orFailWith .splitFrame (codec.review bytes)
  return match format with
    | .json => decoding.toJson.pretty ++ "\n"
    | .pretty => decoding.text

/-- Encodes the record in a file and writes the frame to another. -/
def encodeFile (codec : Codec) (opcode : UInt16) (record output : String) : Print m := do
  let text ← orFail (.readRecord record) (← readText? files record)
  let json ← orFail .parseRecord (Json.parseSorted? text)
  let record ← orFailWith .record (codec.registry.recordOfJson opcode json)
  let frame ← orFailWith .encodeRecord (codec.encode opcode record).result
  let frame ← orFail (.noFrame opcode) frame
  if ← files.write output frame then return "" else throw (.writeFrame output)

/-- What is printed, and the failure that comes after it. -/
def finish (print : Print m) : m (String × Option Failure) := do
  match ← print.run with
  | .ok output => return (output, none)
  | .error failure => return ("", some failure)

/-- Runs a command with a registry. -/
def runCommand (registry : Registry) : Command → m (String × Option Failure)
  | .inspect path glob largestFirst limit => do
    if ← files.isDirectory path then
      match ← (listFiles files path glob largestFirst limit).run with
      | .ok found => inspectFiles files registry found
      | .error failure => return ("", some failure)
    else finish (inspectFile files registry path)
  | .decode path format => finish (decodeFile files { registry } path format)
  | .encode opcode record output => finish (encodeFile files { registry } opcode record output)
  | .fingerprint => return (showFingerprint registry.fingerprint ++ "\n", none)

/-- Runs the tool with arguments. -/
def run (arguments : List String) : m Outcome := do
  match Invocation.ofArguments? arguments with
  | none => return .usage
  | some invocation =>
    match ← (loadRegistry files invocation.registry).run with
    | .error failure => return .ran "" (some failure)
    | .ok registry =>
      let (output, failure) ← runCommand files registry invocation.command
      return .ran output failure

end CommandLine

end RecordBridge
