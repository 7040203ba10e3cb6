import RecordBridge.CommandLine.Arguments
import RecordBridge.Opcode
/-!
# Commands

What the tool can be asked to do: inspect frames, decode a frame, encode a
record, or show the fingerprint of the registry. Each works with the built-in
registry unless another is named, before or after the command; of both the
later one counts.
-/
namespace RecordBridge

/-- How a decoded frame is shown. -/
inductive Format where
  | json
  | pretty
deriving DecidableEq, Repr

/-- What the tool does. -/
inductive Command where
  /-- Inspect a frame, or the frames in a directory. -/
  | inspect (path : String) (glob : Option String) (largestFirst : Bool) (limit : Option Nat)
  /-- Decode a frame. -/
  | decode (path : String) (format : Format)
  /-- Encode a record of an opcode, read from JSON, and write the frame. -/
  | encode (opcode : UInt16) (record output : String)
  /-- Show the fingerprint of the registry. -/
  | fingerprint
deriving DecidableEq, Repr

/-- A command, and the path of the registry to use. -/
structure Invocation where
  registry : Option String
  command : Command
deriving DecidableEq, Repr

namespace Command

/-- The options. -/
def registryOption : OptionSpec := ⟨"registry", none⟩
def globOption : OptionSpec := ⟨"glob", none⟩
def sortOption : OptionSpec := ⟨"sort", none⟩
def limitOption : OptionSpec := ⟨"limit", none⟩
def formatOption : OptionSpec := ⟨"format", none⟩
def outputOption : OptionSpec := ⟨"output", some 'o'⟩

/-- A path is not empty. -/
def path? (text : String) : Option String :=
  if text.isEmpty then none else some text

/-- The value of an option, read by `read?` if it is given. -/
def optional? (arguments : Arguments) (spec : OptionSpec) (read? : String → Option α) :
    Option (Option α) := do
  match ← arguments.value? spec with
  | none => return none
  | some text => return some (← read? text)

/-- A number of frames. -/
def limit? (text : String) : Option Nat :=
  (Numeral.read 10 UInt64.size text).toOption

/-- The order of frames: by size is the only one there is. -/
def sort? : String → Option Unit
  | "size" => some ()
  | _ => none

/-- A format. -/
def format? : String → Option Format
  | "json" => some .json
  | "pretty" => some .pretty
  | _ => none

/-- The options of a command besides the registry. -/
def options : String → List OptionSpec
  | "inspect" => [globOption, sortOption, limitOption]
  | "decode" => [formatOption]
  | "encode" => [outputOption]
  | _ => []

/-- A command from its name, its options and its operands. -/
def ofArguments? (name : String) (arguments : Arguments) : Option Command := do
  match name, arguments.operands with
  | "inspect", [path] =>
    let glob ← optional? arguments globOption some
    let sort ← optional? arguments sortOption sort?
    let limit ← optional? arguments limitOption limit?
    return .inspect (← path? path) glob sort.isSome limit
  | "decode", [path] =>
    let format ← optional? arguments formatOption format?
    return .decode (← path? path) (format.getD .json)
  | "encode", [opcode, record] =>
    let opcode ← (readOpcode opcode).toOption
    let output ← optional? arguments outputOption path?
    return .encode opcode (← path? record) (← output)
  | "fingerprint", [] => return .fingerprint
  | _, _ => none

end Command

/-- Reads the arguments of the tool; none if they are misused. -/
def Invocation.ofArguments? (arguments : List String) : Option Invocation := do
  let leading ← Arguments.leading? [Command.registryOption] arguments
  let outer ← Command.optional? leading Command.registryOption Command.path?
  match leading.operands with
  | [] => none
  | name :: rest =>
    let given ← Arguments.read? (Command.registryOption :: Command.options name) rest
    let inner ← Command.optional? given Command.registryOption Command.path?
    return ⟨inner.or outer, ← Command.ofArguments? name given⟩

end RecordBridge
