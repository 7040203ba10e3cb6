/-!
# Command line arguments

Arguments are operands and options, in any order. An option takes one value,
either in the same argument (`--name=value`, `-nvalue`, `-n=value`) or in the
next one, which then may not start with a dash unless it is a lone dash. After
`--` all arguments are operands.
-/
namespace RecordBridge

/-- The spellings of an option. -/
structure OptionSpec where
  long : String
  short : Option Char
deriving DecidableEq, Repr

/-- Arguments taken apart: options with their values in order, and operands. -/
structure Arguments where
  options : List (OptionSpec × String)
  operands : List String
deriving DecidableEq, Repr

namespace Arguments

/-- How an argument reads. -/
inductive Form where
  /-- An operand. -/
  | operand
  /-- The mark after which all arguments are operands. -/
  | endOfOptions
  /-- An option with its value, or with its value yet to come. -/
  | option (spec : OptionSpec) (value : Option String)
  /-- What looks like an option but is none of those allowed. -/
  | unknown
deriving DecidableEq, Repr

/-- The text of a value that follows an option's letter. -/
def attached : List Char → Option String
  | [] => none
  | '=' :: value => some (String.ofList value)
  | value => some (String.ofList value)

/-- Reads an argument where options are allowed. -/
def form (specs : List OptionSpec) (argument : String) : Form :=
  match argument.toList with
  | ['-', '-'] => .endOfOptions
  | '-' :: '-' :: text =>
    match specs.find? (·.long == String.ofList (text.takeWhile (· ≠ '='))) with
    | none => .unknown
    | some spec =>
      match text.dropWhile (· ≠ '=') with
      | [] => .option spec none
      | _ :: value => .option spec (some (String.ofList value))
  | '-' :: letter :: text =>
    match specs.find? (·.short == some letter) with
    | none => .unknown
    | some spec => .option spec (attached text)
  | _ => .operand

/-- Adds an option before others. -/
def addOption (spec : OptionSpec) (value : String) (arguments : Arguments) : Arguments :=
  { arguments with options := (spec, value) :: arguments.options }

/-- Adds an operand before others. -/
def addOperand (operand : String) (arguments : Arguments) : Arguments :=
  { arguments with operands := operand :: arguments.operands }

/-- Takes arguments apart; none if an option is unknown or lacks its value. -/
def read? (specs : List OptionSpec) : List String → Option Arguments
  | [] => some ⟨[], []⟩
  | argument :: rest =>
    match form specs argument with
    | .operand => (read? specs rest).map (addOperand argument)
    | .endOfOptions => some ⟨[], rest⟩
    | .unknown => none
    | .option spec (some value) => (read? specs rest).map (addOption spec value)
    | .option spec none =>
      match rest with
      | value :: rest =>
        if form specs value = .operand then (read? specs rest).map (addOption spec value) else none
      | [] => none

/-- Takes the options before the first operand apart; the operand and what
follows it are left as they are. -/
def leading? (specs : List OptionSpec) : List String → Option Arguments
  | [] => some ⟨[], []⟩
  | argument :: rest =>
    match form specs argument with
    | .operand => some ⟨[], argument :: rest⟩
    | .endOfOptions | .unknown => none
    | .option spec (some value) => (leading? specs rest).map (addOption spec value)
    | .option spec none =>
      match rest with
      | value :: rest =>
        if form specs value = .operand then (leading? specs rest).map (addOption spec value)
        else none
      | [] => none

/-- The value of an option that may be given at most once. -/
def value? (arguments : Arguments) (spec : OptionSpec) : Option (Option String) :=
  match arguments.options.filter (·.1 == spec) with
  | [] => some none
  | [(_, value)] => some (some value)
  | _ => none

end Arguments

end RecordBridge
