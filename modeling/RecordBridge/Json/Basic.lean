/-!
# JSON values

The values that tables, records and reports are written as. Objects keep their
entries in order and may name one twice; `Json.sorted?` is the other view, in
which keys are in order and the last of equal keys counts.
-/
namespace RecordBridge

/-- A JSON value. -/
inductive Json where
  | null
  | bool (value : Bool)
  /-- A number written without fraction and exponent, of 64 bits. -/
  | integer (value : Int)
  /-- Any other number, as a literal. -/
  | decimal (literal : String)
  | string (value : String)
  | array (items : List Json)
  | object (entries : List (String × Json))
  /-- Text in the form of a value that has none: half of a surrogate pair, or a
  number out of range. Where a value is ignored, so is this. -/
  | unreadable

namespace Json

/-- Adds an entry to entries in key order, in place of one of the same key. -/
def insert (key : String) (value : Json) : List (String × Json) → List (String × Json)
  | [] => [(key, value)]
  | (other, old) :: rest =>
    if key < other then (key, value) :: (other, old) :: rest
    else if key = other then (key, value) :: rest
    else (other, old) :: insert key value rest

/-- Entries in key order, the last of equal keys. -/
def sortEntries (entries : List (String × Json)) : List (String × Json) :=
  entries.foldl (fun sorted (key, value) => insert key value sorted) []

/-- How deep arrays and objects may nest where values are kept. -/
def depthLimit : Nat := 127

mutual

/-- A value with the entries of all objects in key order. There is none if the
value nests deeper than `room` or has unreadable parts. -/
def sorted? (room : Nat) : Json → Option Json
  | .array items =>
    if room = 0 then none else (sortedItems? (room - 1) items).map .array
  | .object entries =>
    if room = 0 then none
    else (sortedEntries? (room - 1) entries).map fun entries => .object (sortEntries entries)
  | .unreadable => none
  | .null => some .null
  | .bool value => some (.bool value)
  | .integer value => some (.integer value)
  | .decimal literal => some (.decimal literal)
  | .string value => some (.string value)

/-- The items of an array, each sorted. -/
def sortedItems? (room : Nat) : List Json → Option (List Json)
  | [] => some []
  | item :: rest => do return (← sorted? room item) :: (← sortedItems? room rest)

/-- The entries of an object, each value sorted. -/
def sortedEntries? (room : Nat) : List (String × Json) → Option (List (String × Json))
  | [] => some []
  | (key, value) :: rest => do
    return (key, ← sorted? room value) :: (← sortedEntries? room rest)

end

end Json

end RecordBridge
