import RecordBridge.Json.Token
/-!
# Reading JSON

A machine reads the tokens of a value one by one. It knows the arrays and
objects that are still open, the innermost first, and what may come next; a
value that is complete goes into the innermost one.

| here | operation |
| --- | --- |
| `Json.parse?` | the grammar of `from_str` |
| `Json.parseSorted?` | `from_str` of a `Value` |
-/
namespace RecordBridge.Json

/-- An array or object still open, with what it holds so far, the last first. -/
inductive Open where
  | array (items : List Json)
  /-- An object that waits for the value of `key`. -/
  | object (entries : List (Option String × Json)) (key : Option String)

/-- What may come next. -/
inductive State where
  /-- A value. -/
  | value (outer : List Open)
  /-- The first item of an array, or its end. -/
  | firstItem (outer : List Open)
  /-- The first key of an object, or its end. -/
  | firstKey (outer : List Open)
  /-- A key after a comma. -/
  | key (entries : List (Option String × Json)) (outer : List Open)
  /-- The colon after a key. -/
  | colon (entries : List (Option String × Json)) (key : Option String) (outer : List Open)
  /-- What follows a complete value: a comma, an end, or nothing more. -/
  | complete (value : Json) (outer : List Open)

/-- The object of entries. One key without text makes it unreadable. -/
def ofEntries (entries : List (Option String × Json)) : Json :=
  match entries.mapM fun (key, value) => key.map (·, value) with
  | some entries => .object entries
  | none => .unreadable

/-- A token where a value may start. -/
def begin (outer : List Open) : Token → Option State
  | .openArray => some (.firstItem outer)
  | .openObject => some (.firstKey outer)
  | .string text => some (.complete (text.elim .unreadable .string) outer)
  | .number literal => some (.complete literal.value outer)
  | .name value => some (.complete value outer)
  | _ => none

/-- Takes one token. -/
def State.take : State → Token → Option State
  | .value outer, token => begin outer token
  | .firstItem outer, .closeArray => some (.complete (.array []) outer)
  | .firstItem outer, token => begin (.array [] :: outer) token
  | .firstKey outer, .closeObject => some (.complete (.object []) outer)
  | .firstKey outer, .string name => some (.colon [] name outer)
  | .key entries outer, .string name => some (.colon entries name outer)
  | .colon entries name outer, .colon => some (.value (.object entries name :: outer))
  | .complete item (.array items :: outer), .comma =>
    some (.value (.array (item :: items) :: outer))
  | .complete item (.array items :: outer), .closeArray =>
    some (.complete (.array (item :: items).reverse) outer)
  | .complete item (.object entries name :: outer), .comma =>
    some (.key ((name, item) :: entries) outer)
  | .complete item (.object entries name :: outer), .closeObject =>
    some (.complete (ofEntries ((name, item) :: entries).reverse) outer)
  | _, _ => none

/-- The value of tokens. -/
def ofTokens? (tokens : List Token) : Option Json :=
  match tokens.foldlM State.take (.value []) with
  | some (.complete value []) => some value
  | _ => none

/-- The value a text stands for. -/
def parse? (text : String) : Option Json :=
  (tokens? text.toList).bind ofTokens?

/-- The value a text stands for, with keys in order. There is none where a part
of the text has no value, or nests too deep. -/
def parseSorted? (text : String) : Option Json :=
  (parse? text).bind (sorted? depthLimit)

end RecordBridge.Json
