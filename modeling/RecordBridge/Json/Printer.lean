import RecordBridge.Json.Basic
/-!
# Printing JSON

Values print either on one line without blanks, or over lines that are indented
by two blanks per level. Strings escape quotes, backslashes and control
characters, and nothing else.

| here | operation |
| --- | --- |
| `Json.compact` | `to_string` |
| `Json.pretty` | `to_string_pretty` |
-/
namespace RecordBridge.Json

/-- How a value is laid out: the line break at a level, and what follows a colon. -/
structure Style where
  lineBreak : Nat → List Char
  afterColon : List Char

/-- Everything on one line. -/
def Style.compact : Style := ⟨fun _ => [], []⟩

/-- One line per item, indented by two blanks per level. -/
def Style.pretty : Style := ⟨fun level => '\n' :: List.replicate (2 * level) ' ', [' ']⟩

/-- A hexadecimal digit. -/
def hexDigit (n : Nat) : Char :=
  if n < 10 then Char.ofNat ('0'.toNat + n) else Char.ofNat ('a'.toNat + n - 10)

/-- A character inside a string. -/
def escape (c : Char) : List Char :=
  match c with
  | '"' => ['\\', '"']
  | '\\' => ['\\', '\\']
  | '\x08' => ['\\', 'b']
  | '\x0C' => ['\\', 'f']
  | '\n' => ['\\', 'n']
  | '\r' => ['\\', 'r']
  | '\t' => ['\\', 't']
  | c =>
    if c.toNat < 0x20 then ['\\', 'u', '0', '0', hexDigit (c.toNat / 16), hexDigit (c.toNat % 16)]
    else [c]

/-- A string in quotes. -/
def quote (text : String) : List Char :=
  '"' :: (text.toList.flatMap escape ++ ['"'])

mutual

/-- A value at a level of nesting. -/
def print (style : Style) (level : Nat) : Json → List Char
  | .null | .unreadable => "null".toList
  | .bool value => (if value then "true" else "false").toList
  | .integer value => (toString value).toList
  | .decimal literal => literal.toList
  | .string value => quote value
  | .array [] => ['[', ']']
  | .array (item :: rest) =>
    '[' :: (style.lineBreak (level + 1) ++ print style (level + 1) item
      ++ printItems style (level + 1) rest ++ style.lineBreak level ++ [']'])
  | .object [] => ['\x7b', '\x7d']
  | .object ((key, value) :: rest) =>
    '\x7b' :: (style.lineBreak (level + 1) ++ quote key ++ ':' :: style.afterColon
      ++ print style (level + 1) value ++ printEntries style (level + 1) rest
      ++ style.lineBreak level ++ ['\x7d'])

/-- The items of an array after the first. -/
def printItems (style : Style) (level : Nat) : List Json → List Char
  | [] => []
  | item :: rest =>
    ',' :: (style.lineBreak level ++ print style level item ++ printItems style level rest)

/-- The entries of an object after the first. -/
def printEntries (style : Style) (level : Nat) : List (String × Json) → List Char
  | [] => []
  | (key, value) :: rest =>
    ',' :: (style.lineBreak level ++ quote key ++ ':' :: style.afterColon
      ++ print style level value ++ printEntries style level rest)

end

/-- A value on one line. -/
def compact (value : Json) : String := String.ofList (print .compact 0 value)

/-- A value over indented lines. -/
def pretty (value : Json) : String := String.ofList (print .pretty 0 value)

end RecordBridge.Json
