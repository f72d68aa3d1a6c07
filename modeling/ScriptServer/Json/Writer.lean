import ScriptServer.Json.Basic
import ScriptServer.Text.CharClass

namespace ScriptServer.Json

/-!
# Writing JSON

* `Json.render` — a value in compact form: no blanks, characters outside ASCII as they are.
-/

/-- A character inside quotes: quote, backslash and control characters are escaped. -/
def renderChar (c : Char) : List Char :=
  match c with
  | '"' => ['\\', '"']
  | '\\' => ['\\', '\\']
  | '\n' => ['\\', 'n']
  | '\r' => ['\\', 'r']
  | '\t' => ['\\', 't']
  | '\x08' => ['\\', 'b']
  | '\x0c' => ['\\', 'f']
  | c =>
    if c.toNat < 0x20 then
      ['\\', 'u', '0', '0', Text.hexDigit 'a' (c.toNat / 16), Text.hexDigit 'a' (c.toNat % 16)]
    else [c]

/-- A text in quotes. -/
def renderString (text : String) : String :=
  "\"" ++ String.ofList (text.toList.flatMap renderChar) ++ "\""

/-- A whole number in decimal digits. -/
def renderInt : Int → String
  | .ofNat n => n.repr
  | .negSucc n => "-" ++ (n + 1).repr

mutual

/-- A value in compact form. -/
def render : Json → String
  | .null => "null"
  | .bool true => "true"
  | .bool false => "false"
  | .integer value => renderInt value
  | .decimal spelling => spelling
  | .string value => renderString value
  | .array [] => "[]"
  | .array (item :: items) => "[" ++ render item ++ renderItems items ++ "]"
  | .object [] => "\x7b\x7d"
  | .object ((key, value) :: fields) =>
    "\x7b" ++ renderString key ++ ":" ++ render value ++ renderFields fields ++ "\x7d"

/-- Further items of an array, each after a comma. -/
def renderItems : List Json → String
  | [] => ""
  | item :: items => "," ++ render item ++ renderItems items

/-- Further fields of an object, each after a comma. -/
def renderFields : List (String × Json) → String
  | [] => ""
  | (key, value) :: fields =>
    "," ++ renderString key ++ ":" ++ render value ++ renderFields fields

end

end ScriptServer.Json
