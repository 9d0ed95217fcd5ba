/-!
# JSON text

The little of JSON that a report needs: truth values, strings, arrays and objects, written over
several lines with two blanks for each level.

* `Json` — such a value.
* `Json.render` — its text; an empty array or object stays on one line, and there is no final line
  break.
-/

namespace CronSchedule

/-- A JSON value without numbers and null. -/
inductive Json where
  | bool (value : Bool)
  | string (value : String)
  | array (items : List Json)
  | object (members : List (String × Json))

namespace Json

/-- The escaped form of a character in a string: quotes, backslashes and control characters. -/
def escapeChar (c : Char) : List Char :=
  if c = '"' then ['\\', '"']
  else if c = '\\' then ['\\', '\\']
  else if c = '\x08' then ['\\', 'b']
  else if c = '\x0c' then ['\\', 'f']
  else if c = '\n' then ['\\', 'n']
  else if c = '\r' then ['\\', 'r']
  else if c = '\t' then ['\\', 't']
  else if c.toNat < 0x20 then
    ['\\', 'u'] ++ (Nat.toDigits 16 c.toNat).leftpad 4 '0'
  else [c]

/-- A string in quotes. -/
def quote (text : String) : String :=
  "\"" ++ String.ofList (text.toList.flatMap escapeChar) ++ "\""

/-- The blanks in front of a line at a level. -/
def indent (level : Nat) : String := String.ofList (List.replicate (2 * level) ' ')

/-- Lines of items between an opening and a closing mark, or the two marks alone. -/
def block (level : Nat) (opening closing : String) (items : List String) : String :=
  if items.isEmpty then opening ++ closing
  else
    opening ++ "\n" ++ ",\n".intercalate (items.map (indent (level + 1) ++ ·)) ++ "\n" ++
      indent level ++ closing

mutual

/-- The text of a value whose first line continues one at a level. -/
def renderAt (level : Nat) : Json → String
  | bool value => if value then "true" else "false"
  | string value => quote value
  | array items => block level "[" "]" (renderItems (level + 1) items)
  | object members => block level "\x7b" "\x7d" (renderMembers (level + 1) members)

/-- The texts of the items of an array. -/
def renderItems (level : Nat) : List Json → List String
  | [] => []
  | item :: items => renderAt level item :: renderItems level items

/-- The texts of the members of an object, each with its key. -/
def renderMembers (level : Nat) : List (String × Json) → List String
  | [] => []
  | (key, value) :: members =>
    (quote key ++ ": " ++ renderAt level value) :: renderMembers level members

end

/-- The text of a value. -/
def render (value : Json) : String := renderAt 0 value

end Json

end CronSchedule
