import EntityMapper.Json.Basic
import EntityMapper.Number.Layout
import EntityMapper.Text.Hex
import EntityMapper.Text.Joined

/-!
# The compact text of a JSON document

No blanks are written. A string escapes the quote, the backslash and the control characters, and
all other characters stand for themselves. A floating-point number shows its shortest digits.
-/

namespace EntityMapper

namespace Json

/-- A character of a string, escaped where it has to be. -/
def escape (c : Char) : List Char :=
  if c = '"' then ['\\', '"']
  else if c = '\\' then ['\\', '\\']
  else if c = '\n' then ['\\', 'n']
  else if c = '\r' then ['\\', 'r']
  else if c = '\t' then ['\\', 't']
  else if c.toNat = 8 then ['\\', 'b']
  else if c.toNat = 12 then ['\\', 'f']
  else if c.toNat < 32 then
    ['\\', 'u', '0', '0', Hex.digit (c.toNat / 16), Hex.digit (c.toNat % 16)]
  else [c]

/-- A string between quotes. -/
def quote (s : String) : String :=
  String.ofList ('"' :: s.toList.flatMap escape ++ ['"'])

/-- The text of a floating-point number of either width; numbers that JSON has no text for are
written as null. -/
def floatText (f : FloatFormat) (x : Bool × Magnitude) : String :=
  match x.2 with
  | .finite _ _ => (FloatLayout.json f).write f x
  | _ => "null"

end Json

/-- The text of a number. -/
def JsonNumber.text : JsonNumber → String
  | .integer n => toString n
  | .float x _ => Json.floatText .double x.decode

namespace Json

mutual

/-- The compact text of a document. -/
def text : Json → String
  | .null => "null"
  | .bool b => if b then "true" else "false"
  | .number n => n.text
  | .string s => quote s
  | .array items => "[" ++ joined "," (itemTexts items) ++ "]"
  | .object members => "\x7b" ++ joined "," (memberTexts members) ++ "\x7d"

/-- The texts of the items of an array. -/
def itemTexts : List Json → List String
  | [] => []
  | a :: as => text a :: itemTexts as

/-- The texts of the members of an object. -/
def memberTexts : List (String × Json) → List String
  | [] => []
  | (k, v) :: rest => (quote k ++ ":" ++ text v) :: memberTexts rest

end

end Json

end EntityMapper
