import EntityMapper.Json.Number
import EntityMapper.Text.Hex

/-!
# Reading JSON texts

`Json.parse?` reads a whole text as one document, or refuses it. Arrays and objects may be nested
127 deep. Members of objects are kept in the order of the text, repeated names included.
-/

namespace EntityMapper

namespace Json

/-- Drops blanks from the front of a text. -/
def skipBlanks (s : List Char) : List Char :=
  s.dropWhile fun c => c = ' ' || c = '\n' || c = '\t' || c = '\r'

/-- The number that four hexadecimal digits at the front of a text spell. -/
def hexQuad? : List Char → Option Nat
  | a :: b :: c :: d :: _ => Hex.toNat? [a, b, c, d]
  | _ => none

/-- The character of an escape, given the text after its backslash, and how much of that text the
escape takes. A character beyond 16 bits is written as a pair of two surrogates, and neither half
may stand alone. -/
def escaped? : List Char → Option (Char × Nat)
  | '"' :: _ => some ('"', 1)
  | '\\' :: _ => some ('\\', 1)
  | '/' :: _ => some ('/', 1)
  | 'b' :: _ => some (Char.ofNat 8, 1)
  | 'f' :: _ => some (Char.ofNat 12, 1)
  | 'n' :: _ => some ('\n', 1)
  | 'r' :: _ => some ('\r', 1)
  | 't' :: _ => some ('\t', 1)
  | 'u' :: s => do
    let n ← hexQuad? s
    if n < 0xD800 ∨ 0xDFFF < n then return (Char.ofNat n, 5)
    else if n < 0xDC00 then
      match s.drop 4 with
      | '\\' :: 'u' :: s =>
        let m ← hexQuad? s
        if 0xDC00 ≤ m ∧ m ≤ 0xDFFF then
          return (Char.ofNat (0x10000 + (n - 0xD800) * 0x400 + (m - 0xDC00)), 11)
        else none
      | _ => none
    else none
  | _ => none

/-- Reads a string up to its closing quote; control characters have to be escaped. -/
def readString (s : List Char) : Option (List Char × List Char) :=
  match s with
  | [] => none
  | '"' :: rest => some ([], rest)
  | '\\' :: rest => do
    let (c, taken) ← escaped? rest
    let (cs, rest) ← readString (rest.drop taken)
    return (c :: cs, rest)
  | c :: rest => do
    if c.toNat < 32 then none
    let (cs, rest) ← readString rest
    return (c :: cs, rest)
termination_by s.length
decreasing_by all_goals (simp only [List.length_drop, List.length_cons]; omega)

mutual

/-- Reads a value, where `depth` more levels of arrays and objects may open. -/
def readValue : Nat → Nat → List Char → Option (Json × List Char)
  | 0, _, _ => none
  | fuel + 1, depth, s =>
    match skipBlanks s with
    | 'n' :: 'u' :: 'l' :: 'l' :: rest => some (.null, rest)
    | 't' :: 'r' :: 'u' :: 'e' :: rest => some (.bool true, rest)
    | 'f' :: 'a' :: 'l' :: 's' :: 'e' :: rest => some (.bool false, rest)
    | '"' :: rest => (readString rest).map fun (cs, rest) => (.string (String.ofList cs), rest)
    | '[' :: rest =>
      match depth with
      | 0 => none
      | depth + 1 =>
        match skipBlanks rest with
        | ']' :: rest => some (.array [], rest)
        | rest => (readItems fuel depth rest).map fun (items, rest) => (.array items, rest)
    | '{' :: rest =>
      match depth with
      | 0 => none
      | depth + 1 =>
        match skipBlanks rest with
        | '}' :: rest => some (.object [], rest)
        | rest => (readMembers fuel depth rest).map fun (members, rest) => (.object members, rest)
    | s => (JsonNumber.read s).map fun (n, rest) => (.number n, rest)

/-- Reads the items of an array, at least one, up to its closing bracket. -/
def readItems : Nat → Nat → List Char → Option (List Json × List Char)
  | 0, _, _ => none
  | fuel + 1, depth, s => do
    let (item, rest) ← readValue fuel depth s
    match skipBlanks rest with
    | ',' :: rest =>
      let (items, rest) ← readItems fuel depth rest
      return (item :: items, rest)
    | ']' :: rest => return ([item], rest)
    | _ => none

/-- Reads the members of an object, at least one, up to its closing brace. -/
def readMembers : Nat → Nat → List Char → Option (List (String × Json) × List Char)
  | 0, _, _ => none
  | fuel + 1, depth, s =>
    match skipBlanks s with
    | '"' :: rest => do
      let (name, rest) ← readString rest
      match skipBlanks rest with
      | ':' :: rest =>
        let (value, rest) ← readValue fuel depth rest
        let member := (String.ofList name, value)
        match skipBlanks rest with
        | ',' :: rest =>
          let (members, rest) ← readMembers fuel depth rest
          return (member :: members, rest)
        | '}' :: rest => return ([member], rest)
        | _ => none
      | _ => none
    | _ => none

end

/-- The levels of arrays and objects that a text may open. -/
def maxDepth : Nat := 127

/-- Reads a text as one document. Every call of the readers but the first follows a character of
its own, so twice the length bounds them. -/
def parse? (s : String) : Option Json :=
  let cs := s.toList
  match readValue (2 * cs.length + 2) maxDepth cs with
  | some (value, rest) => if skipBlanks rest = [] then some value else none
  | none => none

end Json

end EntityMapper
