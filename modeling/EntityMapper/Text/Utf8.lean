/-!
# Cutting texts by bytes

Positions in a text may be counted in bytes of its UTF-8 form. A cut inside a character, or beyond
the end, is refused.
-/

namespace EntityMapper

namespace Utf8

/-- The characters that fill exactly the first `n` bytes. -/
def take? : Nat → List Char → Option (List Char)
  | 0, _ => some []
  | _ + 1, [] => none
  | n + 1, c :: rest =>
    if c.utf8Size ≤ n + 1 then (take? (n + 1 - c.utf8Size) rest).map (c :: ·) else none

/-- The characters after the first `n` bytes. -/
def drop? : Nat → List Char → Option (List Char)
  | 0, cs => some cs
  | _ + 1, [] => none
  | n + 1, c :: rest => if c.utf8Size ≤ n + 1 then drop? (n + 1 - c.utf8Size) rest else none

end Utf8

end EntityMapper
