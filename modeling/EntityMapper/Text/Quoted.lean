/-!
# Quoting by doubling

A quoted text stands between two quote characters, and a quote character inside it is written
twice. Identifiers and literals of SQL are quoted this way, each with a quote character of its own.
-/

namespace EntityMapper

namespace Quoted

/-- The characters of a text with every quote written twice. -/
def double (quote : Char) : List Char → List Char
  | [] => []
  | c :: rest => if c = quote then quote :: quote :: double quote rest else c :: double quote rest

/-- A text between quotes. -/
def encode (quote : Char) (s : String) : String :=
  String.ofList (quote :: double quote s.toList ++ [quote])

@[simp] theorem double_nil (quote : Char) : double quote [] = [] := rfl

end Quoted

end EntityMapper
