/-!
# Lists of texts with a separator

`joined sep texts` writes the separator between neighbours, so nothing before the first text and
nothing after the last.
-/

namespace EntityMapper

/-- The texts one after the other, with the separator between neighbours. -/
def joined (separator : String) : List String → String
  | [] => ""
  | [s] => s
  | s :: rest => s ++ separator ++ joined separator rest

@[simp] theorem joined_nil (separator : String) : joined separator [] = "" := rfl

@[simp] theorem joined_singleton (separator s : String) : joined separator [s] = s := rfl

@[simp] theorem joined_cons_cons (separator s t : String) (rest : List String) :
    joined separator (s :: t :: rest) = s ++ separator ++ joined separator (t :: rest) := rfl

end EntityMapper
