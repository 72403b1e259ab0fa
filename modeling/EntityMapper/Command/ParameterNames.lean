/-!
# Parameter names

The parameters of a command are named by a stem and a number, in order from zero.
-/

namespace EntityMapper

/-- The names of the parameters of one command. -/
structure ParameterNames where
  stem : String := "@p"
  /-- The number of names given out. -/
  used : Nat := 0
  deriving DecidableEq, Repr

namespace ParameterNames

/-- The name of a number. -/
def nameAt (names : ParameterNames) (n : Nat) : String :=
  names.stem ++ toString n

/-- The next name. -/
def next (names : ParameterNames) : String × ParameterNames :=
  (names.nameAt names.used, { names with used := names.used + 1 })

/-- The next name if one is needed. -/
def nextIf (names : ParameterNames) (needed : Bool) : Option String × ParameterNames :=
  if needed then (some (names.nameAt names.used), { names with used := names.used + 1 })
  else (none, names)

/-- Starts again from zero. -/
def reset (names : ParameterNames) : ParameterNames :=
  { names with used := 0 }

end ParameterNames

end EntityMapper
