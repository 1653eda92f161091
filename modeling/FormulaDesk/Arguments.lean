import FormulaDesk.Failure

/-!
# Named arguments

Fields given by name to something that takes certain names. A name that is not taken is found
first, in the order given; then the names that are needed and missing, in the order taken.
-/

namespace FormulaDesk.Arguments

/-- The first given name that is not taken. -/
def firstUnexpected (taken : List String) (given : List String) : Option ArgumentFault :=
  given.findSome? fun name =>
    if name = "self" then some (.repeated name)
    else if taken.contains name then none
    else some (.unexpected name)

def check (taken required : List String) (given : Fields) : Except ArgumentFault Unit :=
  match firstUnexpected taken given.keys with
  | some fault => .error fault
  | none =>
    match required.filter fun name => !given.contains name with
    | [] => .ok ()
    | missing => .error (.missing missing)

end FormulaDesk.Arguments
