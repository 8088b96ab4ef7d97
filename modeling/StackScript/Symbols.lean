import StackScript.Fault
import StackScript.Table
set_option autoImplicit false

/-!
# The symbol table

One flat table of named values, shared by everything that runs in a session.
-/

namespace StackScript

/-- The symbol table. -/
abbrev Symbols : Type := Table Value

namespace Symbols

/-- The value of a name, or what is wrong. -/
def get (sym : Symbols) (name : Bytes) : Except Cause Value :=
  match sym.find? name with
  | some v => .ok v
  | none => .error (.undefined name)

end Symbols

end StackScript
