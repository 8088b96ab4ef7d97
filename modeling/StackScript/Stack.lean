import StackScript.Fault
set_option autoImplicit false

/-!
# The operand stack

A last-in first-out store of values.  The guarded operations say what is wrong
instead of giving a missing or unsuitable value, and then leave the stack as it
was: a value of the wrong kind stays on top for the dump.
-/

namespace StackScript

/-- The operand stack, top first. -/
structure Stack where
  values : List Value
  deriving Inhabited

namespace Stack

/-- The stack with nothing on it. -/
def empty : Stack := ⟨[]⟩

/-- How many values are on the stack. -/
def size (st : Stack) : Nat := st.values.length

/-- The values from the bottom to the top. -/
def toList (st : Stack) : List Value := st.values.reverse

/-- The stack with a value on top. -/
def push (st : Stack) (v : Value) : Stack := ⟨v :: st.values⟩

/-- The value at a position counted from the bottom. -/
def at? (st : Stack) (index : Int) : Except Cause Value :=
  if index < 0 then .error (.noValueAt index st.size)
  else
    match st.toList[index.toNat]? with
    | some v => .ok v
    | none => .error (.noValueAt index st.size)

/-- The value on top. -/
def top (st : Stack) : Except Cause Value :=
  match st.values with
  | [] => .error (.noValueAt (-1) 0)
  | v :: _ => .ok v

/-- The value on top, and the stack without it. -/
def pop (st : Stack) : Except Cause (Value × Stack) :=
  match st.values with
  | [] => .error .emptyStack
  | v :: rest => .ok (v, ⟨rest⟩)

/-- The number on top, and the stack without it. -/
def popNumber (st : Stack) : Except Cause (Double × Stack) :=
  match st.values with
  | [] => .error .emptyStack
  | .number x :: rest => .ok (x, ⟨rest⟩)
  | v :: _ => .error (.mismatch .number v)

/-- The text on top, and the stack without it. -/
def popText (st : Stack) : Except Cause (Bytes × Stack) :=
  match st.values with
  | [] => .error .emptyStack
  | .text s :: rest => .ok (s, ⟨rest⟩)
  | v :: _ => .error (.mismatch .text v)

/-- The list on top, with its identity, and the stack without it. -/
def popList (st : Stack) : Except Cause (Value × Stack) :=
  match st.values with
  | [] => .error .emptyStack
  | .list id items :: rest => .ok (.list id items, ⟨rest⟩)
  | v :: _ => .error (.mismatch .list v)

end Stack

end StackScript
