import StackScript.Tree
set_option autoImplicit false

/-!
# Trees for people

A source tree laid out with one field a line.  Fields that hold nothing, such as
a number that is zero, are left out.
-/

namespace StackScript.Command

/-- A line with an indent, and `rest` after it. -/
def lineOnto (indent : Nat) (text rest : Bytes) : Bytes :=
  List.replicate indent 32 ++ (text ++ newline :: rest)

/-- The line that tells the kind of an element, and `rest` after it. -/
def kindOnto (indent : Nat) (kind : Kind) (rest : Bytes) : Bytes :=
  lineOnto indent (ascii "kind: main.Kind(" ++ kind.name ++ ascii "),") rest

/-- The lines of an element: a brace, its kind, what `fields` puts before the closing
brace, and `rest` after it. -/
def braced (indent : Nat) (kind : Kind) (fields : Bytes → Bytes) (rest : Bytes) : Bytes :=
  lineOnto indent (ascii "\x7b")
    (kindOnto (indent + 2) kind (fields (lineOnto indent (ascii "\x7d,") rest)))

mutual

/-- The lines of one element, and `rest` after them. -/
def elementOnto (indent : Nat) : Tree → (rest : Bytes) → Bytes
  | .number x, rest =>
    braced indent .number
      (fun rest =>
        if x.isZero then rest
        else lineOnto (indent + 2) (ascii "num: " ++ x.compact ++ ascii ",") rest)
      rest
  | .text s, rest =>
    braced indent .text
      (fun rest =>
        if s.isEmpty then rest
        else lineOnto (indent + 2) (ascii "text: " ++ Text.quoted s ++ ascii ",") rest)
      rest
  | .list [], rest => braced indent .list (lineOnto (indent + 2) (ascii "list: &,")) rest
  | .list (item :: items), rest =>
    braced indent .list
      (fun rest =>
        lineOnto (indent + 2) (ascii "list: &main.List\x7b")
          (elementOnto (indent + 4) item
            (elementsOnto (indent + 4) items (lineOnto (indent + 2) (ascii "\x7d,") rest))))
      rest

/-- The lines of several elements, and `rest` after them. -/
def elementsOnto (indent : Nat) : List Tree → (rest : Bytes) → Bytes
  | [], rest => rest
  | item :: items, rest => elementOnto indent item (elementsOnto indent items rest)

end

/-- The layout of a whole source; nothing for an empty one. -/
def treeText : List Tree → Bytes
  | [] => []
  | items => ascii "main.List\x7b\n" ++ elementsOnto 2 items (ascii "\x7d")

end StackScript.Command
