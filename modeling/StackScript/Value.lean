import StackScript.Number.Notation
set_option autoImplicit false

/-!
# Values

One datum of the language: a number, a text, or a list.  Lists serve as data and
as code.  Whether a text is a name, a string or an instruction is not stored; it
is decided where the evaluator meets it.

A list has an identity beside its items, so that "the same list" can be told
from "a list with the same items": `Value.equal` compares contents and
`Value.identical` compares identities.
-/

namespace StackScript

/-! ## Kinds -/

/-- The kinds of value. -/
inductive Kind where
  | none
  | number
  | text
  | list
  deriving DecidableEq, Repr, Inhabited

namespace Kind

/-- The name of a kind, as messages give it. -/
def name : Kind → Bytes
  | .none => ascii "none"
  | .number => ascii "number"
  | .text => ascii "text"
  | .list => ascii "list"

/-- The kinds, in the order of their codes. -/
def all : List Kind := [.none, .number, .text, .list]

/-- The name of the kind with a code; a code without a kind is shown as is. -/
def nameOfCode (code : Nat) : Bytes :=
  match all[code]? with
  | some kind => kind.name
  | .none => ascii "Kind(" ++ Bytes.ofNat code ++ ascii ")"

end Kind

/-! ## Values -/

/-- Which list a list value is. -/
inductive ListId where
  /-- the empty list that has no place of its own -/
  | bare
  /-- the list made as the `n`-th one -/
  | made (n : Nat)
  deriving DecidableEq, Repr, Inhabited

/-- One datum of the language. -/
inductive Value where
  /-- no value; only a host can supply it -/
  | absent
  | number (x : Double)
  | text (s : Bytes)
  | list (id : ListId) (items : List Value)
  deriving Repr, Inhabited

namespace Value

/-- The number for a truth value: there is no type of truth values. -/
def ofBool (b : Bool) : Value := .number (Double.ofBool b)

/-- The kind of a value. -/
def kind : Value → Kind
  | .absent => .none
  | .number _ => .number
  | .text _ => .text
  | .list _ _ => .list

/-- Whether a value is a number other than zero. -/
def truthy : Value → Bool
  | .number x => !x.isZero
  | _ => false

/-- The items of a list, and no items for any other value. -/
def items : Value → List Value
  | .list _ items => items
  | _ => []

/-! ## Comparison -/

mutual

/-- Deep equality: the same kind, and the same number, the same text or lists of
the same length with equal items. -/
def equal : Value → Value → Bool
  | .absent, .absent => true
  | .number x, .number y => x.eq y
  | .text s, .text t => s == t
  | .list _ xs, .list _ ys => equalItems xs ys
  | _, _ => false

/-- Equality of two sequences of values, pair by pair. -/
def equalItems : List Value → List Value → Bool
  | [], [] => true
  | x :: xs, y :: ys => equal x y && equalItems xs ys
  | _, _ => false

end

/-- Shallow comparison: numbers and texts by value, lists only by identity. -/
def identical : Value → Value → Bool
  | .list a _, .list b _ => a == b
  | a, b => equal a b

/-! ## Texts of values -/

/-- A text between backticks. -/
def ticked (s : Bytes) : Bytes := backtick :: s ++ [backtick]

mutual

/-- A value as people read it, with `rest` after it. -/
def formatOnto : Value → (rest : Bytes) → Bytes
  | .absent, rest => ascii "<none>" ++ rest
  | .number x, rest => x.plain ++ rest
  | .text s, rest => ticked s ++ rest
  | .list _ items, rest => 40 :: formatItemsOnto items (41 :: rest)

/-- Values with one space between each two, and `rest` after them. -/
def formatItemsOnto : List Value → (rest : Bytes) → Bytes
  | [], rest => rest
  | v :: items, rest => formatOnto v (formatRestOnto items rest)

/-- Values with one space before each, and `rest` after them. -/
def formatRestOnto : List Value → (rest : Bytes) → Bytes
  | [], rest => rest
  | v :: items, rest => 32 :: formatOnto v (formatRestOnto items rest)

end

/-- A value as people read it: numbers in plain notation, texts in backticks,
lists in parentheses. -/
def format (v : Value) : Bytes := formatOnto v []

/-- Values with one space between each two. -/
def formatItems (items : List Value) : Bytes := formatItemsOnto items []

mutual

theorem formatOnto_append (v : Value) (a b : Bytes) :
    formatOnto v (a ++ b) = formatOnto v a ++ b := by
  cases v with
  | absent => simp [formatOnto]
  | number x => simp [formatOnto]
  | text s => simp [formatOnto]
  | list id items => simp [formatOnto, ← formatItemsOnto_append items (41 :: a) b]

theorem formatItemsOnto_append (items : List Value) (a b : Bytes) :
    formatItemsOnto items (a ++ b) = formatItemsOnto items a ++ b := by
  cases items with
  | nil => simp [formatItemsOnto]
  | cons v items =>
    simp only [formatItemsOnto]
    rw [formatRestOnto_append items a b, formatOnto_append v _ b]

theorem formatRestOnto_append (items : List Value) (a b : Bytes) :
    formatRestOnto items (a ++ b) = formatRestOnto items a ++ b := by
  cases items with
  | nil => simp [formatRestOnto]
  | cons v items =>
    simp only [formatRestOnto, List.cons_append]
    rw [formatRestOnto_append items a b, formatOnto_append v _ b]

end

/-- What follows values does not change their text. -/
theorem formatItemsOnto_eq (items : List Value) (rest : Bytes) :
    formatItemsOnto items rest = formatItems items ++ rest :=
  formatItemsOnto_append items [] rest

/-- The text of a list is that of its items in parentheses. -/
theorem format_list (id : ListId) (items : List Value) :
    format (.list id items) = ascii "(" ++ formatItems items ++ ascii ")" := by
  simp only [format, formatOnto]
  rw [formatItemsOnto_eq]
  rfl

/-- A value as it is printed: a text as it is, anything else as people read
it. -/
def display : Value → Bytes
  | .text s => s
  | v => v.format

/-! ## Source form -/

/-- Why a value has no source form. -/
inductive Unwritable where
  /-- a number that is infinite or not a number -/
  | notFinite
  /-- a text that holds the delimiter of texts -/
  | backtick
  deriving DecidableEq, Repr, Inhabited

/-- The reason in words. -/
def Unwritable.message : Unwritable → Bytes
  | .notFinite => ascii "number is not finite"
  | .backtick => ascii "text contains a backtick"

/-- What came of writing a value in source form: the text so far and, if writing
stopped, the value that stopped it. -/
structure Rendering where
  text : Bytes
  stopped : Option (Value × Unwritable)

namespace Rendering

/-- Nothing written yet. -/
def empty : Rendering := ⟨[], none⟩

/-- What is written after a text. -/
def after (text : Bytes) (r : Rendering) : Rendering := ⟨text ++ r.text, r.stopped⟩

end Rendering

mutual

/-- A value in source form, with `rest` after it.  Writing stops at the first number
or text that has no source form. -/
def renderOnto : Value → (rest : Rendering) → Rendering
  | .absent, rest => rest
  | .number x, rest =>
    if x.isFinite then rest.after x.plain else ⟨[], some (.number x, .notFinite)⟩
  | .text s, rest =>
    if s.contains StackScript.backtick then ⟨[], some (.text s, .backtick)⟩
    else rest.after (ticked s)
  | .list _ items, rest => (renderItemsOnto items (rest.after [41])).after [40]

/-- Values in source form with one space between each two, and `rest` after
them. -/
def renderItemsOnto : List Value → (rest : Rendering) → Rendering
  | [], rest => rest
  | v :: items, rest => renderOnto v (renderRestOnto items rest)

/-- Values in source form with one space before each, and `rest` after them. -/
def renderRestOnto : List Value → (rest : Rendering) → Rendering
  | [], rest => rest
  | v :: items, rest => (renderOnto v (renderRestOnto items rest)).after [32]

end

/-- A value in source form: what the reader turns into an equal value. -/
def render (v : Value) : Rendering := renderOnto v .empty

end Value

end StackScript
