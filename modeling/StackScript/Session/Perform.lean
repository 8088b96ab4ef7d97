import StackScript.Instruction
import StackScript.Session.Action
set_option autoImplicit false

/-!
# What the instructions do

`perform` gives every instruction its action.  Some instructions run lists that
they find on the stack; how a list is run is a parameter here, so that this
module says what each instruction does with its operands and nothing about how
deep lists may run inside lists.

Instructions with two operands take the right one first, because it is on top:
`5 3 -` leaves 2.
-/

namespace StackScript

namespace Action

variable {W : Type}

/-- How a list is run. -/
abbrev Runner (W : Type) : Type := List Value → Action W Unit

/-! ## Evaluation and names -/

/-- Takes a value and evaluates it: a number stays, a list runs, and a name gives
its value. -/
def evaluate (run : Runner W) : Action W Unit := do
  let v ← pop
  note .debug fun _ => v.format ++ ascii " $"
  match v with
  | .number _ => push v
  | .list _ items => run items
  | .text name => do push (← valueOf name)
  | .absent => pure ()

/-- Binds a name to a value. -/
def bindOperand : Action W Unit := do
  let name ← popText
  let v ← pop
  bindName name v
  note .debug fun _ => v.format ++ ascii " " ++ name ++ ascii " <-"

/-- Adds to the number of a name. -/
def adjust (by_ : Double) : Action W Unit := do
  let name ← popText
  match ← valueOf name with
  | .number x => do
    bindName name (.number (x.add by_))
    note .debug fun _ => name ++ ascii " <- " ++ (x.add by_).compact
  | v => fail (.mismatch .number v)

/-! ## Arithmetic, comparison and logic -/

/-- Takes two numbers and puts the result of an operation on them. -/
def arithmetic (f : Double → Double → Double) : Action W Unit := do
  let b ← popNumber
  let a ← popNumber
  push (.number (f a b))

/-- Takes two numbers and puts whether a relation holds between them. -/
def compareNumbers (f : Double → Double → Bool) : Action W Unit := do
  let b ← popNumber
  let a ← popNumber
  pushBool (f a b)

/-- Takes two values and puts whether a relation holds between them. -/
def compareValues (f : Value → Value → Bool) : Action W Unit := do
  let b ← pop
  let a ← pop
  pushBool (f a b)

/-- Takes a condition and two values, and puts one of them back. -/
def selectOperand : Action W Unit := do
  let x ← popNumber
  let yes ← pop
  let no ← pop
  push (if x.isZero then no else yes)

/-- Stops unless the number taken is other than zero. -/
def assertOperand : Action W Unit := do
  let x ← popNumber
  if x.isZero then fail .assertion
  note .trace fun _ => ascii "assertion passed"

/-! ## Control -/

/-- Runs a body if a condition holds. -/
def runIf (run : Runner W) : Action W Unit := do
  let x ← popNumber
  let body ← popList
  if x.isZero then pure () else run body.items

/-- Runs one of two bodies. -/
def runIfElse (run : Runner W) : Action W Unit := do
  let x ← popNumber
  let yes ← popList
  let no ← popList
  run (if x.isZero then no.items else yes.items)

/-- Puts each item on the stack and runs a body after it. -/
def runOver (run : Runner W) (body : List Value) : List Value → Action W Unit
  | [] => pure ()
  | item :: rest => do
    push item
    run body
    runOver run body rest

/-- Takes a body and a list, and runs the body for each item. -/
def runEach (run : Runner W) : Action W Unit := do
  let body ← popList
  let list ← popList
  runOver run body.items list.items

/-- Takes a body and a list, and runs the body for each item, which folds the
list through what the body leaves on the stack. -/
def runReduce (run : Runner W) : Action W Unit := do
  let body ← popList
  let list ← popList
  note .debug fun _ => ascii "reduce " ++ list.format ++ ascii " " ++ body.format
  runOver run body.items list.items

/-- Puts each item on the stack, runs a body after it and takes one value off;
`results` are the values so far, latest first. -/
def collect (run : Runner W) (body : List Value) (results : List Value) :
    List Value → Action W (List Value)
  | [] => pure results.reverse
  | item :: rest => do
    push item
    run body
    let result ← pop
    collect run body (result :: results) rest

/-- Takes a body and a list, runs the body for each item, and puts the list of
the values that it leaves. -/
def runMap (run : Runner W) : Action W Unit := do
  let body ← popList
  let list ← popList
  note .debug fun _ =>
    ascii "map [" ++ Value.formatItems list.items ++ ascii "] " ++ body.format
  let results ← collect run body.items [] list.items
  pushList results

/-- Runs a body until it leaves a zero, for at most `rounds` rounds. -/
def repeatBody (run : Runner W) (body : List Value) : (rounds : Nat) → Action W Unit
  | 0 => throw .exhausted
  | rounds + 1 => do
    checkpoint
    run body
    let x ← popNumber
    if x.isZero then pure () else repeatBody run body rounds

/-- Takes a body and runs it until it leaves a zero. -/
def runLoop (run : Runner W) (rounds : Nat) : Action W Unit := do
  let body ← popList
  repeatBody run body.items rounds

/-! ## Lists -/

/-- The item of a list at a position. -/
def itemAt (items : List Value) (x : Double) : Except Cause Value :=
  match x.toNat? with
  | none => .error (.noIndex x items.length)
  | some i =>
    match items[i]? with
    | some v => .ok v
    | none => .error (.noIndex x items.length)

/-- The value that a list of pairs has for a key: the second item of the first
member that is a list of two or more items, of which the first is the key. -/
def valueForKey? (key : Bytes) : List Value → Option Value
  | [] => none
  | .list _ (.text k :: v :: _) :: rest => if k = key then some v else valueForKey? key rest
  | _ :: rest => valueForKey? key rest

/-- Takes a list and puts its first item. -/
def pushFirst : Action W Unit := do
  let list ← popList
  match list.items with
  | [] => fail .noFirst
  | v :: _ => push v

/-- Takes a list and puts the list of its other items. -/
def pushRest : Action W Unit := do
  let list ← popList
  pushList list.items.tail

/-- Takes a count and a list, and puts the list of its first items. -/
def pushHead : Action W Unit := do
  let n ← popNumber
  let list ← popList
  pushList (list.items.take (n.countWithin list.items.length).toNat)

/-- Takes a count and a list, and puts the list of its last items. -/
def pushTail : Action W Unit := do
  let n ← popNumber
  let list ← popList
  pushList (list.items.drop (list.items.length - (n.countWithin list.items.length).toNat))

/-- Takes a position and a list, and puts the item there. -/
def pushItem : Action W Unit := do
  let n ← popNumber
  let list ← popList
  let v ← orFail (itemAt list.items n)
  push v

/-- Takes some values, the last of them first, and gives them in the order they
had on the stack. -/
def popMany (taken : List Value) : (count : Nat) → Action W (List Value)
  | 0 => pure taken
  | count + 1 => do
    let v ← pop
    popMany (v :: taken) count

/-- Takes a count and so many values, and puts the list of them. -/
def gatherValues : Action W Unit := do
  let n ← popNumber
  match n.ceilCount? (← get).stack.size with
  | none => fail (.tooFewValues n)
  | some count => do
    let items ← popMany [] count
    pushList items

/-- Takes a key and a list, and puts the item at that position, or the value for
that key. -/
def pushLookup : Action W Unit := do
  let key ← pop
  let list ← popList
  match key with
  | .number x => do
    let v ← orFail (itemAt list.items x)
    push v
  | .text name =>
    match valueForKey? name list.items with
    | some v => push v
    | none => fail (.noKey name)
  | _ => fail (.badKey key)

/-- Puts several values, in order. -/
def pushAll : List Value → Action W Unit
  | [] => pure ()
  | v :: rest => do
    push v
    pushAll rest

/-! ## Files -/

/-- Takes a path, and puts the list that the file there holds. -/
def importOperand [FileSystem W] : Action W Unit := do
  let path ← popText
  let src ← loadText path
  match ← readSource src with
  | .error error => fail (.unreadableFile path error)
  | .ok items => do
    note .info fun _ => ascii "imported " ++ path
    pushList items

/-- Takes a path and a list, and writes the list in source form.  A list that has
none is not written at all. -/
def exportOperand [FileSystem W] : Action W Unit := do
  let path ← popText
  let list ← popList
  match list.render with
  | ⟨_, some (bad, reason)⟩ => fail (.unwritable bad reason)
  | ⟨text, none⟩ => do
    saveText path text
    note .info fun _ => ascii "exported " ++ path

/-- Takes a path, and puts the text of the file there. -/
def readOperand [FileSystem W] : Action W Unit := do
  let path ← popText
  let text ← loadText path
  push (.text text)

/-- Takes a path and a text, and writes the text. -/
def writeOperand [FileSystem W] : Action W Unit := do
  let path ← popText
  let text ← popText
  saveText path text

/-! ## Printing, lines and conversion -/

/-- Takes a value and prints it. -/
def printOperand : Action W Unit := do
  let v ← pop
  print v.display

/-- Prints the value on top. -/
def printTop : Action W Unit := do
  let v ← top
  print v.display

/-- Takes a line number and makes it current. -/
def lineOperand : Action W Unit := do
  let x ← popNumber
  setLine x.toInt64
  note .trace fun _ => ascii "line"

/-- Puts the value on top once more. -/
def duplicate : Action W Unit := do
  let v ← top
  push v

/-- Takes a value away. -/
def discard : Action W Unit := do
  let _ ← pop

/-- Exchanges the two values on top. -/
def exchange : Action W Unit := do
  let b ← pop
  let a ← pop
  push b
  push a

/-- Takes a list and puts its items. -/
def spreadOperand : Action W Unit := do
  let list ← popList
  pushAll list.items

/-- Takes a number and puts whether it is zero. -/
def negateOperand : Action W Unit := do
  let x ← popNumber
  pushBool x.isZero

/-- Takes a number and puts something made of it. -/
def convert (f : Double → Value) : Action W Unit := do
  let x ← popNumber
  push (f x)

end Action

/-! ## All instructions -/

open StackScript.Action

/-- The action of an instruction, given how lists are run and for how many
rounds a loop may go on. -/
def Instruction.perform {W : Type} [FileSystem W] (run : Runner W) (rounds : Nat) :
    Instruction → Action W Unit
  | .eval => evaluate run
  | .evalTwice => do
    evaluate run
    evaluate run
  | .assign => bindOperand
  | .add => arithmetic Double.add
  | .sub => arithmetic Double.sub
  | .mul => arithmetic Double.mul
  | .div => arithmetic Double.div
  | .floorDiv => arithmetic fun a b => (a.div b).floor
  | .mod => arithmetic Double.mod
  | .increment => adjust Double.one
  | .decrement => adjust Double.one.negate
  | .greater => compareNumbers fun a b => b.lt a
  | .less => compareNumbers Double.lt
  | .greaterEq => compareNumbers fun a b => b.le a
  | .lessEq => compareNumbers Double.le
  | .equal => compareValues Value.equal
  | .different => compareValues fun a b => !a.identical b
  | .and => compareNumbers fun a b => !a.isZero && !b.isZero
  | .or => compareNumbers fun a b => !a.isZero || !b.isZero
  | .not => negateOperand
  | .select => selectOperand
  | .assert => assertOperand
  | .lookup => pushLookup
  | .setLine => lineOperand
  | .dot => duplicate
  | .dup => duplicate
  | .drop => discard
  | .swap => exchange
  | .cond => runIf run
  | .condElse => runIfElse run
  | .each => runEach run
  | .loop => runLoop run rounds
  | .first => pushFirst
  | .rest => pushRest
  | .head => pushHead
  | .tail => pushTail
  | .get => pushItem
  | .gather => gatherValues
  | .reduce => runReduce run
  | .map => runMap run
  | .spread => spreadOperand
  | .importList => importOperand
  | .exportList => exportOperand
  | .readFile => readOperand
  | .writeFile => writeOperand
  | .print => printOperand
  | .peek => printTop
  | .exit => throw .exit
  | .die => fail .died
  | .str => convert fun x => .text x.plain
  | .int => convert fun x => .number x.floor

end StackScript
