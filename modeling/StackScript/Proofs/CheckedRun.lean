import StackScript.Proofs.Observation
import StackScript.Proofs.Surroundings
import StackScript.Proofs.CheckedOperands
import StackScript.Proofs.CheckedShapes
set_option autoImplicit false

/-!
# The checked evaluator

Here programs run in an evaluator where every access by position is checked: the bytes of
a source and of a text, the open lists of the reader, the items of lists and pairs, the
places for gathered values, and the table of instructions.  An access out of range would
crash the run.

This evaluator is the evaluator itself, instruction by instruction and so for whole calls.
-/

namespace StackScript

open StackScript.Action

/-- The result, or the crash that stands in its place. -/
def Action.orCrash {W α : Type} : Except OutOfRange α → Action W α
  | .ok a => pure a
  | .error e => throw (.crashed e.message)

namespace Checked

variable {W : Type} (conv : Conversion) {most : Nat}

/-! ## Instructions -/

/-- Takes a list and puts its first item. -/
def pushFirst : Action W Unit := do
  let list ← popList
  if list.items.length = 0 then fail .noFirst
  else do
    let v ← orCrash (Checked.get list.items 0)
    push v

theorem pushFirst_eq : (pushFirst : Action W Unit) = Action.pushFirst := by
  refine congrArg (popList >>= ·) (funext fun list => ?_)
  cases list.items with
  | nil => rfl
  | cons v rest => rfl

/-- Takes a list and puts the list of its other items. -/
def pushRest : Action W Unit := do
  let list ← popList
  if list.items.length = 0 then pushList []
  else do
    let items ← orCrash (Checked.slice list.items 1 list.items.length)
    pushList items

theorem pushRest_eq : (pushRest : Action W Unit) = Action.pushRest := by
  refine congrArg (popList >>= ·) (funext fun list => ?_)
  cases hitems : list.items with
  | nil => rfl
  | cons v rest =>
    rw [if_neg (by simp), Checked.slice_length (by simp only [List.length_cons]; omega)]
    rfl

/-- Takes a count and a list, and puts the list of its first items. -/
def pushHead (most : Nat) : Action W Unit := do
  let n ← popNumber
  let list ← popList
  let items ← orCrash (conv.firstItems most list.items n)
  pushList items

theorem pushHead_eq (hmost : most ≤ sizeBound) :
    (pushHead conv most : Action W Unit) = Action.pushHead := by
  simp only [pushHead, conv.firstItems_eq hmost]
  rfl

/-- Takes a count and a list, and puts the list of its last items. -/
def pushTail (most : Nat) : Action W Unit := do
  let n ← popNumber
  let list ← popList
  let items ← orCrash (conv.lastItems most list.items n)
  pushList items

theorem pushTail_eq (hmost : most ≤ sizeBound) :
    (pushTail conv most : Action W Unit) = Action.pushTail := by
  simp only [pushTail, conv.lastItems_eq hmost]
  rfl

/-- Takes a position and a list, and puts the item there. -/
def pushItem (most : Nat) : Action W Unit := do
  let n ← popNumber
  let list ← popList
  let found ← orCrash (conv.itemAt most list.items n)
  let v ← orFail found
  push v

theorem pushItem_eq (hmost : most ≤ sizeBound) :
    (pushItem conv most : Action W Unit) = Action.pushItem := by
  simp only [pushItem, conv.itemAt_eq hmost]
  rfl

/-- Takes a key and a list, and puts the item at that position, or the value for that
key. -/
def pushLookup (most : Nat) : Action W Unit := do
  let key ← pop
  let list ← popList
  match key with
  | .number x => do
    let found ← orCrash (conv.itemAt most list.items x)
    let v ← orFail found
    push v
  | .text name => do
    match ← orCrash (valueForKey name list.items) with
    | some v => push v
    | none => fail (.noKey name)
  | _ => fail (.badKey key)

theorem pushLookup_eq (hmost : most ≤ sizeBound) :
    (pushLookup conv most : Action W Unit) = Action.pushLookup := by
  simp only [pushLookup, conv.itemAt_eq hmost, valueForKey_eq]
  rfl

/-- Takes a value for each of `count` places, the last first. -/
def fill (slots : List Value) : (count : Nat) → Action W (List Value)
  | 0 => pure slots
  | count + 1 => do
    let v ← pop
    let slots ← orCrash (Checked.set slots count v)
    fill slots count

/-- The places left are those in front, and behind them is what has been taken. -/
theorem fill_replicate (count : Nat) (taken : List Value) :
    (fill (List.replicate count .absent ++ taken) count : Action W (List Value)) =
      popMany taken count := by
  induction count generalizing taken with
  | zero => rfl
  | succ count ih =>
    refine congrArg (pop >>= ·) (funext fun v => ?_)
    have hset := Checked.set_append (List.replicate count Value.absent) .absent v taken
    rw [List.length_replicate] at hset
    rw [List.replicate_succ', List.append_assoc, List.singleton_append, hset]
    exact ih (v :: taken)

/-- Takes a count and so many values, and puts the list of them. -/
def gatherValues (most : Nat) : Action W Unit := do
  let n ← popNumber
  match ← orCrash (conv.places most (← MonadState.get).stack.size n) with
  | none => fail (.tooFewValues n)
  | some slots => do
    let items ← fill slots slots.length
    pushList items

theorem gatherValues_eq (hmost : most ≤ sizeBound) :
    (gatherValues conv most : Action W Unit) = Action.gatherValues := by
  refine congrArg (popNumber >>= ·) (funext fun n => ?_)
  refine congrArg (MonadState.get >>= ·) (funext fun s => ?_)
  rw [conv.places_eq hmost]
  cases n.ceilCount? s.stack.size with
  | none => rfl
  | some count =>
    have hfill := fill_replicate (W := W) count []
    rw [List.append_nil] at hfill
    change (fill (List.replicate count .absent) (List.replicate count Value.absent).length >>=
      pushList) = _
    rw [List.length_replicate, hfill]

/-- Takes two values and puts whether they are equal. -/
def compareEqual : Action W Unit := do
  let b ← pop
  let a ← pop
  let same ← orCrash (a.equalAt b)
  pushBool same

theorem compareEqual_eq : (compareEqual : Action W Unit) = compareValues Value.equal := by
  simp only [compareEqual, Value.equalAt_eq]
  rfl

end Checked

/-! ## Sources -/

namespace Session

variable {W : Type}

/-- The session after a source was read with a result, and the values read. -/
def load (s : Session W) (src : Bytes) (result : Except SyntaxError (List Tree)) :
    Session W × Except SyntaxError (List Value) :=
  let s := if s.listening.any then s.noteAll (Reader.start.notes src) else s
  match result with
  | .error error => (s, .error error)
  | .ok trees =>
    let (values, next) := Tree.loadAll s.nextList trees
    ({ s with nextList := next }, .ok values)

theorem load_read (s : Session W) (src : Bytes) :
    s.load src (Tree.read 1 src).result = s.parse src := rfl

end Session

namespace Checked

variable {W : Type}

/-- Reads a source by position. -/
def readSource (src : Bytes) : Action W (Except SyntaxError (List Value)) := do
  let reading ← orCrash (Tree.checkedRead 1 src)
  modifyGet fun s => (s.load src reading.result).swap

theorem readSource_eq (src : Bytes) :
    (readSource src : Action W (Except SyntaxError (List Value))) = Action.readSource src := by
  unfold readSource
  rw [Tree.checkedRead_eq]
  rfl

/-- Takes a path, and puts the list that the file there holds. -/
def importOperand [FileSystem W] : Action W Unit := do
  let path ← popText
  let src ← loadText path
  match ← readSource src with
  | .error error => fail (.unreadableFile path error)
  | .ok items => do
    note .info fun _ => ascii "imported " ++ path
    pushList items

theorem importOperand_eq [FileSystem W] :
    (importOperand : Action W Unit) = Action.importOperand := by
  simp only [importOperand, readSource_eq]
  rfl

end Checked

/-! ## Evaluation -/

section Evaluation

variable {W : Type} [FileSystem W] (conv : Conversion) {most : Nat}

/-- The action of an instruction, with every access by position checked. -/
def Instruction.performChecked (most : Nat) (run : Runner W) (rounds : Nat) :
    Instruction → Action W Unit
  | .equal => Checked.compareEqual
  | .lookup => Checked.pushLookup conv most
  | .first => Checked.pushFirst
  | .rest => Checked.pushRest
  | .head => Checked.pushHead conv most
  | .tail => Checked.pushTail conv most
  | .get => Checked.pushItem conv most
  | .gather => Checked.gatherValues conv most
  | .importList => Checked.importOperand
  | i => i.perform run rounds

theorem Instruction.performChecked_eq (hmost : most ≤ sizeBound) (run : Runner W) (rounds : Nat)
    (i : Instruction) :
    i.performChecked conv most run rounds = i.perform run rounds := by
  cases i with
  | equal => exact Checked.compareEqual_eq
  | lookup => exact Checked.pushLookup_eq conv hmost
  | first => exact Checked.pushFirst_eq
  | rest => exact Checked.pushRest_eq
  | head => exact Checked.pushHead_eq conv hmost
  | tail => exact Checked.pushTail_eq conv hmost
  | get => exact Checked.pushItem_eq conv hmost
  | gather => exact Checked.gatherValues_eq conv hmost
  | importList => exact Checked.importOperand_eq
  -- the others ask for nothing by position but operands from the stack
  | _ => rfl

/-- Evaluates one element of a list, with the shape of a text found by position. -/
def Checked.step (most : Nat) (run : Runner W) (rounds : Nat) : Value → Action W Unit
  | .text s => do
    match ← orCrash (Shape.ofText s) with
    | .symbol => push (.text s)
    | .number x => push (.number x)
    | .instruction none => fail (.unknownOperation s)
    | .instruction (some i) => do
      note .trace fun _ => ascii "op " ++ i.name
      i.performChecked conv most run rounds
  | v => push v

theorem Checked.step_eq (hmost : most ≤ sizeBound) (run : Runner W) (rounds : Nat) (v : Value) :
    Checked.step conv most run rounds v = StackScript.step run rounds v := by
  cases v with
  | text s =>
    simp only [Checked.step, StackScript.step, Shape.ofText_eq, orCrash, pure_bind]
    by_cases hsymbol : s.head?.any startsSymbol = true
    · simp only [if_pos hsymbol]
    · by_cases hnumber : startsNumber s = true
      · simp only [if_neg hsymbol, if_pos hnumber]
      · simp only [if_neg hsymbol, if_neg hnumber]
        cases Instruction.ofName? s with
        | none => rfl
        | some i => simp only [i.performChecked_eq conv hmost]
  | absent => rfl
  | number x => rfl
  | list id items => rfl

/-- Runs a program with every access checked. -/
def Checked.exec (most rounds levels : Nat) : Runner W :=
  execBy (fun run => Checked.step conv most run rounds) levels

theorem Checked.exec_eq (hmost : most ≤ sizeBound) (rounds levels : Nat) :
    Checked.exec conv most rounds levels = (StackScript.exec rounds levels : Runner W) := by
  rw [← execBy_step]
  refine congrArg (execBy · levels) ?_
  funext run v
  exact Checked.step_eq conv hmost run rounds v

namespace Session

/-- Runs a program with every access checked. -/
def checkedRun (most : Nat) (s : Session W) (rounds : Nat) (prog : List Value) :
    Session W × Outcome :=
  s.runBy (Checked.exec conv most) rounds prog

theorem checkedRun_eq (hmost : most ≤ sizeBound) (s : Session W) (rounds : Nat)
    (prog : List Value) :
    s.checkedRun conv most rounds prog = s.run rounds prog := by
  have hexec : Checked.exec conv most = (StackScript.exec : Conduct W) := by
    funext rounds levels
    exact Checked.exec_eq conv hmost rounds levels
  rw [checkedRun, hexec]
  exact s.runBy_exec rounds prog

/-- Reads a source and runs it, with every access checked. -/
def checkedEval (most : Nat) (s : Session W) (rounds : Nat) (src : Bytes) :
    Session W × Outcome :=
  match Tree.checkedRead 1 src with
  | .error e => { s.atRest with line := 1 }.settle (.crashed e.message)
  | .ok reading =>
    match { s.atRest with line := 1 }.load src reading.result with
    | (s, .ok prog) => s.checkedRun conv most rounds prog
    | (s, .error error) => s.settleFault (.unreadable error.problem) error.line

theorem checkedEval_eq (hmost : most ≤ sizeBound) (s : Session W) (rounds : Nat) (src : Bytes) :
    s.checkedEval conv most rounds src = s.eval rounds src := by
  unfold checkedEval eval
  rw [Tree.checkedRead_eq]
  simp only [load_read]
  rcases ({ s.atRest with line := 1 } : Session W).parse src with ⟨t, result⟩
  cases result with
  | ok prog => exact t.checkedRun_eq conv hmost rounds prog
  | error error => rfl

end Session

end Evaluation

end StackScript
