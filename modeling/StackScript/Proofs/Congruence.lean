import StackScript.Proofs.Link
set_option autoImplicit false

/-!
# Congruences

Instructions are composed of a few actions that touch a session.  A `Congruence` is a
relation between the actions of two runs that holds of each of these and passes from
the parts of an action to the whole.  Such a relation holds of every instruction, of the
evaluation of an element, of a walk over a list and of a whole run.  A `Precongruence` need
not hold of setting the line, and a `StackCongruence` neither of binding names nor of
accessing files.  It holds of an instruction all the same, if it holds of whatever the
instruction reaches beyond the stack.

How lists are run, how texts are printed and for how long a loop goes on are left open,
so that runs which differ there can be compared too.  On the diagonal a congruence is a
property of actions, and what is proved here is that every instruction has it.
-/

namespace StackScript

open StackScript.Action (Runner)

/-! ## What instructions reach beyond the stack -/

namespace Instruction

/-- Whether an instruction runs lists. -/
def runsLists : Instruction → Bool
  | .eval | .evalTwice | .cond | .condElse | .each | .loop | .reduce | .map => true
  | _ => false

/-- Whether an instruction binds names. -/
def bindsNames : Instruction → Bool
  | .assign | .increment | .decrement => true
  | _ => false

/-- Whether an instruction accesses files. -/
def accessesFiles : Instruction → Bool
  | .importList | .exportList | .readFile | .writeFile => true
  | _ => false

/-- Whether an instruction prints. -/
def prints : Instruction → Bool
  | .print | .peek => true
  | _ => false

end Instruction

/-- The instruction that evaluating a value performs, if it performs one. -/
def Value.instruction? : Value → Option Instruction
  | .text s => if s.head?.any startsSymbol || startsNumber s then none else Instruction.ofName? s
  | _ => none

section Elements

variable {W : Type} [FileSystem W]

/-- How lists are run does not matter to an instruction that runs none. -/
theorem Instruction.perform_of_runsLists {i : Instruction} (h : i.runsLists = false)
    (run run' : Runner W) (rounds rounds' : Nat) :
    i.perform run rounds = i.perform run' rounds' := by
  cases i <;> first | rfl | cases h

theorem step_of_instruction {v : Value} {i : Instruction} (h : v.instruction? = some i)
    (run : Runner W) (rounds : Nat) :
    step run rounds v = (do
      Action.note .trace fun _ => ascii "op " ++ i.name
      i.perform run rounds) := by
  cases v with
  | text s =>
    simp only [Value.instruction?] at h
    split at h
    · cases h
    · rename_i hshape
      simp only [Bool.or_eq_true, not_or] at hshape
      simp only [step, if_neg hshape.1, if_neg hshape.2, h]
  | _ => cases h

/-- A value that names no instruction is put on the stack, as it is or as the number that it
is shaped like, or is refused. -/
theorem step_of_plain {v : Value} (h : v.instruction? = none) :
    (∃ x, ∀ (run : Runner W) (rounds : Nat), step run rounds v = Action.push x) ∨
      ∃ name, ∀ (run : Runner W) (rounds : Nat),
        step run rounds v = Action.fail (.unknownOperation name) := by
  cases v with
  | absent => exact .inl ⟨.absent, fun _ _ => rfl⟩
  | number x => exact .inl ⟨.number x, fun _ _ => rfl⟩
  | list id items => exact .inl ⟨.list id items, fun _ _ => rfl⟩
  | text s =>
    by_cases hsymbol : s.head?.any startsSymbol = true
    · refine .inl ⟨.text s, fun run rounds => ?_⟩
      simp only [step, if_pos hsymbol]
    by_cases hnumber : startsNumber s = true
    · refine .inl ⟨.number (Double.ofLeading s), fun run rounds => ?_⟩
      simp only [step, if_neg hsymbol, if_pos hnumber]
    have hname : Instruction.ofName? s = none := by
      simpa [Value.instruction?, hsymbol, hnumber] using h
    refine .inr ⟨s, fun run rounds => ?_⟩
    simp only [step, if_neg hsymbol, if_neg hnumber, hname]

end Elements

/-! ## Evaluators with parts exchanged -/

section Parts

variable {W : Type} [FileSystem W]

/-- How many values a number asks for. -/
def Action.countFor (n : Double) : Action W Nat := do
  match n.ceilCount? (← get).stack.size with
  | none => Action.fail (.tooFewValues n)
  | some count => pure count

omit [FileSystem W] in
theorem Action.gatherValues_eq : (Action.gatherValues : Action W Unit) = (do
    let n ← Action.popNumber
    let count ← Action.countFor n
    let items ← Action.popMany [] count
    Action.pushList items) := by
  refine congrArg (Action.popNumber >>= ·) ?_
  funext n s
  rw [Action.get_bind]
  cases hcount : n.ceilCount? s.stack.size with
  | none =>
    have hfail : Action.countFor n s = .error (.fault (.tooFewValues n)) s := by
      unfold Action.countFor
      rw [Action.get_bind, hcount]
      rfl
    rw [Action.bind_of_error hfail]
    rfl
  | some count =>
    have hok : Action.countFor n s = .ok count s := by
      unfold Action.countFor
      rw [Action.get_bind, hcount]
      rfl
    rw [Action.bind_of_ok hok]

/-- The action of an instruction where texts are printed by `emit`. -/
def Instruction.performWith (emit : Bytes → Action W Unit) (run : Runner W) (rounds : Nat) :
    Instruction → Action W Unit
  | .print => do
    let v ← Action.pop
    emit v.display
  | .peek => do
    let v ← Action.top
    emit v.display
  | i => i.perform run rounds

theorem Instruction.performWith_print (run : Runner W) (rounds : Nat) (i : Instruction) :
    i.performWith Action.print run rounds = i.perform run rounds := by
  cases i <;> rfl

/-- Evaluates one element of a list where instructions act by `act`. -/
def stepWith (act : Instruction → Action W Unit) : Value → Action W Unit
  | .text s =>
    if s.head?.any startsSymbol then Action.push (.text s)
    else if startsNumber s then Action.push (.number (Double.ofLeading s))
    else
      match Instruction.ofName? s with
      | none => Action.fail (.unknownOperation s)
      | some i => do
        Action.note .trace fun _ => ascii "op " ++ i.name
        act i
  | v => Action.push v

theorem stepWith_perform (run : Runner W) (rounds : Nat) (v : Value) :
    stepWith (Instruction.perform run rounds) v = step run rounds v := by
  cases v <;> rfl

/-- Runs a program where elements are evaluated by `act`, given how lists are run. -/
def execBy (act : Runner W → Value → Action W Unit) : (levels : Nat) → Runner W
  | 0 => fun _ => do Action.fail (.tooDeep (← get).depth)
  | levels + 1 => fun prog => do
    Action.descend
    walk (act (execBy act levels)) prog
    Action.ascend

theorem execBy_step (rounds levels : Nat) :
    execBy (fun run => step run rounds) levels = (exec rounds levels : Runner W) := by
  induction levels with
  | zero => rfl
  | succ levels ih =>
    funext prog
    simp only [execBy, exec, ih]

/-- Runs a program where texts are printed by `emit`. -/
def execWith (emit : Bytes → Action W Unit) (rounds levels : Nat) : Runner W :=
  execBy (fun run => stepWith (Instruction.performWith emit run rounds)) levels

theorem execWith_print (rounds levels : Nat) :
    execWith Action.print rounds levels = (exec rounds levels : Runner W) := by
  rw [← execBy_step]
  refine congrArg (execBy · levels) ?_
  funext run v
  rw [← stepWith_perform]
  refine congrArg (stepWith · v) ?_
  funext i
  exact Instruction.performWith_print run rounds i

end Parts

/-! ## Congruences -/

/-- A relation between the actions of two runs that holds of what touches the stack and the
journal of a session, and passes from the parts of an action to the whole. -/
structure StackCongruence {V W : Type} [FileSystem V] [FileSystem W]
    (R : {α : Type} → Action V α → Action W α → Prop) : Prop where
  pure : ∀ {α : Type} (a : α), R (pure a) (pure a)
  bind : ∀ {α β : Type} {x : Action V α} {y : Action W α} {f : α → Action V β}
    {g : α → Action W β}, R x y → (∀ a, R (f a) (g a)) → R (x >>= f) (y >>= g)
  fail : ∀ {α : Type} {cause : Cause}, (Halt.fault cause).isLimit = false →
    R (Action.fail cause : Action V α) (Action.fail cause)
  checkpoint : R Action.checkpoint Action.checkpoint
  note : ∀ level message, R (Action.note level message) (Action.note level message)
  push : ∀ v, R (Action.push v) (Action.push v)
  pushBool : ∀ b, R (Action.pushBool b) (Action.pushBool b)
  take : ∀ {α : Type} {from_ : Stack → Except Cause (α × Stack)}, Stack.Framed from_ →
    ∀ shown, R (Action.take from_ shown) (Action.take from_ shown)
  top : R Action.top Action.top
  countFor : ∀ n, R (Action.countFor n) (Action.countFor n)
  pushList : ∀ items, R (Action.pushList items) (Action.pushList items)
  valueOf : ∀ name, R (Action.valueOf name) (Action.valueOf name)
  readSource : ∀ src, R (Action.readSource src) (Action.readSource src)

/-- Such a relation that holds of leaving, of binding names and of accessing files too. -/
structure Precongruence {V W : Type} [FileSystem V] [FileSystem W]
    (R : {α : Type} → Action V α → Action W α → Prop) : Prop extends StackCongruence R where
  exit : R (throw .exit : Action V Unit) (throw .exit)
  bindName : ∀ name v, R (Action.bindName name v) (Action.bindName name v)
  loadText : ∀ path, R (Action.loadText path) (Action.loadText path)
  saveText : ∀ path text, R (Action.saveText path text) (Action.saveText path text)

/-- Such a relation that holds of setting the line too. -/
structure Congruence {V W : Type} [FileSystem V] [FileSystem W]
    (R : {α : Type} → Action V α → Action W α → Prop) : Prop extends Precongruence R where
  setLine : ∀ line, R (Action.setLine line) (Action.setLine line)

namespace StackCongruence

variable {V W : Type} [FileSystem V] [FileSystem W]
variable {R : {α : Type} → Action V α → Action W α → Prop} (hR : StackCongruence R)
variable {run : Runner V} {run' : Runner W}
include hR

/-! ## Operands -/

theorem pop : R Action.pop Action.pop := hR.take Stack.framed_pop _

theorem popNumber : R Action.popNumber Action.popNumber := hR.take Stack.framed_popNumber _

theorem popText : R Action.popText Action.popText := hR.take Stack.framed_popText _

theorem popList : R Action.popList Action.popList := hR.take Stack.framed_popList _

theorem orFail {α : Type} {result : Except Cause α}
    (h : ∀ cause, result = .error cause → (Halt.fault cause).isLimit = false) :
    R (Action.orFail result) (Action.orFail result) := by
  cases result with
  | ok a => exact hR.pure a
  | error cause => exact hR.fail (h cause rfl)

theorem evaluate (hrun : ∀ prog, R (run prog) (run' prog)) :
    R (Action.evaluate run) (Action.evaluate run') := by
  refine hR.bind hR.pop fun v => ?_
  refine hR.bind (hR.note _ _) fun _ => ?_
  cases v with
  | absent => exact hR.pure ()
  | number x => exact hR.push _
  | text name => exact hR.bind (hR.valueOf name) hR.push
  | list id items => exact hrun items

theorem bindOperand (hnames : ∀ name v, R (Action.bindName name v) (Action.bindName name v)) :
    R Action.bindOperand Action.bindOperand := by
  refine hR.bind hR.popText fun name => ?_
  refine hR.bind hR.pop fun v => ?_
  exact hR.bind (hnames name v) fun _ => hR.note _ _

theorem adjust (hnames : ∀ name v, R (Action.bindName name v) (Action.bindName name v))
    (by_ : Double) : R (Action.adjust by_) (Action.adjust by_) := by
  refine hR.bind hR.popText fun name => ?_
  refine hR.bind (hR.valueOf name) fun v => ?_
  cases v with
  | number x => exact hR.bind (hnames _ _) fun _ => hR.note _ _
  | absent => exact hR.fail rfl
  | text s => exact hR.fail rfl
  | list id items => exact hR.fail rfl

theorem arithmetic (f : Double → Double → Double) :
    R (Action.arithmetic f) (Action.arithmetic f) := by
  refine hR.bind hR.popNumber fun b => ?_
  exact hR.bind hR.popNumber fun a => hR.push _

theorem compareNumbers (f : Double → Double → Bool) :
    R (Action.compareNumbers f) (Action.compareNumbers f) := by
  refine hR.bind hR.popNumber fun b => ?_
  exact hR.bind hR.popNumber fun a => hR.pushBool _

theorem compareValues (f : Value → Value → Bool) :
    R (Action.compareValues f) (Action.compareValues f) := by
  refine hR.bind hR.pop fun b => ?_
  exact hR.bind hR.pop fun a => hR.pushBool _

theorem selectOperand : R Action.selectOperand Action.selectOperand := by
  refine hR.bind hR.popNumber fun x => ?_
  refine hR.bind hR.pop fun yes => ?_
  exact hR.bind hR.pop fun no => hR.push _

theorem assertOperand : R Action.assertOperand Action.assertOperand := by
  refine hR.bind hR.popNumber fun x => ?_
  cases x.isZero with
  | true => exact hR.bind (hR.fail rfl) fun _ => hR.note _ _
  | false => exact hR.note _ _

/-! ## Control -/

theorem runIf (hrun : ∀ prog, R (run prog) (run' prog)) :
    R (Action.runIf run) (Action.runIf run') := by
  refine hR.bind hR.popNumber fun x => ?_
  refine hR.bind hR.popList fun body => ?_
  cases x.isZero with
  | true => exact hR.pure ()
  | false => exact hrun body.items

theorem runIfElse (hrun : ∀ prog, R (run prog) (run' prog)) :
    R (Action.runIfElse run) (Action.runIfElse run') := by
  refine hR.bind hR.popNumber fun x => ?_
  refine hR.bind hR.popList fun yes => ?_
  exact hR.bind hR.popList fun no => hrun _

theorem runOver (hrun : ∀ prog, R (run prog) (run' prog)) (body items : List Value) :
    R (Action.runOver run body items) (Action.runOver run' body items) := by
  induction items with
  | nil => exact hR.pure ()
  | cons item rest ih =>
    refine hR.bind (hR.push item) fun _ => ?_
    exact hR.bind (hrun body) fun _ => ih

theorem runEach (hrun : ∀ prog, R (run prog) (run' prog)) :
    R (Action.runEach run) (Action.runEach run') := by
  refine hR.bind hR.popList fun body => ?_
  exact hR.bind hR.popList fun list => hR.runOver hrun _ _

theorem runReduce (hrun : ∀ prog, R (run prog) (run' prog)) :
    R (Action.runReduce run) (Action.runReduce run') := by
  refine hR.bind hR.popList fun body => ?_
  refine hR.bind hR.popList fun list => ?_
  exact hR.bind (hR.note _ _) fun _ => hR.runOver hrun _ _

theorem collect (hrun : ∀ prog, R (run prog) (run' prog)) (body items : List Value) :
    ∀ results, R (Action.collect run body results items)
      (Action.collect run' body results items) := by
  induction items with
  | nil => exact fun results => hR.pure _
  | cons item rest ih =>
    intro results
    refine hR.bind (hR.push item) fun _ => ?_
    refine hR.bind (hrun body) fun _ => ?_
    exact hR.bind hR.pop fun result => ih (result :: results)

theorem runMap (hrun : ∀ prog, R (run prog) (run' prog)) :
    R (Action.runMap run) (Action.runMap run') := by
  refine hR.bind hR.popList fun body => ?_
  refine hR.bind hR.popList fun list => ?_
  refine hR.bind (hR.note _ _) fun _ => ?_
  exact hR.bind (hR.collect hrun _ _ []) hR.pushList

/-- A loop of as many rounds on both sides, if running out of them is related. -/
theorem repeatBody (hexhausted : R (throw .exhausted : Action V Unit) (throw .exhausted))
    (hrun : ∀ prog, R (run prog) (run' prog)) (body : List Value) (rounds : Nat) :
    R (Action.repeatBody run body rounds) (Action.repeatBody run' body rounds) := by
  induction rounds with
  | zero => exact hexhausted
  | succ rounds ih =>
    refine hR.bind hR.checkpoint fun _ => ?_
    refine hR.bind (hrun body) fun _ => ?_
    refine hR.bind hR.popNumber fun x => ?_
    cases x.isZero with
    | true => exact hR.pure ()
    | false => exact ih

/-! ## Lists -/

omit hR in
theorem itemAt_not_limit {items : List Value} {x : Double} {cause : Cause}
    (h : Action.itemAt items x = .error cause) : (Halt.fault cause).isLimit = false := by
  unfold Action.itemAt at h
  split at h
  · cases h
    rfl
  · split at h
    · cases h
    · cases h
      rfl

theorem pushFirst : R Action.pushFirst Action.pushFirst := by
  refine hR.bind hR.popList fun list => ?_
  cases list.items with
  | nil => exact hR.fail rfl
  | cons v rest => exact hR.push v

theorem pushHead : R Action.pushHead Action.pushHead := by
  refine hR.bind hR.popNumber fun n => ?_
  exact hR.bind hR.popList fun list => hR.pushList _

theorem pushTail : R Action.pushTail Action.pushTail := by
  refine hR.bind hR.popNumber fun n => ?_
  exact hR.bind hR.popList fun list => hR.pushList _

theorem pushItem : R Action.pushItem Action.pushItem := by
  refine hR.bind hR.popNumber fun n => ?_
  refine hR.bind hR.popList fun list => ?_
  exact hR.bind (hR.orFail fun _ h => itemAt_not_limit h) hR.push

theorem pushLookup : R Action.pushLookup Action.pushLookup := by
  refine hR.bind hR.pop fun key => ?_
  refine hR.bind hR.popList fun list => ?_
  cases key with
  | absent => exact hR.fail rfl
  | number x => exact hR.bind (hR.orFail fun _ h => itemAt_not_limit h) hR.push
  | text name =>
    simp only
    cases Action.valueForKey? name list.items with
    | none => exact hR.fail rfl
    | some v => exact hR.push v
  | list id items => exact hR.fail rfl

theorem popMany (count : Nat) : ∀ taken, R (Action.popMany taken count)
    (Action.popMany taken count) := by
  induction count with
  | zero => exact fun taken => hR.pure taken
  | succ count ih => exact fun taken => hR.bind hR.pop fun v => ih (v :: taken)

theorem gatherValues : R Action.gatherValues Action.gatherValues := by
  rw [Action.gatherValues_eq, Action.gatherValues_eq]
  refine hR.bind hR.popNumber fun n => ?_
  refine hR.bind (hR.countFor n) fun count => ?_
  exact hR.bind (hR.popMany count []) hR.pushList

theorem pushAll (values : List Value) : R (Action.pushAll values) (Action.pushAll values) := by
  induction values with
  | nil => exact hR.pure ()
  | cons v rest ih => exact hR.bind (hR.push v) fun _ => ih

/-! ## Files and the rest -/

theorem importOperand (hload : ∀ path, R (Action.loadText path) (Action.loadText path)) :
    R Action.importOperand Action.importOperand := by
  refine hR.bind hR.popText fun path => ?_
  refine hR.bind (hload path) fun src => ?_
  refine hR.bind (hR.readSource src) fun result => ?_
  cases result with
  | error error => exact hR.fail rfl
  | ok items => exact hR.bind (hR.note _ _) fun _ => hR.pushList items

theorem exportOperand
    (hsave : ∀ path text, R (Action.saveText path text) (Action.saveText path text)) :
    R Action.exportOperand Action.exportOperand := by
  refine hR.bind hR.popText fun path => ?_
  refine hR.bind hR.popList fun list => ?_
  rcases list.render with ⟨text, stopped⟩
  cases stopped with
  | none => exact hR.bind (hsave path text) fun _ => hR.note _ _
  | some bad => exact hR.fail rfl

theorem exchange : R Action.exchange Action.exchange := by
  refine hR.bind hR.pop fun b => ?_
  refine hR.bind hR.pop fun a => ?_
  exact hR.bind (hR.push b) fun _ => hR.push a

theorem readOperand (hload : ∀ path, R (Action.loadText path) (Action.loadText path)) :
    R Action.readOperand Action.readOperand := by
  refine hR.bind hR.popText fun path => ?_
  exact hR.bind (hload path) fun text => hR.push _

theorem writeOperand
    (hsave : ∀ path text, R (Action.saveText path text) (Action.saveText path text)) :
    R Action.writeOperand Action.writeOperand := by
  refine hR.bind hR.popText fun path => ?_
  exact hR.bind hR.popText fun text => hsave path text

theorem lineOperand (hline : ∀ line, R (Action.setLine line) (Action.setLine line)) :
    R Action.lineOperand Action.lineOperand := by
  refine hR.bind hR.popNumber fun x => ?_
  exact hR.bind (hline _) fun _ => hR.note _ _

theorem duplicate : R Action.duplicate Action.duplicate := hR.bind hR.top hR.push

theorem convert (f : Double → Value) : R (Action.convert f) (Action.convert f) :=
  hR.bind hR.popNumber fun x => hR.push (f x)

/-! ## Whole instructions -/

/-- An instruction is related to itself where whatever it reaches beyond the stack is. -/
theorem performWith_of_reach {emit : Bytes → Action V Unit} {emit' : Bytes → Action W Unit}
    {rounds rounds' : Nat} {i : Instruction}
    (hexit : i = .exit → R (throw .exit : Action V Unit) (throw .exit))
    (hemit : i.prints = true → ∀ text, R (emit text) (emit' text))
    (hrun : i.runsLists = true → ∀ prog, R (run prog) (run' prog))
    (hloop : i = .loop → ∀ body,
      R (Action.repeatBody run body rounds) (Action.repeatBody run' body rounds'))
    (hnames : i.bindsNames = true → ∀ name v, R (Action.bindName name v) (Action.bindName name v))
    (hline : i = .setLine → ∀ line, R (Action.setLine line) (Action.setLine line))
    (hload : i.accessesFiles = true → ∀ path, R (Action.loadText path) (Action.loadText path))
    (hsave : i.accessesFiles = true → ∀ path text,
      R (Action.saveText path text) (Action.saveText path text)) :
    R (i.performWith emit run rounds) (i.performWith emit' run' rounds') := by
  cases i with
  | eval => exact hR.evaluate (hrun rfl)
  | evalTwice => exact hR.bind (hR.evaluate (hrun rfl)) fun _ => hR.evaluate (hrun rfl)
  | assign => exact hR.bindOperand (hnames rfl)
  | add => exact hR.arithmetic _
  | sub => exact hR.arithmetic _
  | mul => exact hR.arithmetic _
  | div => exact hR.arithmetic _
  | floorDiv => exact hR.arithmetic _
  | mod => exact hR.arithmetic _
  | increment => exact hR.adjust (hnames rfl) _
  | decrement => exact hR.adjust (hnames rfl) _
  | greater => exact hR.compareNumbers _
  | less => exact hR.compareNumbers _
  | greaterEq => exact hR.compareNumbers _
  | lessEq => exact hR.compareNumbers _
  | equal => exact hR.compareValues _
  | different => exact hR.compareValues _
  | and => exact hR.compareNumbers _
  | or => exact hR.compareNumbers _
  | not => exact hR.bind hR.popNumber fun x => hR.pushBool _
  | select => exact hR.selectOperand
  | assert => exact hR.assertOperand
  | lookup => exact hR.pushLookup
  | setLine => exact hR.lineOperand (hline rfl)
  | dot => exact hR.duplicate
  | dup => exact hR.duplicate
  | drop => exact hR.bind hR.pop fun _ => hR.pure ()
  | swap => exact hR.exchange
  | cond => exact hR.runIf (hrun rfl)
  | condElse => exact hR.runIfElse (hrun rfl)
  | each => exact hR.runEach (hrun rfl)
  | loop => exact hR.bind hR.popList fun body => hloop rfl body.items
  | first => exact hR.pushFirst
  | rest => exact hR.bind hR.popList fun list => hR.pushList _
  | head => exact hR.pushHead
  | tail => exact hR.pushTail
  | get => exact hR.pushItem
  | gather => exact hR.gatherValues
  | reduce => exact hR.runReduce (hrun rfl)
  | map => exact hR.runMap (hrun rfl)
  | spread => exact hR.bind hR.popList fun list => hR.pushAll _
  | importList => exact hR.importOperand (hload rfl)
  | exportList => exact hR.exportOperand (hsave rfl)
  | readFile => exact hR.readOperand (hload rfl)
  | writeFile => exact hR.writeOperand (hsave rfl)
  | print => exact hR.bind hR.pop fun v => hemit rfl _
  | peek => exact hR.bind hR.top fun v => hemit rfl _
  | exit => exact hexit rfl
  | die => exact hR.fail rfl
  | str => exact hR.convert _
  | int => exact hR.convert _

theorem stepWith {act : Instruction → Action V Unit} {act' : Instruction → Action W Unit}
    (hact : ∀ i, R (act i) (act' i)) (v : Value) :
    R (StackScript.stepWith act v) (StackScript.stepWith act' v) := by
  cases v with
  | absent => exact hR.push _
  | number x => exact hR.push _
  | list id items => exact hR.push _
  | text s =>
    simp only [StackScript.stepWith]
    by_cases hsymbol : s.head?.any startsSymbol = true
    · rw [if_pos hsymbol, if_pos hsymbol]
      exact hR.push _
    · rw [if_neg hsymbol, if_neg hsymbol]
      by_cases hnumber : startsNumber s = true
      · rw [if_pos hnumber, if_pos hnumber]
        exact hR.push _
      · rw [if_neg hnumber, if_neg hnumber]
        cases Instruction.ofName? s with
        | none => exact hR.fail rfl
        | some i => exact hR.bind (hR.note _ _) fun _ => hact i

/-- A walk over a list is related to itself where each of its steps is. -/
theorem walk {act : Value → Action V Unit} {act' : Value → Action W Unit}
    (hact : ∀ v, R (act v) (act' v)) (prog : List Value) :
    R (StackScript.walk act prog) (StackScript.walk act' prog) := by
  induction prog with
  | nil => exact hR.pure ()
  | cons v rest ih =>
    refine hR.bind hR.checkpoint fun _ => ?_
    exact hR.bind (hact v) fun _ => ih

/-- Running a list is related to itself, if counting the lists being run is and running
into the limit. -/
theorem execBy {act : Runner V → Value → Action V Unit} {act' : Runner W → Value → Action W Unit}
    (hdescend : R Action.descend Action.descend) (hascend : R Action.ascend Action.ascend)
    (hdeep : R (do Action.fail (.tooDeep (← get).depth) : Action V Unit)
      (do Action.fail (.tooDeep (← get).depth)))
    (hact : ∀ {run run'}, (∀ prog, R (run prog) (run' prog)) → ∀ v, R (act run v) (act' run' v))
    (levels : Nat) : ∀ prog, R (StackScript.execBy act levels prog)
      (StackScript.execBy act' levels prog) := by
  induction levels with
  | zero => exact fun _ => hdeep
  | succ levels ih =>
    intro prog
    refine hR.bind hdescend fun _ => ?_
    exact hR.bind (hR.walk (hact ih) prog) fun _ => hascend

end StackCongruence

namespace Congruence

variable {V W : Type} [FileSystem V] [FileSystem W]
variable {R : {α : Type} → Action V α → Action W α → Prop} (hR : Congruence R)
variable {run : Runner V} {run' : Runner W}
include hR

/-- Every instruction is related to itself where running lists, printing and going
through the rounds of a loop are. -/
theorem performWith {emit : Bytes → Action V Unit} {emit' : Bytes → Action W Unit}
    {rounds rounds' : Nat} (hemit : ∀ text, R (emit text) (emit' text))
    (hrun : ∀ prog, R (run prog) (run' prog))
    (hloop : ∀ body, R (Action.repeatBody run body rounds) (Action.repeatBody run' body rounds'))
    (i : Instruction) : R (i.performWith emit run rounds) (i.performWith emit' run' rounds') :=
  hR.performWith_of_reach (fun _ => hR.exit) (fun _ => hemit) (fun _ => hrun) (fun _ => hloop)
    (fun _ => hR.bindName) (fun _ => hR.setLine) (fun _ => hR.loadText) fun _ => hR.saveText

/-- Running a list is related to itself where only printing differs, if running out of
rounds is related to itself too. -/
theorem execWith {emit : Bytes → Action V Unit} {emit' : Bytes → Action W Unit}
    (hemit : ∀ text, R (emit text) (emit' text))
    (hdescend : R Action.descend Action.descend) (hascend : R Action.ascend Action.ascend)
    (hdeep : R (do Action.fail (.tooDeep (← get).depth) : Action V Unit)
      (do Action.fail (.tooDeep (← get).depth)))
    (hexhausted : R (throw .exhausted : Action V Unit) (throw .exhausted))
    (rounds levels : Nat) (prog : List Value) :
    R (StackScript.execWith emit rounds levels prog)
      (StackScript.execWith emit' rounds levels prog) := by
  refine hR.execBy hdescend hascend hdeep ?_ levels prog
  intro run run' hrun
  apply hR.stepWith
  exact hR.performWith hemit hrun fun body => hR.repeatBody hexhausted hrun body rounds

end Congruence

end StackScript
