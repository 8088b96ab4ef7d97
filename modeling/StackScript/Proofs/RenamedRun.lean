import StackScript.Proofs.Congruence
import StackScript.Proofs.Renaming
set_option autoImplicit false

/-!
# Runs with other numbers for lists

Which numbers the lists of a session have does not show in what a run does.  An action and its
counterpart are run side by side, from sessions that differ in the numbers of lists alone.  They
keep to the same differences: what the actions give, why they halt and what session they leave
is exchanged by the same function, also for the lists made on the way.  So every source ends in
the same way, prints, notes and reports the same, and leaves the same up to the numbers.
-/

namespace StackScript

/-! ## Actions -/

section Actions

variable {W : Type} {first : Nat} (f : Renaming first)

/-- What an action came to, and the same with other numbers for lists.  What it gives is
exchanged by `ρ`. -/
inductive Action.RenamedResult {α β : Type} (ρ : α → β) :
    EStateM.Result Halt (Session W) α → EStateM.Result Halt (Session W) β → Prop where
  | ok (a : α) (t : Session W) (h : first ≤ t.nextList) :
    RenamedResult ρ (.ok a t) (.ok (ρ a) (t.renamed f.number))
  | error (halt : Halt) (t : Session W) :
    RenamedResult ρ (.error halt t) (.error (halt.renamed f.number) (t.renamed f.number))

/-- One action does with other numbers for lists what another does. -/
def Renames {α β : Type} (ρ : α → β) (x : Action W α) (y : Action W β) : Prop :=
  ∀ s : Session W, first ≤ s.nextList →
    Action.RenamedResult f ρ (x s) (y (s.renamed f.number))

end Actions

namespace Renames

variable {W : Type} {first : Nat} {f : Renaming first} {α β : Type}

theorem pure {ρ : α → β} (a : α) : Renames (W := W) f ρ (pure a) (pure (ρ a)) :=
  fun s h => .ok a s h

theorem throw {ρ : α → β} (halt : Halt) :
    Renames (W := W) f ρ (throw halt) (throw (halt.renamed f.number)) :=
  fun s _ => .error halt s

theorem fail {ρ : α → β} (cause : Cause) :
    Renames (W := W) f ρ (Action.fail cause) (Action.fail (cause.renamed f.number)) :=
  throw (.fault cause)

theorem bind {γ δ : Type} {ρ : α → β} {σ : γ → δ} {x : Action W α} {y : Action W β}
    {k : α → Action W γ} {l : β → Action W δ} (hx : Renames f ρ x y)
    (hk : ∀ a, Renames f σ (k a) (l (ρ a))) : Renames f σ (x >>= k) (y >>= l) := by
  intro s hs
  have hresult := hx s hs
  generalize hfirst : x s = r, hsecond : y (s.renamed f.number) = r' at hresult
  cases hresult with
  | ok a t ht =>
    rw [Action.bind_of_ok hfirst, Action.bind_of_ok hsecond]
    exact hk a t ht
  | error halt t =>
    rw [Action.bind_of_error hfirst, Action.bind_of_error hsecond]
    exact .error halt t

theorem modify {g g' : Session W → Session W}
    (h : ∀ s, g' (s.renamed f.number) = (g s).renamed f.number)
    (hnext : ∀ s, (g s).nextList = s.nextList) :
    Renames f id (modify g : Action W Unit) (modify g') := by
  intro s hs
  change Action.RenamedResult f id (.ok () (g s)) (.ok () (g' (s.renamed f.number)))
  rw [h]
  exact .ok () (g s) (hnext s ▸ hs)

theorem orFail {ρ : α → β} {e : Except Cause α} {e' : Except Cause β}
    (h : e' = Cause.renamedIn f.number ρ e) :
    Renames (W := W) f ρ (Action.orFail e) (Action.orFail e') := by
  subst h
  cases e with
  | ok a => exact pure a
  | error cause => exact fail cause

/-- An action that depends on the session it starts in. -/
theorem ofGet {ρ : α → β} {k : Session W → Action W α} {l : Session W → Action W β}
    (h : ∀ s, Renames f ρ (k s) (l (s.renamed f.number))) : Renames f ρ (get >>= k) (get >>= l) :=
  fun s hs => h s s hs

theorem note (level : Level) {message message' : Unit → Bytes} (h : message' () = message ()) :
    Renames (W := W) f id (Action.note level message) (Action.note level message') := by
  have hmessage : message' = message := funext fun _ => h
  subst hmessage
  refine modify (fun s => s.noteAt_renamed f.number level message') fun s => ?_
  obtain ⟨journal, hnoted⟩ := s.exists_noteAt level message'
  rw [hnoted]

theorem push (v : Value) :
    Renames (W := W) f id (Action.push v) (Action.push (v.renamed f.number)) := by
  refine bind (note _ ?_) fun _ => modify (fun _ => rfl) fun _ => rfl
  rw [Value.format_renamed]

theorem pushBool (b : Bool) :
    Renames (W := W) f id (Action.pushBool b) (Action.pushBool b) :=
  modify (fun _ => rfl) fun _ => rfl

theorem take {ρ : α → α} {from_ : Stack → Except Cause (α × Stack)} {shown : α → Bytes}
    (h : Stack.TakesRenamed f.number ρ from_) (hshown : ∀ a, shown (ρ a) = shown a) :
    Renames (W := W) f ρ (Action.take from_ shown) (Action.take from_ shown) := by
  refine ofGet fun s => ?_
  refine bind (orFail (h s.stack)) fun p => ?_
  refine bind (modify (fun _ => rfl) fun _ => rfl) fun _ => ?_
  refine bind (note _ ?_) fun _ => pure p.1
  rw [hshown]

theorem pop : Renames (W := W) f (Value.renamed f.number) Action.pop Action.pop :=
  take (Stack.takesRenamed_pop _) (Value.format_renamed _)

theorem popNumber : Renames (W := W) f id Action.popNumber Action.popNumber :=
  take (Stack.takesRenamed_popNumber _) fun _ => rfl

theorem popText : Renames (W := W) f id Action.popText Action.popText :=
  take (Stack.takesRenamed_popText _) fun _ => rfl

theorem popList : Renames (W := W) f (Value.renamed f.number) Action.popList Action.popList :=
  take (Stack.takesRenamed_popList _) (Value.format_renamed _)

theorem top : Renames (W := W) f (Value.renamed f.number) Action.top Action.top :=
  ofGet fun s => orFail (s.stack.top_renamed _)

/-- A new list gets the other number for the one that it gets. -/
theorem pushList (items : List Value) :
    Renames (W := W) f id (Action.pushList items)
      (Action.pushList (items.map (Value.renamed f.number))) := by
  intro s hs
  have hpush := push (f := f) (.list (.made s.nextList) items)
    { s with nextList := s.nextList + 1 } (Nat.le_succ_of_le hs)
  rw [Value.renamed_list] at hpush
  unfold Session.renamed at hpush
  simp only [f.succ hs] at hpush
  exact hpush

theorem valueOf (name : Bytes) :
    Renames (W := W) f (Value.renamed f.number) (Action.valueOf name) (Action.valueOf name) :=
  ofGet fun s => orFail (s.symbols.get_renamed _ name)

theorem bindName (name : Bytes) (v : Value) :
    Renames (W := W) f id (Action.bindName name v)
      (Action.bindName name (v.renamed f.number)) := by
  refine modify (fun s => ?_) fun _ => rfl
  unfold Session.renamed
  simp only [Symbols.bind_renamed]

theorem checkpoint : Renames (W := W) f id Action.checkpoint Action.checkpoint := by
  intro s hs
  cases hinterrupt : s.interrupt with
  | none =>
    rw [Action.checkpoint_of_none hinterrupt,
      Action.checkpoint_of_none (s := s.renamed f.number) hinterrupt]
    exact .ok () s hs
  | some reason =>
    rw [Action.checkpoint_of_some hinterrupt,
      Action.checkpoint_of_some (s := s.renamed f.number) hinterrupt]
    exact .error (.interrupted reason) s

theorem print (text : Bytes) : Renames (W := W) f id (Action.print text) (Action.print text) := by
  intro s hs
  rcases hwrite : s.output.writeLine text with ⟨output, _ | error⟩
  · rw [Action.print_of_none hwrite,
      Action.print_of_none (s := s.renamed f.number) hwrite]
    exact .ok () { s with output := output } hs
  · rw [Action.print_of_some hwrite,
      Action.print_of_some (s := s.renamed f.number) hwrite]
    exact .error (.fault (.outputFailed error)) { s with output := output }

theorem flush : Renames (W := W) f id Action.flush Action.flush := by
  intro s hs
  rcases hflush : s.output.flush with ⟨output, _ | error⟩
  · rw [Action.flush_of_none hflush, Action.flush_of_none (s := s.renamed f.number) hflush]
    exact .ok () { s with output := output } hs
  · rw [Action.flush_of_some hflush, Action.flush_of_some (s := s.renamed f.number) hflush]
    cases error with
    | failed error => exact .error (.fault (.outputFailed error)) { s with output := output }
    | crashed message => exact .error (.crashed message) { s with output := output }

/-- An access to the files that fails with a fatal condition which speaks of no list. -/
theorem access (reply : Reply W α) {failure : Bytes → Cause}
    (h : ∀ message, (failure message).renamed f.number = failure message) :
    Renames f id (Action.access reply failure) (Action.access reply failure) := by
  refine bind (modify (fun s => s.receive_renamed f.number reply) fun s => ?_) fun _ => ?_
  · obtain ⟨interrupt, journal, heffect⟩ :=
      ({ s with world := reply.world } : Session W).exists_undergo reply.effect
    rw [Session.receive, heffect]
  · cases reply.access with
    | ok a => exact pure a
    | failed error =>
      have hfail : Renames (W := W) f (id : α → α) (Action.fail (failure error.message)) _ :=
        fail (failure error.message)
      rw [h] at hfail
      exact hfail
    | crashed message => exact throw (.crashed message)

theorem loadText [FileSystem W] (path : Bytes) :
    Renames (W := W) f id (Action.loadText path) (Action.loadText path) :=
  ofGet fun s => access (FileSystem.read s.world path) fun _ => rfl

theorem saveText [FileSystem W] (path text : Bytes) :
    Renames (W := W) f id (Action.saveText path text) (Action.saveText path text) :=
  ofGet fun s => access (FileSystem.write s.world path text) fun _ => rfl

theorem readSource (src : Bytes) :
    Renames (W := W) f (Except.map (List.map (Value.renamed f.number))) (Action.readSource src)
      (Action.readSource src) := by
  intro s hs
  obtain ⟨hparse, hnext⟩ := s.parse_renamed f hs src
  change Action.RenamedResult f _ (.ok (s.parse src).2 (s.parse src).1)
    (.ok ((s.renamed f.number).parse src).2 ((s.renamed f.number).parse src).1)
  rw [hparse]
  exact .ok _ _ hnext

theorem countFor (n : Double) :
    Renames (W := W) f id (Action.countFor n) (Action.countFor n) := by
  refine ofGet fun s => ?_
  simp only [show (s.renamed f.number).stack.size = s.stack.size from s.stack.size_renamed _]
  cases n.ceilCount? s.stack.size with
  | none => exact fail (.tooFewValues n)
  | some count => exact pure count

/-! ## Instructions -/

theorem bindOperand : Renames (W := W) f id Action.bindOperand Action.bindOperand := by
  refine bind popText fun name => ?_
  refine bind pop fun v => ?_
  exact bind (bindName name v) fun _ => note _ (by rw [Value.format_renamed]; rfl)

theorem adjust (by_ : Double) :
    Renames (W := W) f id (Action.adjust by_) (Action.adjust by_) := by
  refine bind popText fun name => ?_
  refine bind (valueOf name) fun v => ?_
  cases v with
  | number x => exact bind (bindName name (.number (x.add by_))) fun _ => note _ rfl
  | absent => exact fail (.mismatch .number .absent)
  | text s => exact fail (.mismatch .number (.text s))
  | list id items => exact fail (.mismatch .number (.list id items))

theorem arithmetic (op : Double → Double → Double) :
    Renames (W := W) f id (Action.arithmetic op) (Action.arithmetic op) := by
  refine bind popNumber fun b => ?_
  exact bind popNumber fun a => push (.number (op a b))

theorem compareNumbers (op : Double → Double → Bool) :
    Renames (W := W) f id (Action.compareNumbers op) (Action.compareNumbers op) := by
  refine bind popNumber fun b => ?_
  exact bind popNumber fun a => pushBool (op a b)

/-- A comparison that does not tell other numbers from these. -/
theorem compareValues {op : Value → Value → Bool}
    (h : ∀ a b : Value, op (a.renamed f.number) (b.renamed f.number) = op a b) :
    Renames (W := W) f id (Action.compareValues op) (Action.compareValues op) := by
  refine bind pop fun b => ?_
  refine bind pop fun a => ?_
  rw [h]
  exact pushBool _

theorem selectOperand : Renames (W := W) f id Action.selectOperand Action.selectOperand := by
  refine bind popNumber fun x => ?_
  refine bind pop fun yes => ?_
  refine bind pop fun no => ?_
  rw [id_eq]
  cases x.isZero with
  | true => exact push no
  | false => exact push yes

theorem assertOperand : Renames (W := W) f id Action.assertOperand Action.assertOperand := by
  refine bind popNumber fun x => ?_
  rw [id_eq]
  cases x.isZero with
  | true =>
    have hfail : Renames (W := W) f (id : Unit → Unit) _ _ := fail .assertion
    exact bind hfail fun _ => note _ rfl
  | false => exact note _ rfl

section Control

variable {run : Action.Runner W}
variable (hrun : ∀ prog, Renames f id (run prog) (run (prog.map (Value.renamed f.number))))
include hrun

theorem evaluate : Renames f id (Action.evaluate run) (Action.evaluate run) := by
  refine bind pop fun v => ?_
  refine bind (note _ (by rw [Value.format_renamed])) fun _ => ?_
  cases v with
  | absent => exact pure ()
  | number x => exact push (.number x)
  | text name => exact bind (valueOf name) push
  | list id items =>
    rw [Value.renamed_list]
    exact hrun items

theorem runIf : Renames f id (Action.runIf run) (Action.runIf run) := by
  refine bind popNumber fun x => ?_
  refine bind popList fun body => ?_
  rw [id_eq, Value.items_renamed]
  cases x.isZero with
  | true => exact pure ()
  | false => exact hrun body.items

theorem runIfElse : Renames f id (Action.runIfElse run) (Action.runIfElse run) := by
  refine bind popNumber fun x => ?_
  refine bind popList fun yes => ?_
  refine bind popList fun no => ?_
  rw [id_eq, Value.items_renamed, Value.items_renamed]
  cases x.isZero with
  | true => exact hrun no.items
  | false => exact hrun yes.items

theorem runOver (body items : List Value) :
    Renames f id (Action.runOver run body items)
      (Action.runOver run (body.map (Value.renamed f.number))
        (items.map (Value.renamed f.number))) := by
  induction items with
  | nil => exact pure ()
  | cons item rest ih =>
    refine bind (push item) fun _ => ?_
    exact bind (hrun body) fun _ => ih

theorem runEach : Renames f id (Action.runEach run) (Action.runEach run) := by
  refine bind popList fun body => ?_
  refine bind popList fun list => ?_
  rw [Value.items_renamed, Value.items_renamed]
  exact runOver hrun _ _

theorem runReduce : Renames f id (Action.runReduce run) (Action.runReduce run) := by
  refine bind popList fun body => ?_
  refine bind popList fun list => ?_
  refine bind (note _ (by rw [Value.format_renamed, Value.format_renamed])) fun _ => ?_
  rw [Value.items_renamed, Value.items_renamed]
  exact runOver hrun _ _

theorem collect (body items : List Value) : ∀ results : List Value,
    Renames f (List.map (Value.renamed f.number)) (Action.collect run body results items)
      (Action.collect run (body.map (Value.renamed f.number))
        (results.map (Value.renamed f.number)) (items.map (Value.renamed f.number))) := by
  induction items with
  | nil =>
    intro results
    simp only [Action.collect, List.map_nil, ← List.map_reverse]
    exact pure results.reverse
  | cons item rest ih =>
    intro results
    refine bind (push item) fun _ => ?_
    refine bind (hrun body) fun _ => ?_
    exact bind pop fun result => ih (result :: results)

theorem runMap : Renames f id (Action.runMap run) (Action.runMap run) := by
  refine bind popList fun body => ?_
  refine bind popList fun list => ?_
  rw [Value.items_renamed, Value.items_renamed]
  refine bind (note _ (by rw [Value.formatItems_renamed, Value.format_renamed])) fun _ => ?_
  exact bind (collect hrun _ _ []) pushList

theorem repeatBody (body : List Value) (rounds : Nat) :
    Renames f id (Action.repeatBody run body rounds)
      (Action.repeatBody run (body.map (Value.renamed f.number)) rounds) := by
  induction rounds with
  | zero => exact throw .exhausted
  | succ rounds ih =>
    refine bind checkpoint fun _ => ?_
    refine bind (hrun body) fun _ => ?_
    refine bind popNumber fun x => ?_
    rw [id_eq]
    cases x.isZero with
    | true => exact pure ()
    | false => exact ih

theorem runLoop (rounds : Nat) :
    Renames f id (Action.runLoop run rounds) (Action.runLoop run rounds) := by
  refine bind popList fun body => ?_
  rw [Value.items_renamed]
  exact repeatBody hrun _ rounds

end Control

theorem pushFirst : Renames (W := W) f id Action.pushFirst Action.pushFirst := by
  refine bind popList fun list => ?_
  rw [Value.items_renamed]
  cases list.items with
  | nil => exact fail .noFirst
  | cons v rest => exact push v

theorem pushRest : Renames (W := W) f id Action.pushRest Action.pushRest := by
  refine bind popList fun list => ?_
  rw [Value.items_renamed, ← List.map_tail]
  exact pushList _

theorem pushHead : Renames (W := W) f id Action.pushHead Action.pushHead := by
  refine bind popNumber fun n => ?_
  refine bind popList fun list => ?_
  rw [Value.items_renamed, List.length_map, ← List.map_take]
  exact pushList _

theorem pushTail : Renames (W := W) f id Action.pushTail Action.pushTail := by
  refine bind popNumber fun n => ?_
  refine bind popList fun list => ?_
  rw [Value.items_renamed, List.length_map, ← List.map_drop]
  exact pushList _

theorem pushItem : Renames (W := W) f id Action.pushItem Action.pushItem := by
  refine bind popNumber fun n => ?_
  refine bind popList fun list => ?_
  rw [Value.items_renamed]
  exact bind (orFail (Action.itemAt_renamed _ _ _)) push

theorem popMany (count : Nat) : ∀ taken : List Value,
    Renames (W := W) f (List.map (Value.renamed f.number)) (Action.popMany taken count)
      (Action.popMany (taken.map (Value.renamed f.number)) count) := by
  induction count with
  | zero => exact fun taken => pure taken
  | succ count ih => exact fun taken => bind pop fun v => ih (v :: taken)

theorem gatherValues : Renames (W := W) f id Action.gatherValues Action.gatherValues := by
  rw [Action.gatherValues_eq]
  refine bind popNumber fun n => ?_
  refine bind (countFor n) fun count => ?_
  exact bind (popMany count []) pushList

theorem pushLookup : Renames (W := W) f id Action.pushLookup Action.pushLookup := by
  refine bind pop fun key => ?_
  refine bind popList fun list => ?_
  rw [Value.items_renamed]
  cases key with
  | absent => exact fail (.badKey .absent)
  | number x => exact bind (orFail (Action.itemAt_renamed _ _ x)) push
  | text name =>
    simp only [Value.renamed, Action.valueForKey?_renamed]
    cases Action.valueForKey? name list.items with
    | none => exact fail (.noKey name)
    | some v => exact push v
  | list id items => exact fail (.badKey (.list id items))

theorem pushAll (values : List Value) :
    Renames (W := W) f id (Action.pushAll values)
      (Action.pushAll (values.map (Value.renamed f.number))) := by
  induction values with
  | nil => exact pure ()
  | cons v rest ih => exact bind (push v) fun _ => ih

theorem spreadOperand : Renames (W := W) f id Action.spreadOperand Action.spreadOperand := by
  refine bind popList fun list => ?_
  rw [Value.items_renamed]
  exact pushAll _

theorem importOperand [FileSystem W] :
    Renames (W := W) f id Action.importOperand Action.importOperand := by
  refine bind popText fun path => ?_
  refine bind (loadText path) fun src => ?_
  refine bind (readSource src) fun result => ?_
  cases result with
  | error error => exact fail (.unreadableFile path error)
  | ok items => exact bind (note _ rfl) fun _ => pushList items

theorem exportOperand [FileSystem W] :
    Renames (W := W) f id Action.exportOperand Action.exportOperand := by
  refine bind popText fun path => ?_
  refine bind popList fun list => ?_
  rw [Value.render_renamed]
  rcases list.render with ⟨text, _ | ⟨bad, reason⟩⟩
  · exact bind (saveText path text) fun _ => note _ rfl
  · exact fail (.unwritable bad reason)

theorem printOperand : Renames (W := W) f id Action.printOperand Action.printOperand := by
  refine bind pop fun v => ?_
  rw [Value.display_renamed]
  exact print _

theorem printTop : Renames (W := W) f id Action.printTop Action.printTop := by
  refine bind top fun v => ?_
  rw [Value.display_renamed]
  exact print _

theorem lineOperand : Renames (W := W) f id Action.lineOperand Action.lineOperand := by
  refine bind popNumber fun x => ?_
  refine bind (y := Action.setLine x.toInt64) (modify (fun _ => rfl) fun _ => rfl) fun _ => ?_
  exact note _ rfl

theorem exchange : Renames (W := W) f id Action.exchange Action.exchange := by
  refine bind pop fun b => ?_
  refine bind pop fun a => ?_
  exact bind (push b) fun _ => push a

/-- A conversion to a value without lists. -/
theorem convert {op : Double → Value} (h : ∀ x, (op x).renamed f.number = op x) :
    Renames (W := W) f id (Action.convert op) (Action.convert op) := by
  refine bind popNumber fun x => ?_
  have hpush := push (W := W) (f := f) (op x)
  rw [h] at hpush
  exact hpush

/-! ## Whole runs -/

theorem perform [FileSystem W] {run : Action.Runner W}
    (hrun : ∀ prog, Renames f id (run prog) (run (prog.map (Value.renamed f.number))))
    (rounds : Nat) (i : Instruction) :
    Renames f id (i.perform run rounds) (i.perform run rounds) := by
  cases i with
  | eval => exact evaluate hrun
  | evalTwice => exact bind (evaluate hrun) fun _ => evaluate hrun
  | assign => exact bindOperand
  | add => exact arithmetic _
  | sub => exact arithmetic _
  | mul => exact arithmetic _
  | div => exact arithmetic _
  | floorDiv => exact arithmetic _
  | mod => exact arithmetic _
  | increment => exact adjust _
  | decrement => exact adjust _
  | greater => exact compareNumbers _
  | less => exact compareNumbers _
  | greaterEq => exact compareNumbers _
  | lessEq => exact compareNumbers _
  | equal => exact compareValues (Value.equal_renamed f.number)
  | different => exact compareValues fun a b => congrArg not (Value.identical_renamed f a b)
  | and => exact compareNumbers _
  | or => exact compareNumbers _
  | not => exact bind popNumber fun x => pushBool _
  | select => exact selectOperand
  | assert => exact assertOperand
  | lookup => exact pushLookup
  | setLine => exact lineOperand
  | dot => exact bind top push
  | dup => exact bind top push
  | drop => exact bind pop fun _ => pure ()
  | swap => exact exchange
  | cond => exact runIf hrun
  | condElse => exact runIfElse hrun
  | each => exact runEach hrun
  | loop => exact runLoop hrun rounds
  | first => exact pushFirst
  | rest => exact pushRest
  | head => exact pushHead
  | tail => exact pushTail
  | get => exact pushItem
  | gather => exact gatherValues
  | reduce => exact runReduce hrun
  | map => exact runMap hrun
  | spread => exact spreadOperand
  | importList => exact importOperand
  | exportList => exact exportOperand
  | readFile => exact bind popText fun path => bind (loadText path) fun text => push (.text text)
  | writeFile => exact bind popText fun path => bind popText fun text => saveText path text
  | print => exact printOperand
  | peek => exact printTop
  | exit => exact throw .exit
  | die => exact fail .died
  | str => exact convert fun _ => rfl
  | int => exact convert fun _ => rfl

theorem step [FileSystem W] {run : Action.Runner W}
    (hrun : ∀ prog, Renames f id (run prog) (run (prog.map (Value.renamed f.number))))
    (rounds : Nat) (v : Value) :
    Renames f id (step run rounds v) (step run rounds (v.renamed f.number)) := by
  cases v with
  | absent => exact push .absent
  | number x => exact push (.number x)
  | list id items => exact push (.list id items)
  | text s =>
    simp only [Value.renamed, StackScript.step]
    split
    · exact push (.text s)
    · split
      · exact push (.number (Double.ofLeading s))
      · cases Instruction.ofName? s with
        | none => exact fail (.unknownOperation s)
        | some i => exact bind (note _ rfl) fun _ => perform hrun rounds i

theorem walk {act : Value → Action W Unit}
    (hact : ∀ v, Renames f id (act v) (act (v.renamed f.number))) (prog : List Value) :
    Renames f id (walk act prog) (walk act (prog.map (Value.renamed f.number))) := by
  induction prog with
  | nil => exact pure ()
  | cons v rest ih =>
    refine bind checkpoint fun _ => ?_
    exact bind (hact v) fun _ => ih

/-- A list runs alike with other numbers for the lists in it and around it. -/
theorem exec [FileSystem W] (rounds levels : Nat) : ∀ prog : List Value,
    Renames (W := W) f id (exec rounds levels prog)
      (exec rounds levels (prog.map (Value.renamed f.number))) := by
  induction levels with
  | zero => exact fun _ => ofGet fun s => fail (.tooDeep s.depth)
  | succ levels ih =>
    intro prog
    refine bind (y := Action.descend) (modify (fun _ => rfl) fun _ => rfl) fun _ => ?_
    refine bind (walk (step ih rounds) prog) fun _ => ?_
    exact modify (fun _ => rfl) fun _ => rfl

end Renames

namespace Session

variable {W : Type} [FileSystem W] {first : Nat} (f : Renaming first)

theorem run_renamed {s : Session W} (h : first ≤ s.nextList) (rounds : Nat) (prog : List Value) :
    (s.renamed f.number).run rounds (prog.map (Value.renamed f.number)) =
      ((s.run rounds prog).1.renamed f.number, (s.run rounds prog).2.renamed f.number) := by
  have hrun : Renames (W := W) f id (runAction rounds prog)
      (runAction rounds (prog.map (Value.renamed f.number))) := by
    refine .bind (.modify (fun _ => rfl) fun _ => rfl) fun _ => ?_
    refine .ofGet fun s => ?_
    exact .bind (.exec rounds s.limit prog) fun _ => .flush
  have hresult := hrun s h
  unfold run
  generalize runAction rounds prog s = r,
    runAction rounds (prog.map (Value.renamed f.number)) (s.renamed f.number) = r' at hresult
  cases hresult with
  | ok _ t _ => rfl
  | error halt t => exact t.settle_renamed f.number halt

/-- A source is evaluated alike with other numbers for the lists that the session holds and
makes. -/
theorem eval_renamed {s : Session W} (h : first ≤ s.nextList) (rounds : Nat) (src : Bytes) :
    (s.renamed f.number).eval rounds src =
      ((s.eval rounds src).1.renamed f.number, (s.eval rounds src).2.renamed f.number) := by
  obtain ⟨hparse, hnext⟩ := parse_renamed f (s := { s.atRest with line := 1 }) h src
  unfold eval
  rw [show ({ (s.renamed f.number).atRest with line := 1 } : Session W) =
    ({ s.atRest with line := 1 } : Session W).renamed f.number from rfl, hparse]
  generalize ({ s.atRest with line := 1 } : Session W).parse src = r at hnext
  obtain ⟨t, result⟩ := r
  cases result with
  | ok prog => exact run_renamed f hnext rounds prog
  | error error => exact t.settleFault_renamed f.number (.unreadable error.problem) error.line

end Session

end StackScript
