import StackScript.Session.Run
set_option autoImplicit false

/-!
# Other numbers for lists

A session numbers the lists that it makes.  Here the numbers are exchanged by a function, in
values, in faults and in whole sessions.  It has to keep different lists apart and to go up by
one from the next number on, as the session does, so that it fits the lists that are still to be
made.  The numbers show where two lists are compared by identity, and there only whether they
are the same: texts, source forms, dumps and reports are what they were, and so is what the stack,
the symbol table and a reader give, up to the numbers.
-/

namespace StackScript

/-! ## Values -/

/-- Other numbers for lists, which go up one by one from the number for `first` on. -/
structure Renaming (first : Nat) where
  number : Nat → Nat
  injective : ∀ {m n : Nat}, number m = number n → m = n
  succ : ∀ {n : Nat}, first ≤ n → number (n + 1) = number n + 1

/-- The identity with another number. -/
def ListId.renamed (f : Nat → Nat) : ListId → ListId
  | .bare => .bare
  | .made n => .made (f n)

namespace Value

mutual

/-- Whether two values are one and the same, down to the identities of their lists. -/
def same : Value → Value → Bool
  | .absent, .absent => true
  | .number x, .number y => x == y
  | .text s, .text t => s == t
  | .list id xs, .list id' ys => id == id' && sameItems xs ys
  | _, _ => false

/-- Whether two sequences of values are one and the same. -/
def sameItems : List Value → List Value → Bool
  | [], [] => true
  | x :: xs, y :: ys => same x y && sameItems xs ys
  | _, _ => false

end

mutual

theorem same_iff (a b : Value) : same a b = true ↔ a = b := by
  cases a with
  | list id xs =>
    cases b with
    | list id' ys => simp [same, sameItems_iff xs ys]
    | _ => simp [same]
  | _ => cases b <;> simp [same]

theorem sameItems_iff (xs ys : List Value) : sameItems xs ys = true ↔ xs = ys := by
  cases xs with
  | nil => cases ys <;> simp [sameItems]
  | cons x xs =>
    cases ys with
    | nil => simp [sameItems]
    | cons y ys => simp [sameItems, same_iff x y, sameItems_iff xs ys]

end

instance : DecidableEq Value := fun a b => decidable_of_iff _ (same_iff a b)

mutual

/-- The value with other numbers for its lists. -/
def renamed (f : Nat → Nat) : Value → Value
  | .absent => .absent
  | .number x => .number x
  | .text s => .text s
  | .list id items => .list (id.renamed f) (renamedItems f items)

/-- Several values with other numbers for their lists. -/
def renamedItems (f : Nat → Nat) : List Value → List Value
  | [] => []
  | v :: rest => v.renamed f :: renamedItems f rest

end

variable (f : Nat → Nat)

theorem renamedItems_eq (items : List Value) : renamedItems f items = items.map (renamed f) := by
  induction items with
  | nil => rfl
  | cons v rest ih => rw [renamedItems, ih, List.map_cons]

theorem renamed_list (id : ListId) (items : List Value) :
    (list id items).renamed f = .list (id.renamed f) (items.map (renamed f)) := by
  rw [renamed, renamedItems_eq]

theorem kind_renamed (v : Value) : (v.renamed f).kind = v.kind := by
  cases v <;> rfl

theorem items_renamed (v : Value) : (v.renamed f).items = v.items.map (renamed f) := by
  cases v with
  | list id items => exact renamedItems_eq f items
  | _ => rfl

mutual

theorem formatOnto_renamed (v : Value) (rest : Bytes) :
    formatOnto (v.renamed f) rest = formatOnto v rest := by
  cases v with
  | list id items =>
    simp only [renamed, formatOnto]
    rw [formatItemsOnto_renamed items]
  | _ => rfl

theorem formatItemsOnto_renamed (items : List Value) (rest : Bytes) :
    formatItemsOnto (renamedItems f items) rest = formatItemsOnto items rest := by
  cases items with
  | nil => rfl
  | cons v items =>
    simp only [renamedItems, formatItemsOnto]
    rw [formatRestOnto_renamed items, formatOnto_renamed v]

theorem formatRestOnto_renamed (items : List Value) (rest : Bytes) :
    formatRestOnto (renamedItems f items) rest = formatRestOnto items rest := by
  cases items with
  | nil => rfl
  | cons v items =>
    simp only [renamedItems, formatRestOnto]
    rw [formatRestOnto_renamed items, formatOnto_renamed v]

end

/-- People do not see the numbers. -/
theorem format_renamed (v : Value) : (v.renamed f).format = v.format := formatOnto_renamed f v []

theorem formatItems_renamed (items : List Value) :
    formatItems (items.map (renamed f)) = formatItems items := by
  rw [← renamedItems_eq]
  exact formatItemsOnto_renamed f items []

theorem display_renamed (v : Value) : (v.renamed f).display = v.display := by
  cases v with
  | list id items => exact format_renamed f (.list id items)
  | _ => rfl

end Value

/-- What came of writing a value with other numbers for its lists. -/
def Value.Rendering.renamed (f : Nat → Nat) (r : Value.Rendering) : Value.Rendering :=
  ⟨r.text, r.stopped.map fun p => (p.1.renamed f, p.2)⟩

namespace Value

variable (f : Nat → Nat)

mutual

theorem renderOnto_renamed (v : Value) (rest : Rendering) :
    renderOnto (v.renamed f) (rest.renamed f) = (renderOnto v rest).renamed f := by
  cases v with
  | absent => rfl
  | number x =>
    simp only [renamed, renderOnto]
    split
    · rfl
    · rfl
  | text s =>
    simp only [renamed, renderOnto]
    split
    · rfl
    · rfl
  | list id items =>
    simp only [renamed, renderOnto]
    exact congrArg (Rendering.after [40]) (renderItemsOnto_renamed items (rest.after [41]))

theorem renderItemsOnto_renamed (items : List Value) (rest : Rendering) :
    renderItemsOnto (renamedItems f items) (rest.renamed f) =
      (renderItemsOnto items rest).renamed f := by
  cases items with
  | nil => rfl
  | cons v items =>
    simp only [renamedItems, renderItemsOnto]
    rw [renderRestOnto_renamed items, renderOnto_renamed v]

theorem renderRestOnto_renamed (items : List Value) (rest : Rendering) :
    renderRestOnto (renamedItems f items) (rest.renamed f) =
      (renderRestOnto items rest).renamed f := by
  cases items with
  | nil => rfl
  | cons v items =>
    simp only [renamedItems, renderRestOnto]
    rw [renderRestOnto_renamed items, renderOnto_renamed v]
    rfl

end

/-- Source forms do not show the numbers either. -/
theorem render_renamed (v : Value) : (v.renamed f).render = v.render.renamed f :=
  renderOnto_renamed f v .empty

mutual

theorem equal_renamed (a b : Value) : (a.renamed f).equal (b.renamed f) = a.equal b := by
  cases a with
  | list id items =>
    cases b with
    | list id' items' =>
      simp only [renamed, equal]
      exact equalItems_renamed items items'
    | _ => rfl
  | _ => cases b <;> rfl

theorem equalItems_renamed (as bs : List Value) :
    equalItems (renamedItems f as) (renamedItems f bs) = equalItems as bs := by
  cases as with
  | nil => cases bs <;> rfl
  | cons a as =>
    cases bs with
    | nil => rfl
    | cons b bs =>
      simp only [renamedItems, equalItems]
      rw [equal_renamed a b, equalItems_renamed as bs]

end

/-- Different lists stay different. -/
theorem identical_renamed {first : Nat} (f : Renaming first) (a b : Value) :
    (a.renamed f.number).identical (b.renamed f.number) = a.identical b := by
  cases a with
  | list id items =>
    cases b with
    | list id' items' =>
      simp only [renamed, identical]
      cases id with
      | bare => cases id' <;> rfl
      | made m =>
        cases id' with
        | bare => rfl
        | made n =>
          rw [Bool.eq_iff_iff, beq_iff_eq, beq_iff_eq]
          simp only [ListId.renamed, ListId.made.injEq]
          exact ⟨f.injective, congrArg f.number⟩
    | _ => rfl
  | _ => exact equal_renamed f.number _ b

end Value

/-! ## Faults -/

/-- The fatal condition with other numbers for the lists at fault. -/
def Cause.renamed (f : Nat → Nat) : Cause → Cause
  | .mismatch want got => .mismatch want (got.renamed f)
  | .badKey key => .badKey (key.renamed f)
  | .unwritable value reason => .unwritable (value.renamed f) reason
  | cause => cause

/-- What is told with other numbers for the lists in it. -/
def Report.renamed (f : Nat → Nat) (r : Report) : Report := { r with value := r.value.renamed f }

/-- The halt with other numbers for the lists at fault. -/
def Halt.renamed (f : Nat → Nat) : Halt → Halt
  | .fault cause => .fault (cause.renamed f)
  | halt => halt

/-- The outcome with other numbers for the lists in the report. -/
def Outcome.renamed (f : Nat → Nat) : Outcome → Outcome
  | .fault report => .fault (report.renamed f)
  | outcome => outcome

/-- What was found, or what is wrong, with other numbers for lists. -/
def Cause.renamedIn {α β : Type} (f : Nat → Nat) (ρ : α → β) : Except Cause α → Except Cause β
  | .ok a => .ok (ρ a)
  | .error cause => .error (cause.renamed f)

section Faults

variable (f : Nat → Nat)

theorem Cause.report_renamed (cause : Cause) (line : Int) :
    (cause.renamed f).report line = (cause.report line).renamed f := by
  cases cause with
  | mismatch want got =>
    simp only [renamed, report, message, Value.kind_renamed]
    rfl
  | badKey key =>
    simp only [renamed, report, message, Value.kind_renamed]
    rfl
  | _ => rfl

/-- The words are the same. -/
theorem Report.text_renamed (r : Report) : (r.renamed f).text = r.text := by
  obtain ⟨kind, line, value, message, cause⟩ := r
  cases value with
  | list id items =>
    unfold text
    simp only [renamed, Value.renamed_list]
    rw [← Value.renamed_list, Value.format_renamed]
  | _ => rfl

end Faults

/-! ## Sessions -/

/-- The stack with other numbers for lists. -/
def Stack.renamed (f : Nat → Nat) (st : Stack) : Stack := ⟨st.values.map (Value.renamed f)⟩

/-- The entries with other numbers for the lists that names are bound to. -/
def Entries.renamed (f : Nat → Nat) (entries : Entries Value) : Entries Value :=
  entries.map fun e => (e.1, e.2.renamed f)

theorem Entries.Sorted.renamed (f : Nat → Nat) {entries : Entries Value} (h : entries.Sorted) :
    (entries.renamed f).Sorted :=
  List.pairwise_map.2 h

/-- The names with other numbers for the lists they are bound to. -/
def Symbols.renamed (f : Nat → Nat) (sym : Symbols) : Symbols :=
  ⟨Entries.renamed f sym.entries, sym.sorted.renamed f⟩

/-- The session with other numbers for its lists and for those still to be made. -/
def Session.renamed {W : Type} (f : Nat → Nat) (s : Session W) : Session W :=
  { s with
    stack := s.stack.renamed f
    symbols := s.symbols.renamed f
    nextList := f s.nextList }

namespace Stack

variable (f : Nat → Nat) (st : Stack)

theorem size_renamed : (st.renamed f).size = st.size := List.length_map _

theorem top_renamed : (st.renamed f).top = Cause.renamedIn f (Value.renamed f) st.top := by
  obtain ⟨values⟩ := st
  cases values with
  | nil => rfl
  | cons v rest => rfl

/-- Taking something off a stack does not depend on the numbers of lists. -/
def TakesRenamed {α : Type} (f : Nat → Nat) (ρ : α → α)
    (from_ : Stack → Except Cause (α × Stack)) : Prop :=
  ∀ st : Stack, from_ (st.renamed f) =
    Cause.renamedIn f (fun p => (ρ p.1, p.2.renamed f)) (from_ st)

theorem takesRenamed_pop : TakesRenamed f (Value.renamed f) Stack.pop := by
  rintro ⟨values⟩
  cases values with
  | nil => rfl
  | cons v rest => rfl

theorem takesRenamed_popNumber : TakesRenamed f id Stack.popNumber := by
  rintro ⟨values⟩
  cases values with
  | nil => rfl
  | cons v rest => cases v <;> rfl

theorem takesRenamed_popText : TakesRenamed f id Stack.popText := by
  rintro ⟨values⟩
  cases values with
  | nil => rfl
  | cons v rest => cases v <;> rfl

theorem takesRenamed_popList : TakesRenamed f (Value.renamed f) Stack.popList := by
  rintro ⟨values⟩
  cases values with
  | nil => rfl
  | cons v rest => cases v <;> rfl

end Stack

theorem Table.eq_of_entries {α : Type} {t u : Table α} (h : t.entries = u.entries) : t = u := by
  cases t
  cases u
  cases h
  rfl

namespace Symbols

variable (f : Nat → Nat) (sym : Symbols)

theorem get_renamed (name : Bytes) :
    (sym.renamed f).get name = Cause.renamedIn f (Value.renamed f) (sym.get name) := by
  have hfind : (sym.renamed f).find? name = (sym.find? name).map (Value.renamed f) := by
    unfold Table.find? renamed Entries.renamed
    rw [List.find?_map, Option.map_map, Option.map_map]
    rfl
  unfold get
  rw [hfind]
  cases sym.find? name with
  | none => rfl
  | some v => rfl

theorem bind_renamed (name : Bytes) (v : Value) :
    (sym.renamed f).bind name (v.renamed f) = renamed f (sym.bind name v) := by
  have hentries (entries : Entries Value) :
      (entries.renamed f).bind name (v.renamed f) = Entries.renamed f (entries.bind name v) := by
    induction entries with
    | nil => rfl
    | cons e rest ih =>
      simp only [Entries.renamed, List.map_cons, Entries.bind] at ih ⊢
      split
      · rfl
      · split
        · rfl
        · rw [ih]
          rfl
  exact Table.eq_of_entries (hentries sym.entries)

end Symbols

namespace Session

variable {W : Type} (f : Nat → Nat) (s : Session W)

theorem noteAt_renamed (level : Level) (message : Unit → Bytes) :
    (s.renamed f).noteAt level message = (s.noteAt level message).renamed f := by
  unfold noteAt
  change (if s.listening.hears level = true then _ else _) = _
  split
  · rfl
  · rfl

theorem receive_renamed {α : Type} (reply : Reply W α) :
    (s.renamed f).receive reply = (s.receive reply).renamed f := by
  unfold receive
  cases reply.effect with
  | none => rfl
  | cancels => rfl
  | echoes channel text => rfl

theorem dump_renamed : (s.renamed f).dump = s.dump := by
  have hvalues (values : List Value) (width : Nat) :
      ∀ index, dumpValues width index (values.map (Value.renamed f)) =
        dumpValues width index values := by
    induction values with
    | nil => exact fun _ => rfl
    | cons v rest ih =>
      intro index
      simp only [List.map_cons, dumpValues, Value.format_renamed, ih]
  have hentries (entries : Entries Value) :
      dumpEntries (entries.renamed f) = dumpEntries entries := by
    induction entries with
    | nil => rfl
    | cons e rest ih =>
      simp only [Entries.renamed, List.map_cons, dumpEntries, Value.format_renamed] at ih ⊢
      rw [ih]
  have hstack : (s.renamed f).stack.toList = s.stack.toList.map (Value.renamed f) :=
    List.map_reverse.symm
  have hsize : (s.renamed f).stack.size = s.stack.size := s.stack.size_renamed f
  have hnames : (s.renamed f).symbols.entries = s.symbols.entries.renamed f := rfl
  have hcount : (s.renamed f).symbols.size = s.symbols.size := List.length_map _
  unfold dump
  simp only [hstack, hsize, hnames, hcount, hvalues, hentries]
  rfl

theorem settleFault_renamed (cause : Cause) (line : Int) :
    (s.renamed f).settleFault (cause.renamed f) line =
      ((s.settleFault cause line).1.renamed f, (s.settleFault cause line).2.renamed f) := by
  have hdiagnose (t : Session W) (text : Bytes) :
      (t.renamed f).diagnose text = (t.diagnose text).renamed f := by
    obtain ⟨_, _, _, _, _, _, _, diagnostics, _, _, _, _⟩ := t
    cases diagnostics with
    | none => rfl
    | kept => rfl
    | brittle => rfl
  have hflush : (s.renamed f).flushAnyway = s.flushAnyway.renamed f := rfl
  unfold settleFault
  simp only [hflush, Cause.report_renamed, reportFault, Report.text_renamed, dump_renamed,
    hdiagnose]
  rfl

theorem settle_renamed (halt : Halt) :
    (s.renamed f).settle (halt.renamed f) =
      ((s.settle halt).1.renamed f, (s.settle halt).2.renamed f) := by
  cases halt with
  | fault cause => exact s.settleFault_renamed f cause s.line
  | exit =>
    have hnote := noteAt_renamed f s.flushAnyway .info fun _ => ascii "exit"
    exact congrArg (·, Outcome.exit) hnote
  | interrupted reason => rfl
  | crashed message => rfl
  | exhausted => rfl

end Session

/-! ## Sources -/

section Sources

variable {first : Nat} (f : Renaming first)

mutual

/-- The lists of a tree are numbered in the same way from any number on. -/
theorem Tree.load_renamed {next : Nat} (h : first ≤ next) (tree : Tree) :
    tree.load (f.number next) =
        ((tree.load next).1.renamed f.number, f.number (tree.load next).2) ∧
      first ≤ (tree.load next).2 := by
  cases tree with
  | number x => exact ⟨rfl, h⟩
  | text s => exact ⟨rfl, h⟩
  | list items =>
    obtain ⟨hitems, hnext⟩ := loadAll_renamed (Nat.le_succ_of_le h) items
    rw [f.succ h] at hitems
    simp only [load, hitems, Value.renamed_list]
    exact ⟨rfl, hnext⟩

theorem Tree.loadAll_renamed {next : Nat} (h : first ≤ next) (trees : List Tree) :
    loadAll (f.number next) trees =
        ((loadAll next trees).1.map (Value.renamed f.number), f.number (loadAll next trees).2) ∧
      first ≤ (loadAll next trees).2 := by
  cases trees with
  | nil => exact ⟨rfl, h⟩
  | cons tree rest =>
    obtain ⟨hfirst, hnext⟩ := load_renamed h tree
    obtain ⟨hrest, hlast⟩ := loadAll_renamed hnext rest
    simp only [loadAll, hfirst, hrest]
    exact ⟨rfl, hlast⟩

end

theorem Session.parse_renamed {W : Type} {s : Session W} (h : first ≤ s.nextList) (src : Bytes) :
    (s.renamed f.number).parse src =
        ((s.parse src).1.renamed f.number,
          (s.parse src).2.map (List.map (Value.renamed f.number))) ∧
      first ≤ (s.parse src).1.nextList := by
  have hnotes : (if s.listening.any then
        (s.renamed f.number).noteAll (Reader.start.notes src) else s.renamed f.number) =
      (if s.listening.any then s.noteAll (Reader.start.notes src) else s).renamed f.number := by
    split
    · rfl
    · rfl
  have hnext : (if s.listening.any then s.noteAll (Reader.start.notes src) else s).nextList =
      s.nextList := by
    split
    · rfl
    · rfl
  unfold parse
  rw [show (s.renamed f.number).listening = s.listening from rfl, hnotes]
  cases (Reader.start.parse src).2 with
  | error error => exact ⟨rfl, hnext ▸ h⟩
  | ok trees =>
    obtain ⟨hloaded, hlast⟩ := Tree.loadAll_renamed f (hnext ▸ h) trees
    refine ⟨?_, hlast⟩
    simp only [Session.renamed, hloaded]
    rfl

end Sources

/-! ## Items -/

namespace Action

variable (f : Nat → Nat)

theorem itemAt_renamed (items : List Value) (x : Double) :
    Action.itemAt (items.map (Value.renamed f)) x =
      Cause.renamedIn f (Value.renamed f) (Action.itemAt items x) := by
  unfold Action.itemAt
  cases x.toNat? with
  | none =>
    simp only [List.length_map]
    rfl
  | some i =>
    simp only [List.getElem?_map, List.length_map]
    cases items[i]? with
    | none => rfl
    | some v => rfl

theorem valueForKey?_renamed (key : Bytes) (items : List Value) :
    Action.valueForKey? key (items.map (Value.renamed f)) =
      (Action.valueForKey? key items).map (Value.renamed f) := by
  induction items with
  | nil => rfl
  | cons member rest ih =>
    -- only a list that begins with a text and another item can have the key
    cases member with
    | list id inner =>
      cases inner with
      | nil => exact ih
      | cons k others =>
        cases k with
        | text s =>
          cases others with
          | nil => exact ih
          | cons v more =>
            change (if s = key then some (v.renamed f) else _) =
              Option.map _ (if s = key then some v else _)
            split
            · rfl
            · exact ih
        | _ => exact ih
    | _ => exact ih

end Action

end StackScript
