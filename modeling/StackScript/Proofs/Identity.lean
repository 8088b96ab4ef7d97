import StackScript.Proofs.Equality
import StackScript.Proofs.Inventory
import StackScript.Proofs.Termination
set_option autoImplicit false

/-!
# Identities of lists

Every list has an identity, which is passed on with it.  In a sound session an identity tells
what the list holds: two lists with one identity, wherever they are, have the same items, and
every identity was handed out before.  Calls keep sessions sound, if the programs that they
are given fit in.

A list that is made, by an instruction or from a source, has an identity that no list had
before.  The other instructions pass on the very values that they find.  So what is identical
in a sound session is also equal, unless it holds something that is not a number.
-/

namespace StackScript

/-! ## The lists in a value -/

mutual

/-- The lists in a value with their identities, an outer one before those inside it. -/
def Value.lists : Value → List (ListId × List Value)
  | .list id items => (id, items) :: Value.listsIn items
  | _ => []

/-- The lists in some values. -/
def Value.listsIn : List Value → List (ListId × List Value)
  | [] => []
  | v :: rest => v.lists ++ Value.listsIn rest

end

namespace Value

theorem mem_listsIn {a : ListId × List Value} {values : List Value} :
    a ∈ listsIn values ↔ ∃ v ∈ values, a ∈ v.lists := by
  induction values with
  | nil => simp [listsIn]
  | cons v rest ih => simp [listsIn, ih]

/-- A list that is identical to none of some lists. -/
def IsNew (v : Value) (lists : List (ListId × List Value)) : Prop :=
  ∀ a ∈ lists, v.identical (.list a.1 a.2) = false

end Value

namespace Session

variable {W : Type}

/-- The lists in a session: on its stack, in its names, and inside others. -/
def lists (s : Session W) : List (ListId × List Value) :=
  Value.listsIn s.stack.values ++ Value.listsIn (s.symbols.entries.map fun e => e.2)

/-- Equal identities mean equal items, and every identity was handed out. -/
structure Sound (s : Session W) : Prop where
  same : ∀ a ∈ s.lists, ∀ b ∈ s.lists, a.1 = b.1 → a.2 = b.2
  known : ∀ n items, (.made n, items) ∈ s.lists → n < s.nextList

/-- Values from outside the session fit in: where they have lists with identities in common,
among them or with the session, these have equal items, and every identity was handed out. -/
structure Admits (s : Session W) (values : List Value) : Prop where
  same : ∀ a ∈ Value.listsIn values, ∀ b ∈ Value.listsIn values ++ s.lists, a.1 = b.1 → a.2 = b.2
  known : ∀ n items, (.made n, items) ∈ Value.listsIn values → n < s.nextList

end Session

/-! ## Catalogs -/

/-- What the lists hold that were made so far, by their identities. -/
abbrev Catalog : Type := ListId → Option (List Value)

/-- The catalog with one more list. -/
def Catalog.add (c : Catalog) (n : Nat) (items : List Value) : Catalog := fun id =>
  if id = .made n then some items else c id

theorem Catalog.add_of_ne (c : Catalog) {n : Nat} {id : ListId} (h : id ≠ .made n)
    (items : List Value) : c.add n items id = c id := if_neg h

theorem Catalog.add_of_some {c : Catalog} {n : Nat} {id : ListId} {others : List Value}
    (hfree : c (.made n) = none) (h : c id = some others) (items : List Value) :
    c.add n items id = some others := by
  refine (c.add_of_ne ?_ items).trans h
  rintro rfl
  rw [hfree] at h
  cases h

/-- Values whose lists are as a catalog tells. -/
def Inventory.catalog : Inventory Catalog where
  Le c d := ∀ id items, c id = some items → d id = some items
  Holds c v := ∀ a ∈ v.lists, c a.1 = some a.2
  Free c n := c (.made n) = none
  refl _ _ _ h := h
  trans hcd hde id items h := hde id items (hcd id items h)
  mono hcd hv a ha := hcd a.1 a.2 (hv a ha)
  number _ _ a ha := by cases ha
  text _ _ a ha := by cases ha
  items hlist v hv a ha := hlist a (List.mem_cons_of_mem _ (Value.mem_listsIn.2 ⟨v, hv, ha⟩))
  make {c n items} hfree hitems := by
    refine ⟨c.add n items, fun id others h => Catalog.add_of_some hfree h items, ?_, ?_⟩
    · intro a ha
      rcases List.mem_cons.1 ha with rfl | ha
      · exact if_pos rfl
      · obtain ⟨v, hv, ha⟩ := Value.mem_listsIn.1 ha
        exact Catalog.add_of_some hfree (hitems v hv a ha) items
    · intro m hm hfree'
      exact (c.add_of_ne (fun hid => hm (ListId.made.inj hid)) items).trans hfree'

open Inventory (catalog)

theorem Inventory.holdsAll_catalog {c : Catalog} {values : List Value} :
    catalog.HoldsAll c values ↔ ∀ a ∈ Value.listsIn values, c a.1 = some a.2 := by
  constructor
  · intro h a ha
    obtain ⟨v, hv, ha⟩ := Value.mem_listsIn.1 ha
    exact h v hv a ha
  · exact fun h v hv a ha => h a (Value.mem_listsIn.2 ⟨v, hv, ha⟩)

namespace Session

variable {W : Type} {s : Session W} {c : Catalog} {values : List Value}

theorem Stocked.listed (h : s.Stocked catalog c) : ∀ a ∈ s.lists, c a.1 = some a.2 := by
  intro a ha
  rcases List.mem_append.1 ha with ha | ha
  · exact Inventory.holdsAll_catalog.1 h.stack a ha
  · obtain ⟨v, hv, ha⟩ := Value.mem_listsIn.1 ha
    obtain ⟨e, he, rfl⟩ := List.mem_map.1 hv
    exact h.symbols e he a ha

theorem Stocked.sound (h : s.Stocked catalog c) : s.Sound := by
  refine ⟨?_, ?_⟩
  · intro a ha b hb hid
    have hboth := (h.listed a ha).symm.trans ((congrArg c hid).trans (h.listed b hb))
    exact Option.some.inj hboth
  · intro n items hlist
    refine Nat.lt_of_not_le fun hle => ?_
    have hfree : c (.made n) = none := h.free n hle
    have hlisted : c (.made n) = some items := h.listed _ hlist
    rw [hfree] at hlisted
    cases hlisted

/-- A sound session and values that fit in have a catalog. -/
theorem Sound.exists_catalog (hs : s.Sound) (hvalues : s.Admits values) :
    ∃ c, s.Stocked catalog c ∧ catalog.HoldsAll c values := by
  let c : Catalog := fun id =>
    ((Value.listsIn values ++ s.lists).find? fun a => a.1 == id).map fun a => a.2
  have hsame : ∀ a ∈ Value.listsIn values ++ s.lists, ∀ b ∈ Value.listsIn values ++ s.lists,
      a.1 = b.1 → a.2 = b.2 := by
    intro a ha b hb hid
    rcases List.mem_append.1 ha with hin | hin
    · exact hvalues.same a hin b hb hid
    · rcases List.mem_append.1 hb with hin' | hin'
      · exact (hvalues.same b hin' a ha hid.symm).symm
      · exact hs.same a hin b hin' hid
  have hlisted : ∀ a ∈ Value.listsIn values ++ s.lists, c a.1 = some a.2 := by
    intro a ha
    cases hfind : (Value.listsIn values ++ s.lists).find? fun b => b.1 == a.1 with
    | none => exact absurd (beq_self_eq_true a.1) (List.find?_eq_none.1 hfind a ha)
    | some b =>
      have htest := List.find?_some hfind
      have hid : b.1 = a.1 := eq_of_beq htest
      have hitems := hsame b (List.mem_of_find?_eq_some hfind) a ha hid
      simp only [c, hfind, Option.map_some, hitems]
  refine ⟨c, ⟨?_, ?_, ?_⟩, ?_⟩
  · exact Inventory.holdsAll_catalog.2 fun a ha =>
      hlisted a (List.mem_append_right _ (List.mem_append_left _ ha))
  · intro e he a ha
    refine hlisted a (List.mem_append_right _ (List.mem_append_right _ ?_))
    exact Value.mem_listsIn.2 ⟨e.2, List.mem_map_of_mem he, ha⟩
  · intro n hn
    have hnone : (Value.listsIn values ++ s.lists).find? (fun a => a.1 == .made n) = none := by
      refine List.find?_eq_none.2 ?_
      intro a ha hid
      obtain ⟨id, items⟩ := a
      have hid : id = .made n := eq_of_beq hid
      subst hid
      rcases List.mem_append.1 ha with hin | hin
      · exact absurd (hvalues.known n items hin) (Nat.not_lt.2 hn)
      · exact absurd (hs.known n items hin) (Nat.not_lt.2 hn)
    change Option.map _ (List.find? _ _) = none
    rw [hnone]
    rfl
  · exact Inventory.holdsAll_catalog.2 fun a ha => hlisted a (List.mem_append_left _ ha)

end Session

/-! ## Reachable sessions -/

section Reachable

variable {W : Type} [FileSystem W]

/-- The sessions that can be reached from one by calls, and inside them: by evaluating an
element, by putting a value on the stack that fits in, and by anything that leaves the stack
and the names alone and hands no identity out again. -/
inductive Session.Reachable (s : Session W) : Session W → Prop where
  | start : Reachable s s
  | called {t : Session W} {c : Call} (before : Reachable s t) (admitted : t.Admits c.program) :
      Reachable s (t.call c).1
  | evaluated {t u : Session W} {v : Value} {rounds levels : Nat} (before : Reachable s t)
      (admitted : t.Admits [v]) (ended : step (exec rounds levels) rounds v t = .ok () u) :
      Reachable s u
  | halted {t u : Session W} {v : Value} {rounds levels : Nat} {halt : Halt}
      (before : Reachable s t) (admitted : t.Admits [v])
      (ended : step (exec rounds levels) rounds v t = .error halt u) : Reachable s u
  | given {t : Session W} {v : Value} (before : Reachable s t) (admitted : t.Admits [v]) :
      Reachable s (t.pushValue v)
  | elsewhere {t u : Session W} (before : Reachable s t) (stack : u.stack = t.stack)
      (symbols : u.symbols = t.symbols) (nextList : t.nextList ≤ u.nextList) : Reachable s u

/-- A step over an element that fits in leads from one catalog to another. -/
theorem Session.Sound.exists_restocks_step {t : Session W} (ht : t.Sound) {v : Value}
    (hv : t.Admits [v]) (rounds levels : Nat) :
    ∃ c, t.Stocked catalog c ∧
      Action.Restocks catalog c (step (exec rounds levels) rounds v : Action W Unit) := by
  obtain ⟨c, hstocked, hlisted⟩ := ht.exists_catalog hv
  exact ⟨c, hstocked, restocks_step (catalog.runs_exec rounds levels) rounds
    (hlisted v (List.mem_singleton_self v))⟩

theorem Session.Reachable.sound {s t : Session W} (h : s.Reachable t) (hs : s.Sound) :
    t.Sound := by
  -- in a catalog of the session and of what comes into it every step has its catalog, a later one
  induction h with
  | start => exact hs
  | called before admitted ih =>
    obtain ⟨c, hstocked, hprogram⟩ := ih.exists_catalog admitted
    obtain ⟨d, _, hlast⟩ := Stocked.call hstocked hprogram
    exact hlast.sound
  | @evaluated _ _ _ rounds levels before admitted ended ih =>
    obtain ⟨c, hstocked, hstep⟩ := ih.exists_restocks_step admitted rounds levels
    obtain ⟨d, _, hlast, _⟩ := hstep.ok (catalog.refl c) hstocked ended
    exact hlast.sound
  | @halted _ _ _ rounds levels halt before admitted ended ih =>
    obtain ⟨c, hstocked, hstep⟩ := ih.exists_restocks_step admitted rounds levels
    obtain ⟨d, _, hlast⟩ := hstep.error (catalog.refl c) hstocked ended
    exact hlast.sound
  | @given t v before admitted ih =>
    obtain ⟨c, hstocked, hv⟩ := ih.exists_catalog admitted
    have hlast : (t.pushValue v).Stocked catalog c :=
      ⟨hstocked.stack.cons (hv v (List.mem_singleton_self v)), hstocked.symbols, hstocked.free⟩
    exact hlast.sound
  | @elsewhere t u before stack symbols nextList ih =>
    have hlists : u.lists = t.lists := by rw [lists, stack, symbols, lists]
    refine ⟨?_, ?_⟩
    · rw [hlists]
      exact ih.same
    · rw [hlists]
      exact fun n items hlist => Nat.lt_of_lt_of_le (ih.known n items hlist) nextList

/-! ## New lists -/

/-- A list with an identity that a catalog does not have yet is identical to none in it. -/
theorem Inventory.isNew_of_free {c : Catalog} {n : Nat} (hfree : catalog.Free c n)
    (items : List Value) {lists : List (ListId × List Value)}
    (h : ∀ a ∈ lists, c a.1 = some a.2) : (Value.list (.made n) items).IsNew lists := by
  intro a ha
  refine beq_false_of_ne ?_
  intro hid
  have hlisted := h a ha
  rw [← hid, show c (.made n) = none from hfree] at hlisted
  cases hlisted

/-- The list that an instruction puts on the stack is identical to none that was there before:
in the session, outside it, among its own items, or in what it was put on. -/
theorem Session.isNew_of_makesList {t u : Session W} (ht : t.Sound) {held : List Value}
    (hheld : t.Admits held) {v : Value} {i : Instruction} (hv : v.instruction? = some i)
    (hi : i.makesList = true) {rounds levels : Nat}
    (h : step (exec rounds levels) rounds v t = .ok () u) :
    ∃ new below, u.stack.values = new :: below ∧ new.kind = .list ∧
      new.IsNew (Value.listsIn held ++ t.lists) ∧
      new.IsNew (Value.listsIn new.items ++ Value.listsIn below ++
        Value.listsIn (u.symbols.entries.map fun e => e.2)) := by
  obtain ⟨c, hstocked, hholds⟩ := ht.exists_catalog hheld
  rw [step_of_instruction hv] at h
  have hnoted : (t.noteAt .trace fun _ => ascii "op " ++ i.name).Stocked catalog c := by
    rw [Stocked, Action.stock_noteAt]
    exact hstocked
  obtain ⟨_, _, _, d, n, items, below, hcd, hfree, hitems, hbelow, hsymbols, hvalues⟩ :=
    (stocks_of_makesList (catalog.runs_exec rounds levels) rounds hi).ok (catalog.refl c) hnoted h
  refine ⟨.list (.made n) items, below, hvalues, rfl, ?_, ?_⟩
  · refine Inventory.isNew_of_free hfree items ?_
    intro a ha
    refine hcd a.1 a.2 ?_
    rcases List.mem_append.1 ha with ha | ha
    · exact Inventory.holdsAll_catalog.1 hholds a ha
    · exact hstocked.listed a ha
  · refine Inventory.isNew_of_free hfree items ?_
    intro a ha
    rcases List.mem_append.1 ha with ha | ha
    · rcases List.mem_append.1 ha with ha | ha
      · exact Inventory.holdsAll_catalog.1 hitems a ha
      · exact Inventory.holdsAll_catalog.1 hbelow a ha
    · obtain ⟨w, hw, ha⟩ := Value.mem_listsIn.1 ha
      obtain ⟨e, he, rfl⟩ := List.mem_map.1 hw
      exact hsymbols e he a ha

end Reachable

/-! ## Lists from sources -/

theorem range'_append_of_le {a b c : Nat} (hab : a ≤ b) (hbc : b ≤ c) :
    List.range' a (b - a) ++ List.range' b (c - b) = List.range' a (c - a) := by
  obtain ⟨m, rfl⟩ := Nat.exists_eq_add_of_le hab
  obtain ⟨n, rfl⟩ := Nat.exists_eq_add_of_le hbc
  have hcount : a + m + n - a = m + n := by omega
  rw [Nat.add_sub_cancel_left, Nat.add_sub_cancel_left, List.range'_append_1, hcount]

mutual

/-- The lists of a tree get the next identities, in the order in which they begin. -/
theorem Tree.ids_load (next : Nat) (tree : Tree) :
    next ≤ (tree.load next).2 ∧ (tree.load next).1.lists.map (fun a => a.1) =
      (List.range' next ((tree.load next).2 - next)).map ListId.made := by
  cases tree with
  | number x => exact ⟨Nat.le_refl _, by simp [Tree.load, Value.lists]⟩
  | text s => exact ⟨Nat.le_refl _, by simp [Tree.load, Value.lists]⟩
  | list items =>
    obtain ⟨hle, hids⟩ := Tree.ids_loadAll (next + 1) items
    refine ⟨Nat.le_of_succ_le hle, ?_⟩
    have hcount : (Tree.loadAll (next + 1) items).2 - next =
        (Tree.loadAll (next + 1) items).2 - (next + 1) + 1 := by omega
    simp only [Tree.load, Value.lists, List.map_cons, hids, hcount, List.range'_succ]

theorem Tree.ids_loadAll (next : Nat) (trees : List Tree) :
    next ≤ (Tree.loadAll next trees).2 ∧
      (Value.listsIn (Tree.loadAll next trees).1).map (fun a => a.1) =
        (List.range' next ((Tree.loadAll next trees).2 - next)).map ListId.made := by
  cases trees with
  | nil => exact ⟨Nat.le_refl _, by simp [Tree.loadAll, Value.listsIn]⟩
  | cons tree rest =>
    obtain ⟨hfirst, hids⟩ := Tree.ids_load next tree
    obtain ⟨hothers, hids'⟩ := Tree.ids_loadAll (tree.load next).2 rest
    refine ⟨Nat.le_trans hfirst hothers, ?_⟩
    simp only [Tree.loadAll, Value.listsIn]
    rw [List.map_append, hids, hids', ← List.map_append, range'_append_of_le hfirst hothers]

end

/-- The lists of a source differ from each other and from all lists that were there before. -/
theorem Session.isNew_of_parse {W : Type} {t u : Session W} (ht : t.Sound) {held : List Value}
    (hheld : t.Admits held) {src : Bytes} {prog : List Value} (h : t.parse src = (u, .ok prog)) :
    ((Value.listsIn prog).map fun a => a.1).Nodup ∧
      ∀ a ∈ Value.listsIn prog,
        (Value.list a.1 a.2).IsNew (Value.listsIn held ++ t.lists) := by
  have hresult := t.parse_result src
  rw [h] at hresult
  cases hread : (Reader.start.parse src).2 with
  | error error =>
    rw [hread] at hresult
    cases hresult
  | ok trees =>
    rw [hread] at hresult
    cases hresult
    obtain ⟨_, hids⟩ := Tree.ids_loadAll t.nextList trees
    refine ⟨?_, ?_⟩
    · rw [hids]
      refine List.Pairwise.map ListId.made ?_ (List.pairwise_lt_range' 1)
      intro m n hlt hid
      exact absurd (ListId.made.inj hid) (Nat.ne_of_lt hlt)
    · intro a ha b hb
      have hmem := List.mem_map_of_mem (f := fun a : ListId × List Value => a.1) ha
      rw [hids] at hmem
      obtain ⟨n, hn, hid⟩ := List.mem_map.1 hmem
      refine beq_false_of_ne ?_
      intro heq
      obtain ⟨id, items⟩ := b
      have hid' : id = .made n := heq.symm.trans hid.symm
      subst hid'
      have hge : t.nextList ≤ n := (List.mem_range'_1.1 hn).1
      rcases List.mem_append.1 hb with hb | hb
      · exact absurd (hheld.known n items hb) (Nat.not_lt.2 hge)
      · exact absurd (ht.known n items hb) (Nat.not_lt.2 hge)

/-! ## Values that are passed on -/

/-- What ended was a step that ended, and then the next one. -/
theorem Action.exists_of_bind_ok {W α β : Type} {x : Action W α} {f : α → Action W β}
    {s t : Session W} {b : β} (h : (x >>= f) s = .ok b t) :
    ∃ a u, x s = .ok a u ∧ f a u = .ok b t := by
  cases hx : x s with
  | ok a u =>
    rw [Action.bind_of_ok hx] at h
    exact ⟨a, u, rfl, h⟩
  | error halt u =>
    rw [Action.bind_of_error hx] at h
    cases h

/-- The stack goes from one row of values to another, and everything else that holds values
stays as it is. -/
structure Session.Moves {W : Type} (s t : Session W) (before after : List Value) : Prop where
  before : s.stack.values = before
  after : t.stack.values = after
  symbols : t.symbols = s.symbols
  nextList : t.nextList = s.nextList

namespace Session.Moves

variable {W α : Type} {s t u : Session W} {before after : List Value}

theorem refl (s : Session W) : s.Moves s s.stack.values s.stack.values := ⟨rfl, rfl, rfl, rfl⟩

theorem note (h : s.Moves t before after) {level : Level} {message : Unit → Bytes}
    (hnote : Action.note level message t = .ok () u) : s.Moves u before after := by
  obtain ⟨journal, hnoted⟩ := t.exists_noteAt level message
  have hu : t.noteAt level message = u := by
    cases hnote
    rfl
  rw [hnoted] at hu
  subst hu
  exact ⟨h.before, h.after, h.symbols, h.nextList⟩

theorem push (h : s.Moves t before after) {v : Value} (hpush : Action.push v t = .ok () u) :
    s.Moves u before (v :: after) := by
  obtain ⟨journal, hnoted⟩ := t.exists_noteAt .trace fun _ => ascii "push " ++ v.format
  have hu : (t.noteAt .trace fun _ => ascii "push " ++ v.format).pushValue v = u := by
    cases hpush
    rfl
  rw [hnoted] at hu
  subst hu
  exact ⟨h.before, congrArg (v :: ·) h.after, h.symbols, h.nextList⟩

theorem take (h : s.Moves t before after) {from_ : Stack → Except Cause (α × Stack)}
    {shown : α → Bytes} {a : α} (htake : Action.take from_ shown t = .ok a u) :
    ∃ rest, from_ ⟨after⟩ = .ok (a, ⟨rest⟩) ∧ s.Moves u before rest := by
  have hstack : t.stack = ⟨after⟩ := congrArg Stack.mk h.after
  cases htop : from_ t.stack with
  | error cause =>
    rw [Action.take_of_error htop] at htake
    cases htake
  | ok taken =>
    obtain ⟨b, rest⟩ := taken
    rw [Action.take_of_ok htop] at htake
    obtain ⟨journal, hnoted⟩ := ({ t with stack := rest } : Session W).exists_noteAt .debug
      fun _ => ascii "pop " ++ shown b
    rw [hnoted] at htake
    cases htake
    rw [hstack] at htop
    exact ⟨rest.values, htop, h.before, rfl, h.symbols, h.nextList⟩

theorem pop (h : s.Moves t before after) {v : Value} (hpop : Action.pop t = .ok v u) :
    ∃ rest, after = v :: rest ∧ s.Moves u before rest := by
  obtain ⟨rest, htop, hmoves⟩ := h.take hpop
  cases after with
  | nil => cases htop
  | cons w below =>
    cases htop
    exact ⟨_, rfl, hmoves⟩

theorem popNumber (h : s.Moves t before after) {x : Double}
    (hpop : Action.popNumber t = .ok x u) :
    ∃ rest, after = .number x :: rest ∧ s.Moves u before rest := by
  obtain ⟨rest, htop, hmoves⟩ := h.take hpop
  cases after with
  | nil => cases htop
  | cons w below =>
    cases w <;> cases htop
    exact ⟨_, rfl, hmoves⟩

theorem popText (h : s.Moves t before after) {text : Bytes}
    (hpop : Action.popText t = .ok text u) :
    ∃ rest, after = .text text :: rest ∧ s.Moves u before rest := by
  obtain ⟨rest, htop, hmoves⟩ := h.take hpop
  cases after with
  | nil => cases htop
  | cons w below =>
    cases w <;> cases htop
    exact ⟨_, rfl, hmoves⟩

theorem popList (h : s.Moves t before after) {v : Value} (hpop : Action.popList t = .ok v u) :
    ∃ id items rest, v = .list id items ∧ after = .list id items :: rest ∧
      s.Moves u before rest := by
  obtain ⟨rest, htop, hmoves⟩ := h.take hpop
  cases after with
  | nil => cases htop
  | cons w below =>
    cases w <;> cases htop
    exact ⟨_, _, _, rfl, rfl, hmoves⟩

theorem pushAll (items : List Value) :
    ∀ {t : Session W} {after : List Value}, s.Moves t before after →
      Action.pushAll items t = .ok () u → s.Moves u before (items.reverse ++ after) := by
  induction items with
  | nil =>
    intro t after h hpush
    cases hpush
    exact h
  | cons v rest ih =>
    intro t after h hpush
    obtain ⟨_, w, hv, hrest⟩ := Action.exists_of_bind_ok hpush
    rw [List.reverse_cons, List.append_assoc]
    exact ih (h.push hv) hrest

end Session.Moves

/-- Whether an instruction only passes on values that it finds, unless it runs a list. -/
def Instruction.passesOn : Instruction → Bool
  | .eval | .dot | .dup | .swap | .select | .first | .get | .lookup | .spread | .assign => true
  | _ => false

/-- How an instruction that passes values on goes from one session to another.  A value that
stands on both sides is the same one, with the same identity. -/
inductive PassesOn {W : Type} (s t : Session W) : Instruction → Prop where
  | number {x : Double} {rest : List Value}
      (moves : s.Moves t (.number x :: rest) (.number x :: rest)) : PassesOn s t .eval
  | name {name : Bytes} {v : Value} {rest : List Value} (bound : s.symbols.get name = .ok v)
      (moves : s.Moves t (.text name :: rest) (v :: rest)) : PassesOn s t .eval
  | absent {rest : List Value} (moves : s.Moves t (.absent :: rest) rest) : PassesOn s t .eval
  | dot {v : Value} {rest : List Value} (moves : s.Moves t (v :: rest) (v :: v :: rest)) :
      PassesOn s t .dot
  | dup {v : Value} {rest : List Value} (moves : s.Moves t (v :: rest) (v :: v :: rest)) :
      PassesOn s t .dup
  | swap {a b : Value} {rest : List Value}
      (moves : s.Moves t (b :: a :: rest) (a :: b :: rest)) : PassesOn s t .swap
  | select {x : Double} {yes no : Value} {rest : List Value}
      (moves : s.Moves t (.number x :: yes :: no :: rest)
        ((if x.isZero then no else yes) :: rest)) : PassesOn s t .select
  | first {id : ListId} {v : Value} {items rest : List Value}
      (moves : s.Moves t (.list id (v :: items) :: rest) (v :: rest)) : PassesOn s t .first
  | get {x : Double} {id : ListId} {v : Value} {items rest : List Value} (item : v ∈ items)
      (moves : s.Moves t (.number x :: .list id items :: rest) (v :: rest)) : PassesOn s t .get
  | position {x : Double} {id : ListId} {v : Value} {items rest : List Value} (item : v ∈ items)
      (moves : s.Moves t (.number x :: .list id items :: rest) (v :: rest)) : PassesOn s t .lookup
  | key {key : Bytes} {id inner : ListId} {v : Value} {tail items rest : List Value}
      (item : .list inner (.text key :: v :: tail) ∈ items)
      (moves : s.Moves t (.text key :: .list id items :: rest) (v :: rest)) :
      PassesOn s t .lookup
  | spread {id : ListId} {items rest : List Value}
      (moves : s.Moves t (.list id items :: rest) (items.reverse ++ rest)) : PassesOn s t .spread
  | assign {name : Bytes} {v : Value} {rest : List Value}
      (before : s.stack.values = .text name :: v :: rest) (after : t.stack.values = rest)
      (symbols : t.symbols = s.symbols.bind name v) (nextList : t.nextList = s.nextList) :
      PassesOn s t .assign

namespace Action

variable {W : Type} {s t u : Session W} {values before after : List Value}

theorem exists_of_top {v : Value} (h : s.Moves t values values) (htop : top t = .ok v u) :
    u = t ∧ ∃ rest, values = v :: rest := by
  have htop : orFail t.stack.top t = .ok v u := htop
  unfold Stack.top at htop
  rw [h.after] at htop
  cases values with
  | nil => cases htop
  | cons w rest =>
    cases htop
    exact ⟨rfl, rest, rfl⟩

theorem eq_of_valueOf {name : Bytes} {v : Value} (h : valueOf name t = .ok v u) :
    u = t ∧ t.symbols.get name = .ok v := by
  have hget : orFail (t.symbols.get name) t = .ok v u := h
  cases hvalue : t.symbols.get name with
  | error cause =>
    rw [hvalue] at hget
    cases hget
  | ok w =>
    rw [hvalue] at hget
    cases hget
    exact ⟨rfl, rfl⟩

theorem exists_of_pushItemAt {items : List Value} {x : Double} (h : s.Moves t before after)
    (hdone : (do push (← orFail (itemAt items x)) : Action W Unit) t = .ok () u) :
    ∃ v ∈ items, s.Moves u before (v :: after) := by
  obtain ⟨v, w, hitem, hpush⟩ := exists_of_bind_ok hdone
  cases hat : itemAt items x with
  | error cause =>
    rw [hat] at hitem
    cases hitem
  | ok v' =>
    rw [hat] at hitem
    cases hitem
    exact ⟨v, mem_of_itemAt hat, h.push hpush⟩

theorem passesOn_evaluate {run : Runner W} (h : s.Moves t values values)
    (hlist : ∀ id items rest, values ≠ .list id items :: rest)
    (hdone : evaluate run t = .ok () u) : PassesOn s u .eval := by
  obtain ⟨v, t₁, hpop, hdone⟩ := exists_of_bind_ok hdone
  obtain ⟨rest, rfl, h⟩ := h.pop hpop
  obtain ⟨_, t₂, hnote, hdone⟩ := exists_of_bind_ok hdone
  have h := h.note hnote
  cases v with
  | number x => exact .number (h.push hdone)
  | list id items => exact absurd rfl (hlist id items rest)
  | absent =>
    cases hdone
    exact .absent h
  | text name =>
    obtain ⟨v, t₃, hvalue, hpush⟩ := exists_of_bind_ok hdone
    obtain ⟨rfl, hget⟩ := eq_of_valueOf hvalue
    rw [h.symbols] at hget
    exact .name hget (h.push hpush)

theorem passesOn_bindOperand (h : s.Moves t values values) (hdone : bindOperand t = .ok () u) :
    PassesOn s u .assign := by
  obtain ⟨name, t₁, hpop, hdone⟩ := exists_of_bind_ok hdone
  obtain ⟨rest, rfl, h⟩ := h.popText hpop
  obtain ⟨v, t₂, hpop, hdone⟩ := exists_of_bind_ok hdone
  obtain ⟨rest, rfl, h⟩ := h.pop hpop
  obtain ⟨_, t₃, hbind, hnote⟩ := exists_of_bind_ok hdone
  cases hbind
  have hlast := (Session.Moves.refl _).note hnote
  refine .assign h.before (hlast.after.trans h.after) ?_ (hlast.nextList.trans h.nextList)
  rw [hlast.symbols, ← h.symbols]

theorem exists_of_duplicate (h : s.Moves t values values) (hdone : duplicate t = .ok () u) :
    ∃ v rest, s.Moves u (v :: rest) (v :: v :: rest) := by
  obtain ⟨v, t₁, htop, hpush⟩ := exists_of_bind_ok hdone
  obtain ⟨rfl, rest, rfl⟩ := exists_of_top h htop
  exact ⟨v, rest, h.push hpush⟩

theorem passesOn_exchange (h : s.Moves t values values) (hdone : exchange t = .ok () u) :
    PassesOn s u .swap := by
  obtain ⟨b, t₁, hpop, hdone⟩ := exists_of_bind_ok hdone
  obtain ⟨rest, rfl, h⟩ := h.pop hpop
  obtain ⟨a, t₂, hpop, hdone⟩ := exists_of_bind_ok hdone
  obtain ⟨rest, rfl, h⟩ := h.pop hpop
  obtain ⟨_, t₃, hpush, hdone⟩ := exists_of_bind_ok hdone
  exact .swap ((h.push hpush).push hdone)

theorem passesOn_selectOperand (h : s.Moves t values values)
    (hdone : selectOperand t = .ok () u) : PassesOn s u .select := by
  obtain ⟨x, t₁, hpop, hdone⟩ := exists_of_bind_ok hdone
  obtain ⟨rest, rfl, h⟩ := h.popNumber hpop
  obtain ⟨yes, t₂, hpop, hdone⟩ := exists_of_bind_ok hdone
  obtain ⟨rest, rfl, h⟩ := h.pop hpop
  obtain ⟨no, t₃, hpop, hdone⟩ := exists_of_bind_ok hdone
  obtain ⟨rest, rfl, h⟩ := h.pop hpop
  exact .select (h.push hdone)

theorem passesOn_pushFirst (h : s.Moves t values values) (hdone : pushFirst t = .ok () u) :
    PassesOn s u .first := by
  obtain ⟨list, t₁, hpop, hdone⟩ := exists_of_bind_ok hdone
  obtain ⟨id, items, rest, rfl, rfl, h⟩ := h.popList hpop
  cases items with
  | nil => cases hdone
  | cons v items => exact .first (h.push hdone)

theorem passesOn_pushItem (h : s.Moves t values values) (hdone : pushItem t = .ok () u) :
    PassesOn s u .get := by
  obtain ⟨x, t₁, hpop, hdone⟩ := exists_of_bind_ok hdone
  obtain ⟨rest, rfl, h⟩ := h.popNumber hpop
  obtain ⟨list, t₂, hpop, hdone⟩ := exists_of_bind_ok hdone
  obtain ⟨id, items, rest, rfl, rfl, h⟩ := h.popList hpop
  obtain ⟨v, hitem, hlast⟩ := exists_of_pushItemAt h hdone
  exact .get hitem hlast

theorem passesOn_pushLookup (h : s.Moves t values values) (hdone : pushLookup t = .ok () u) :
    PassesOn s u .lookup := by
  obtain ⟨key, t₁, hpop, hdone⟩ := exists_of_bind_ok hdone
  obtain ⟨rest, rfl, h⟩ := h.pop hpop
  obtain ⟨list, t₂, hpop, hdone⟩ := exists_of_bind_ok hdone
  obtain ⟨id, items, rest, rfl, rfl, h⟩ := h.popList hpop
  cases key with
  | number x =>
    obtain ⟨v, hitem, hlast⟩ := exists_of_pushItemAt h hdone
    exact .position hitem hlast
  | text key =>
    cases hfind : valueForKey? key items with
    | none =>
      simp only [Value.items, hfind] at hdone
      cases hdone
    | some v =>
      simp only [Value.items, hfind] at hdone
      obtain ⟨inner, tail, hitem⟩ := mem_of_valueForKey? hfind
      exact .key hitem (h.push hdone)
  | absent => cases hdone
  | list id items => cases hdone

theorem passesOn_spreadOperand (h : s.Moves t values values)
    (hdone : spreadOperand t = .ok () u) : PassesOn s u .spread := by
  obtain ⟨list, t₁, hpop, hdone⟩ := exists_of_bind_ok hdone
  obtain ⟨id, items, rest, rfl, rfl, h⟩ := h.popList hpop
  exact .spread (h.pushAll items hdone)

end Action

/-- Where an instruction that passes values on ends, it has passed them on. -/
theorem Session.passesOn_step {W : Type} [FileSystem W] {s t : Session W} {v : Value}
    {i : Instruction} (hv : v.instruction? = some i) (hi : i.passesOn = true)
    {run : Action.Runner W} {rounds : Nat}
    (hlist : i = .eval → ∀ id items rest, s.stack.values ≠ .list id items :: rest)
    (h : step run rounds v s = .ok () t) : PassesOn s t i := by
  rw [step_of_instruction hv] at h
  obtain ⟨_, u, hnote, h⟩ := Action.exists_of_bind_ok h
  have hmoves := (Moves.refl s).note hnote
  cases i <;> cases hi
  case eval => exact Action.passesOn_evaluate hmoves (hlist rfl) h
  case assign => exact Action.passesOn_bindOperand hmoves h
  case select => exact Action.passesOn_selectOperand hmoves h
  case lookup => exact Action.passesOn_pushLookup hmoves h
  case dot =>
    obtain ⟨v, rest, hlast⟩ := Action.exists_of_duplicate hmoves h
    exact .dot hlast
  case dup =>
    obtain ⟨v, rest, hlast⟩ := Action.exists_of_duplicate hmoves h
    exact .dup hlast
  case swap => exact Action.passesOn_exchange hmoves h
  case first => exact Action.passesOn_pushFirst hmoves h
  case get => exact Action.passesOn_pushItem hmoves h
  case spread => exact Action.passesOn_spreadOperand hmoves h

/-! ## Identical values are equal -/

/-- In a sound session, values on the stack that are identical are equal. -/
theorem Session.Sound.equal_of_identical {W : Type} {s : Session W} (hs : s.Sound) {a b : Value}
    (ha : a ∈ s.stack.values) (hb : b ∈ s.stack.values) (hnan : a.hasNaN = false)
    (h : a.identical b = true) : a.equal b = true := by
  have hlisted : ∀ {id items}, .list id items ∈ s.stack.values → (id, items) ∈ s.lists := by
    intro id items hmem
    exact List.mem_append_left _ (Value.mem_listsIn.2 ⟨_, hmem, List.mem_cons_self⟩)
  cases a with
  | list id items =>
    cases b with
    | list id' items' =>
      have hitems : items = items' := hs.same _ (hlisted ha) _ (hlisted hb) (eq_of_beq h)
      subst hitems
      exact Value.equal_self (.list id items) hnan
    | absent => exact h
    | number x => exact h
    | text text => exact h
  | absent => exact h
  | number x => exact h
  | text text => exact h

/-- A comparison of two values on the stack ends, with its outcome in their place. -/
theorem Action.exists_compareValues {W : Type} (f : Value → Value → Bool) {t : Session W}
    {a b : Value} {rest : List Value} (h : t.stack.values = b :: a :: rest) :
    ∃ u, compareValues f t = .ok () u ∧ u.stack.values = .ofBool (f a b) :: rest := by
  have hpop : ∀ {t : Session W} {v : Value} {rest : List Value}, t.stack.values = v :: rest →
      ∃ u, pop t = .ok v u ∧ u.stack.values = rest := by
    intro t v rest hvalues
    have htop : t.stack.pop = .ok (v, ⟨rest⟩) := by rw [Stack.pop, hvalues]
    obtain ⟨journal, hnoted⟩ := ({ t with stack := ⟨rest⟩ } : Session W).exists_noteAt .debug
      fun _ => ascii "pop " ++ v.format
    exact ⟨_, (take_of_ok htop).trans (congrArg (EStateM.Result.ok v) hnoted), rfl⟩
  obtain ⟨t₁, hb, h₁⟩ := hpop h
  obtain ⟨t₂, ha, h₂⟩ := hpop h₁
  refine ⟨t₂.pushValue (.ofBool (f a b)), ?_, congrArg (_ :: ·) h₂⟩
  exact (bind_of_ok hb).trans ((bind_of_ok ha).trans rfl)

theorem Session.exists_step_compare {W : Type} [FileSystem W] (run : Action.Runner W)
    (rounds : Nat) {f : Value → Value → Bool} {v : Value} {i : Instruction}
    (hv : v.instruction? = some i) (hi : i.perform run rounds = Action.compareValues f)
    {t : Session W} {a b : Value} {rest : List Value} (h : t.stack.values = b :: a :: rest) :
    ∃ u, step run rounds v t = .ok () u ∧ u.stack.values = .ofBool (f a b) :: rest := by
  rw [step_of_instruction hv, hi]
  refine Action.exists_compareValues f (t := t.noteAt .trace fun _ => ascii "op " ++ i.name) ?_
  obtain ⟨journal, hnoted⟩ := t.exists_noteAt .trace fun _ => ascii "op " ++ i.name
  rw [hnoted]
  exact h

/-- Values that do not differ in a sound session are equal. -/
theorem Session.Sound.step_equal {W : Type} [FileSystem W] {t u : Session W} (ht : t.Sound)
    {run : Action.Runner W} {rounds : Nat} {a b v w : Value} {rest : List Value}
    (hvalues : t.stack.values = b :: a :: rest) (hnan : a.hasNaN = false)
    (hv : v.instruction? = some .different) (hw : w.instruction? = some .equal)
    (hdone : step run rounds v t = .ok () u)
    (hzero : u.stack.values = .number Double.zero :: rest) :
    ∃ u', step run rounds w t = .ok () u' ∧ u'.stack.values = .number Double.one :: rest := by
  obtain ⟨u₁, hdiffer, houtcome⟩ := exists_step_compare run rounds hv rfl hvalues
  rw [hdone] at hdiffer
  cases hdiffer
  have hidentical : a.identical b = true := by
    cases hcompared : a.identical b with
    | true => rfl
    | false =>
      rw [hzero, hcompared] at houtcome
      have hsame : Double.zero = Double.one := Value.number.inj (List.cons.inj houtcome).1
      exact absurd hsame (by decide +kernel)
  have ha : a ∈ t.stack.values := by simp [hvalues]
  have hb : b ∈ t.stack.values := by simp [hvalues]
  obtain ⟨u₂, hequal, hone⟩ := exists_step_compare run rounds hw rfl hvalues
  rw [ht.equal_of_identical ha hb hnan hidentical] at hone
  exact ⟨u₂, hequal, hone⟩

namespace Session

variable {W : Type} [FileSystem W]

/-- From a sound session only sound ones can be reached, in which identities tell what lists
hold.  In a sound session a list that an instruction makes or that a source brings in is
identical to none that was there before; the other instructions pass on the very values that
they find, and so does a list that is met as an element; and two values of which `!=` says
that they do not differ are equal by `==`, unless the first holds something that is not a
number. -/
theorem lists_identified (s : Session W) (hs : s.Sound) :
    (∀ t, s.Reachable t → t.Sound) ∧
      (∀ held v i rounds levels t, s.Admits held → v.instruction? = some i →
        i.makesList = true → step (exec rounds levels) rounds v s = .ok () t →
        ∃ new below, t.stack.values = new :: below ∧ new.kind = .list ∧
          new.IsNew (Value.listsIn held ++ s.lists) ∧
          new.IsNew (Value.listsIn new.items ++ Value.listsIn below ++
            Value.listsIn (t.symbols.entries.map fun e => e.2))) ∧
      (∀ held src t prog, s.Admits held → s.parse src = (t, .ok prog) →
        ((Value.listsIn prog).map fun a => a.1).Nodup ∧
          ∀ a ∈ Value.listsIn prog,
            (Value.list a.1 a.2).IsNew (Value.listsIn held ++ s.lists)) ∧
      (∀ v i rounds levels t, v.instruction? = some i → i.passesOn = true →
        (i = .eval → ∀ id items rest, s.stack.values ≠ .list id items :: rest) →
        step (exec rounds levels) rounds v s = .ok () t → PassesOn s t i) ∧
      (∀ id items rounds levels t,
        step (exec rounds levels) rounds (.list id items) s = .ok () t →
        s.Moves t s.stack.values (.list id items :: s.stack.values)) ∧
      ∀ a b rest rounds levels v w t, s.stack.values = b :: a :: rest → a.hasNaN = false →
        v.instruction? = some .different → w.instruction? = some .equal →
        step (exec rounds levels) rounds v s = .ok () t →
        t.stack.values = .number Double.zero :: rest →
        ∃ u, step (exec rounds levels) rounds w s = .ok () u ∧
          u.stack.values = .number Double.one :: rest := by
  refine ⟨fun t ht => ht.sound hs, ?_, ?_, ?_, ?_, ?_⟩
  · intro held v i rounds levels t hheld hv hi h
    exact isNew_of_makesList hs hheld hv hi h
  · intro held src t prog hheld h
    exact isNew_of_parse hs hheld h
  · intro v i rounds levels t hv hi hlist h
    exact passesOn_step hv hi hlist h
  · intro id items rounds levels t h
    exact (Moves.refl s).push h
  · intro a b rest rounds levels v w t hvalues hnan hv hw hdone hzero
    exact hs.step_equal hvalues hnan hv hw hdone hzero

theorem sound_new {W : Type} (world : W) : (Session.new world).Sound :=
  ⟨fun _ ha => absurd ha List.not_mem_nil, fun _ _ ha => absurd ha List.not_mem_nil⟩

theorem admits_nil {W : Type} (s : Session W) : s.Admits [] :=
  ⟨fun _ ha => absurd ha List.not_mem_nil, fun _ _ ha => absurd ha List.not_mem_nil⟩

/-- Whether an action ended. -/
def hasEnded {W : Type} : EStateM.Result Halt (Session W) Unit → Bool
  | .ok _ _ => true
  | .error _ _ => false

theorem exists_of_hasEnded {W : Type} {r : EStateM.Result Halt (Session W) Unit}
    (h : hasEnded r = true) : ∃ u, r = .ok () u := by
  cases r with
  | ok _ u => exact ⟨u, rfl⟩
  | error halt u => cases h

/-- A session with one list twice on its stack. -/
def listTwice : Session MemoryFiles :=
  (Session.overNoFiles.call (.eval none 0 (ascii "(a b) ."))).1

/-- The list is there twice under one identity, and the rest of it is a new list. -/
theorem lists_identified_listTwice :
    listTwice.Sound ∧ listTwice.lists.map (fun a => a.1) = [.made 0, .made 0] ∧
      ∃ t new below, step (exec 0 1) 0 (.text (ascii ".cdr")) listTwice = .ok () t ∧
        t.stack.values = new :: below ∧ new.IsNew listTwice.lists := by
  obtain ⟨hreached, _⟩ :=
    lists_identified Session.overNoFiles (sound_new _)
  have hsound : listTwice.Sound := hreached _ (.called .start (admits_nil _))
  have hended : hasEnded (step (exec 0 1) 0 (.text (ascii ".cdr")) listTwice) = true := by
    decide +kernel
  obtain ⟨t, ht⟩ := exists_of_hasEnded hended
  obtain ⟨_, hmakes, _⟩ := lists_identified listTwice hsound
  obtain ⟨new, below, hvalues, _, hnew, _⟩ := hmakes [] (.text (ascii ".cdr")) .rest 0 1 t
    (admits_nil _) (by decide +kernel) rfl ht
  exact ⟨hsound, by decide +kernel, t, new, below, ht, hvalues, hnew⟩

end Session

end StackScript
