import StackScript.Proofs.Gathering
import StackScript.Proofs.Unheeded
set_option autoImplicit false

/-!
# Bodies that turn one value into another

A body is run for each item of a list in two ways.  One collects the values that it leaves
and puts them as a new list; the other leaves them on the stack, where they pile up beneath
the next item.  If the body turns each item into one value and does not mind what lies
beneath, both come to the same: the list that the first makes, once it is spread, is what
the second leaves.

The body may read and change everything else in the session, so the rest of the session is
handed on from item to item.  The journal is left out of it, because the two ways take
different notes; a run does not look at the journal.
-/

namespace StackScript

open StackScript.Action (Runner)

/-! ## Runs do not look at the journal -/

/-- Sessions that differ in their journals alone. -/
def Scope.journals (on : Listening) : Scope where
  first := on
  second := on
  sameLine := true
  shared _ := false
  shared_note _ h := absurd h Bool.false_ne_true
  shared_diagnostic _ h := absurd h Bool.false_ne_true

/-- Running a list leaves the same stack and the same rest of the session, whatever the
journal holds. -/
structure Action.Runner.IgnoresJournal {W : Type} (run : Runner W) : Prop where
  yields : ∀ {prog : List Value} {s s' r r' : Session W} {values values' : List Value},
    s.Stands values r → s'.Stands values r →
      (run prog).Yields s (fun _ t => t.Stands values' r') →
        (run prog).Yields s' fun _ t => t.Stands values' r'

namespace Session.Stands

variable {W : Type} {s s' r : Session W} {values : List Value}

theorem rest_eq (h : s.Stands values r) : r.rest = r := by
  rw [← h.rest]
  rfl

theorem eq_journaled (h : s.Stands values r) (h' : s'.Stands values r) :
    s' = { s with journal := s'.journal } := by
  have hparts : s' = { s'.rest with stack := s'.stack, journal := s'.journal } := rfl
  rw [h'.stack, h'.rest, ← h.stack, ← h.rest] at hparts
  exact hparts

theorem alike (h : s.Stands values r) (h' : s'.Stands values r) :
    (Scope.journals s.listening).Alike s s' := by
  refine ⟨rfl, s.line, s'.journal, h.eq_journaled h', fun _ => rfl, ?_⟩
  have hnone : ∀ journal : List Event, journal.filter (Scope.journals s.listening).shared = [] :=
    fun _ => List.filter_eq_nil_iff.2 fun _ _ => Bool.false_ne_true
  rw [hnone, hnone]

end Session.Stands

theorem Scope.Alike.stands {W : Type} {on : Listening} {s s' r : Session W} {values : List Value}
    (h : (Scope.journals on).Alike s s') (hs : s.Stands values r) : s'.Stands values r := by
  obtain ⟨hfirst, line, journal, rfl, hline, _⟩ := h
  refine ⟨hs.stack, ?_⟩
  have hlistening : s.listening = on := hfirst
  rw [hline rfl, ← hs.rest, ← hlistening]
  rfl

theorem exec_ignoresJournal {W : Type} [FileSystem W] (rounds levels : Nat) :
    (exec rounds levels : Runner W).IgnoresJournal := by
  refine ⟨?_⟩
  rintro prog s s' r r' values values' hs hs' ⟨_, t, hrun, ht⟩
  have hmeets := ((Scope.link_sameDepth W _).sim_exec rounds levels prog).meets (hs.alike hs')
  rw [hrun] at hmeets
  generalize hrun' : exec rounds levels prog s' = result at hmeets
  cases hmeets with
  | ok halike => exact ⟨(), _, hrun', halike.stands ht⟩
  | stray hstray => exact hstray.elim

/-! ## From item to item -/

namespace Action

variable {W : Type}

/-- Running the body turns the item `x` on top into `y`, whatever lies beneath, and the rest
of the session from `r` into `r'`. -/
def Turns (run : Runner W) (body : List Value) (r : Session W) (x y : Value) (r' : Session W) :
    Prop :=
  ∀ base, (run body).Yields (r.holding (base ++ [x])) fun _ t => t.Stands (base ++ [y]) r'

/-- Running the body for one item after another turns each into a value, and hands on the rest
of the session from `r` to `r'`. -/
inductive Passes (run : Runner W) (body : List Value) :
    Session W → List Value → List Value → Session W → Prop where
  | nil (r : Session W) : Passes run body r [] [] r
  | cons {r r' r'' : Session W} {x y : Value} {items results : List Value}
      (head : Turns run body r x y r') (tail : Passes run body r' items results r'') :
      Passes run body r (x :: items) (y :: results) r''

variable {run : Runner W} {body items results : List Value} {r r' : Session W}

theorem Turns.yields {x y : Value} (h : Turns run body r x y r') (hrun : run.IgnoresJournal)
    {s : Session W} {base : List Value} (hs : s.Stands (base ++ [x]) r) :
    (run body).Yields s fun _ t => t.Stands (base ++ [y]) r' := by
  have hown := r.stands_holding (base ++ [x])
  rw [hs.rest_eq] at hown
  exact hrun.yields hown hs (h base)

theorem Passes.length_eq (h : Passes run body r items results r') :
    results.length = items.length := by
  induction h with
  | nil r => rfl
  | cons _ _ ih => rw [List.length_cons, List.length_cons, ih]

/-- Bodies that turn every item into a value, in sessions of a kind that they keep, can be run
for one item after another. -/
theorem exists_passes {Fit : Session W → Prop} :
    ∀ {items : List Value} {r : Session W},
      (∀ r, Fit r → ∀ x ∈ items, ∃ y r', Fit r' ∧ Turns run body r x y r') → Fit r →
        ∃ results r', Fit r' ∧ Passes run body r items results r' := by
  intro items
  induction items with
  | nil =>
    intro r _ hr
    exact ⟨[], r, hr, .nil r⟩
  | cons x items ih =>
    intro r hbody hr
    obtain ⟨y, r₁, hr₁, hhead⟩ := hbody r hr x List.mem_cons_self
    obtain ⟨results, r', hr', htail⟩ :=
      ih (fun r hr z hz => hbody r hr z (List.mem_cons_of_mem x hz)) hr₁
    exact ⟨y :: results, r', hr', .cons hhead htail⟩

/-- Left on the stack, the values pile up in the order of the items. -/
theorem Passes.runOver (h : Passes run body r items results r') (hrun : run.IgnoresJournal) :
    ∀ {s : Session W} {values : List Value}, s.Stands values r →
      (Action.runOver run body items).Yields s fun _ t => t.Stands (values ++ results) r' := by
  induction h with
  | nil r =>
    intro s values hs
    rw [List.append_nil]
    exact ⟨(), s, rfl, hs⟩
  | @cons _ _ _ x y items results head _ ih =>
    intro s values hs
    refine (hs.push x).bind ?_
    intro _ s₁ hs₁
    refine (head.yields hrun hs₁).bind ?_
    intro _ s₂ hs₂
    rw [List.append_cons]
    exact ih hs₂

/-- Collected, the values stand in the order of the items, after those collected before. -/
theorem Passes.collect (h : Passes run body r items results r') (hrun : run.IgnoresJournal) :
    ∀ {s : Session W} {values before : List Value}, s.Stands values r →
      (Action.collect run body before items).Yields s fun all t =>
        all = before.reverse ++ results ∧ t.Stands values r' := by
  induction h with
  | nil r =>
    intro s values before hs
    rw [List.append_nil]
    exact ⟨_, s, rfl, rfl, hs⟩
  | @cons _ _ _ x y items results head _ ih =>
    intro s values before hs
    refine (hs.push x).bind ?_
    intro _ s₁ hs₁
    refine (head.yields hrun hs₁).bind ?_
    intro _ s₂ hs₂
    refine hs₂.pop.bind ?_
    rintro result s₃ ⟨hresult, hs₃⟩
    subst result
    have hrest := @ih s₃ values (y :: before) hs₃
    rw [List.reverse_cons, ← List.append_cons] at hrest
    exact hrest

end Action

/-! ## Mapping and going over a list -/

namespace Session

variable {W : Type}

/-- Two sessions have the same stack, names, line, output and files. -/
structure SameState (s t : Session W) : Prop where
  stack : s.stack = t.stack
  symbols : s.symbols = t.symbols
  line : s.line = t.line
  output : s.output = t.output
  world : s.world = t.world

variable {run : Runner W} {s r r' : Session W}
variable {values items body results : List Value} {listId bodyId : ListId}

/-- The number of lists made is not part of the state. -/
theorem Stands.sameState {t : Session W} (hs : s.Stands values r) (ht : t.Stands values r')
    (hr : r = r' ∨ r = r'.numbered) : s.SameState t := by
  have hrest : s.rest = t.rest ∨ s.rest = t.rest.numbered := by
    rw [hs.rest, ht.rest]
    exact hr
  have hfield : ∀ {α : Type} (f : Session W → α), (∀ u, f u.rest = f u) →
      (∀ u, f u.numbered = f u) → f s = f t := by
    intro α f hf hnumbered
    rw [← hf s, ← hf t]
    rcases hrest with hrest | hrest
    · rw [hrest]
    · rw [hrest, hnumbered]
  exact ⟨hs.stack.trans ht.stack.symm, hfield (·.symbols) (fun _ => rfl) fun _ => rfl,
    hfield (·.line) (fun _ => rfl) fun _ => rfl, hfield (·.output) (fun _ => rfl) fun _ => rfl,
    hfield (·.world) (fun _ => rfl) fun _ => rfl⟩

variable [FileSystem W]

omit [FileSystem W] in
/-- A body is taken and then the list that it is for. -/
theorem Stands.popTwoLists (h : s.Stands (values ++ [.list listId items, .list bodyId body]) r)
    {f : Value → Value → Action W Unit} {P : Unit → Session W → Prop}
    (hf : ∀ t : Session W, t.Stands values r →
      (f (.list bodyId body) (.list listId items)).Yields t P) :
    (Action.popList >>= fun body => Action.popList >>= f body).Yields s P := by
  rw [List.append_cons] at h
  refine h.popList.bind ?_
  rintro _ s₁ ⟨rfl, h₁⟩
  refine h₁.popList.bind ?_
  rintro _ s₂ ⟨rfl, h₂⟩
  exact hf s₂ h₂

theorem Stands.each (h : s.Stands (values ++ [.list listId items, .list bodyId body]) r)
    (hrun : run.IgnoresJournal) (hpasses : Action.Passes run body r items results r')
    (rounds : Nat) :
    (StackScript.step run rounds (.text (ascii ".each"))).Yields s fun _ t =>
      t.Stands (values ++ results) r' := by
  refine h.step run rounds .each ?_
  intro s₁ h₁
  refine h₁.popTwoLists ?_
  intro s₂ h₂
  exact hpasses.runOver hrun h₂

theorem Stands.reduce (h : s.Stands (values ++ [.list listId items, .list bodyId body]) r)
    (hrun : run.IgnoresJournal) (hpasses : Action.Passes run body r items results r')
    (rounds : Nat) :
    (StackScript.step run rounds (.text (ascii ".reduce"))).Yields s fun _ t =>
      t.Stands (values ++ results) r' := by
  refine h.step run rounds .reduce ?_
  intro s₁ h₁
  refine h₁.popTwoLists ?_
  intro s₂ h₂
  refine (h₂.note _ _).bind ?_
  intro _ s₃ h₃
  exact hpasses.runOver hrun h₃

theorem Stands.map (h : s.Stands (values ++ [.list listId items, .list bodyId body]) r)
    (hrun : run.IgnoresJournal) (hpasses : Action.Passes run body r items results r')
    (rounds : Nat) :
    (StackScript.step run rounds (.text (ascii ".map"))).Yields s fun _ t =>
      t.Stands (values ++ [.list (.made r'.nextList) results]) r'.numbered := by
  refine h.step run rounds .map ?_
  intro s₁ h₁
  refine h₁.popTwoLists ?_
  intro s₂ h₂
  refine (h₂.note _ _).bind ?_
  intro _ s₃ h₃
  refine (hpasses.collect hrun h₃).bind ?_
  rintro all s₄ ⟨hall, h₄⟩
  subst all
  exact h₄.pushList results

/-- Mapping collects what going over the list leaves.  Where a body turns every item of a list
into one value whatever lies beneath, in any session of a kind that it keeps, mapping it puts
one list of these values, in the order of the items and as the rest of the session is handed
on from item to item, and touches nothing below.  Spreading that list comes to the same as
going over the items with the body, for either name of that. -/
theorem map_collects_each (rounds levels : Nat) {items body : List Value} {Fit : Session W → Prop}
    (hbody : ∀ r, Fit r → ∀ x ∈ items, ∃ y r', Fit r' ∧
      Action.Turns (exec rounds levels) body r x y r')
    (s : Session W) (hs : Fit s.rest) (st : List Value) (listId bodyId : ListId) :
    ∃ results r', Fit r' ∧ Action.Passes (exec rounds levels) body s.rest items results r' ∧
      results.length = items.length ∧
      ∃ mapped spread each reduced : Session W,
        step (exec rounds levels) rounds (.text (ascii ".map"))
            (s.holding (st ++ [.list listId items, .list bodyId body])) = .ok () mapped ∧
          mapped.stack.toList = st ++ [.list (.made r'.nextList) results] ∧
          mapped.rest = r'.numbered ∧
          step (exec rounds levels) rounds (.text (ascii ".spread")) mapped = .ok () spread ∧
          step (exec rounds levels) rounds (.text (ascii ".each"))
            (s.holding (st ++ [.list listId items, .list bodyId body])) = .ok () each ∧
          step (exec rounds levels) rounds (.text (ascii ".reduce"))
            (s.holding (st ++ [.list listId items, .list bodyId body])) = .ok () reduced ∧
          each.stack.toList = st ++ results ∧ each.rest = r' ∧
          spread.SameState each ∧ spread.SameState reduced := by
  obtain ⟨results, r', hr', hpasses⟩ := Action.exists_passes hbody hs
  have hrun := exec_ignoresJournal (W := W) rounds levels
  have hstart := s.stands_holding (st ++ [.list listId items, .list bodyId body])
  obtain ⟨_, mapped, hmap, hmapped⟩ := hstart.map hrun hpasses rounds
  obtain ⟨_, spread, hspread, hspreads⟩ := hmapped.spread (exec rounds levels) rounds
  obtain ⟨_, each, heach, hover⟩ := hstart.each hrun hpasses rounds
  obtain ⟨_, reduced, hreduce, hreduced⟩ := hstart.reduce hrun hpasses rounds
  exact ⟨results, r', hr', hpasses, hpasses.length_eq, mapped, spread, each, reduced, hmap,
    hmapped.toList, hmapped.rest, hspread, heach, hreduce, hover.toList, hover.rest,
    hspreads.sameState hover (.inr rfl), hspreads.sameState hreduced (.inr rfl)⟩

/-- A body that prints a number, gives it a name and adds one to it. -/
def printsAndAdds : List Value :=
  [.text (ascii "."), .text (ascii ".print"), .text (ascii "."), .text (ascii "last"),
    .text (ascii "<-"), .number .one, .text (ascii "+")]

/-- A session over no files that keeps its output. -/
def keepingOutput (symbols : Symbols) (written : List Bytes) : Session MemoryFiles :=
  { Session.overNoFiles with symbols := symbols, output := .memory written }

/-- Such a session inside a list, with some values on top of its stack. -/
def keepingInside (symbols : Symbols) (written : List Bytes) (values : List Value) :
    Session MemoryFiles :=
  { keepingOutput symbols written with stack := ⟨values⟩, depth := 1 }

/-- The body prints, binds and adds whatever the names are and whatever was printed before. -/
theorem turns_printsAndAdds (symbols : Symbols) (written : List Bytes) (x : Double) :
    Action.Turns (exec 0 1) printsAndAdds (keepingOutput symbols written) (.number x)
      (.number (x.add .one)) (keepingOutput (symbols.bind (ascii "last") (.number x))
        ([newline] :: (Value.number x).display :: written)) := by
  intro base
  have hwalk : walk (step (exec 0 0) 0) printsAndAdds
      (keepingInside symbols written (.number x :: base.reverse)) =
        .ok () (keepingInside (symbols.bind (ascii "last") (.number x))
          ([newline] :: (Value.number x).display :: written)
          (.number (x.add .one) :: base.reverse)) := by
    -- each element leaves a session of the same form, so it is executed on its own
    have hdup : ∀ written, step (exec 0 0) 0 (.text (ascii "."))
        (keepingInside symbols written (.number x :: base.reverse)) =
          .ok () (keepingInside symbols written (.number x :: .number x :: base.reverse)) :=
      fun _ => rfl
    have hprint : step (exec 0 0) 0 (.text (ascii ".print"))
        (keepingInside symbols written (.number x :: .number x :: base.reverse)) =
          .ok () (keepingInside symbols ([newline] :: (Value.number x).display :: written)
            (.number x :: base.reverse)) := rfl
    rw [printsAndAdds, walk_of_ok rfl (hdup written), walk_of_ok rfl hprint,
      walk_of_ok rfl (hdup _)]
    rfl
  have hrun := exec_of_ok
    (s := { keepingOutput symbols written with stack := ⟨.number x :: base.reverse⟩ }) hwalk
  refine ⟨(), _, ?_, stands_holding (keepingOutput _ _) _⟩
  rw [holding, holding, List.reverse_append, List.reverse_append]
  exact hrun

/-- Two numbers to go over. -/
def twoNumbers : List Value := [.number .one, .number .zero]

/-- Over two numbers that body prints both and leaves two, in a list or on the stack. -/
theorem map_collects_each_printsAndAdds :
    ∃ results r', Action.Passes (exec 0 1) printsAndAdds (keepingOutput .empty []) twoNumbers
        results r' ∧
      results.length = 2 ∧
      ∃ mapped spread each reduced : Session MemoryFiles,
        step (exec 0 1) 0 (.text (ascii ".map")) ((keepingOutput .empty []).holding
            ([.text []] ++ [.list .bare twoNumbers, .list (.made 7) printsAndAdds])) =
              .ok () mapped ∧
          mapped.stack.toList = [.text [], .list (.made r'.nextList) results] ∧
          step (exec 0 1) 0 (.text (ascii ".spread")) mapped = .ok () spread ∧
          step (exec 0 1) 0 (.text (ascii ".each")) ((keepingOutput .empty []).holding
            ([.text []] ++ [.list .bare twoNumbers, .list (.made 7) printsAndAdds])) =
              .ok () each ∧
          step (exec 0 1) 0 (.text (ascii ".reduce")) ((keepingOutput .empty []).holding
            ([.text []] ++ [.list .bare twoNumbers, .list (.made 7) printsAndAdds])) =
              .ok () reduced ∧
          each.stack.toList = .text [] :: results ∧
          spread.SameState each ∧ spread.SameState reduced := by
  have hbody : ∀ r, (∃ symbols written, r = keepingOutput symbols written) → ∀ x ∈ twoNumbers,
      ∃ y r', (∃ symbols written, r' = keepingOutput symbols written) ∧
        Action.Turns (exec 0 1) printsAndAdds r x y r' := by
    rintro _ ⟨symbols, written, rfl⟩ x hx
    have hnumber : ∃ n, x = .number n := by
      rcases List.mem_cons.1 hx with rfl | hx
      · exact ⟨_, rfl⟩
      · exact ⟨_, List.mem_singleton.1 hx⟩
    obtain ⟨n, rfl⟩ := hnumber
    exact ⟨_, _, ⟨_, _, rfl⟩, turns_printsAndAdds symbols written n⟩
  obtain ⟨results, r', _, hpasses, hlength, mapped, spread, each, reduced, hmap, hmapped, _,
      hspread, heach, hreduce, hover, _, hsame⟩ :=
    map_collects_each 0 1 hbody (keepingOutput .empty []) ⟨.empty, [], rfl⟩ [.text []] .bare
      (.made 7)
  exact ⟨results, r', hpasses, hlength, mapped, spread, each, reduced, hmap, hmapped, hspread,
    heach, hreduce, hover, hsame⟩

end Session

end StackScript
