import StackScript.Proofs.Invariants
import StackScript.Proofs.Observation
set_option autoImplicit false

/-!
# What holds of all values

Values come into a session from programs and sources and are then passed on, taken apart and
put into new lists.  An `Inventory` is a property of values that survives this.  It is taken at
stages, because what holds of a list may depend on which lists have been made before it: a
later stage keeps what held at an earlier one, and each new list leads to a stage at which the
property holds of it too.

A session is `Stocked` at a stage if the property holds of everything on its stack and in its
names, and no list has an identity yet that is still to be handed out.  Every action leads
from stocked sessions to stocked sessions, at a stage that may be later.
-/

namespace StackScript

open StackScript.Action (Runner)

/-- A property of values at stages at which more and more lists have been made. -/
structure Inventory (K : Type) where
  Le : K → K → Prop
  Holds : K → Value → Prop
  /-- no list has the identity yet -/
  Free : K → Nat → Prop
  refl : ∀ k, Le k k
  trans : ∀ {k l m}, Le k l → Le l m → Le k m
  mono : ∀ {k l v}, Le k l → Holds k v → Holds l v
  number : ∀ k x, Holds k (.number x)
  text : ∀ k s, Holds k (.text s)
  items : ∀ {k id items}, Holds k (.list id items) → ∀ v ∈ items, Holds k v
  make : ∀ {k n items}, Free k n → (∀ v ∈ items, Holds k v) →
    ∃ l, Le k l ∧ Holds l (.list (.made n) items) ∧ ∀ m, m ≠ n → Free k m → Free l m

namespace Inventory

variable {K : Type} (ι : Inventory K)

/-- The property holds of all of some values. -/
def HoldsAll (k : K) (values : List Value) : Prop := ∀ v ∈ values, ι.Holds k v

/-- The property holds of all items of a list, which another value has none of. -/
theorem holdsAll_items {k : K} {v : Value} (h : ι.Holds k v) : ι.HoldsAll k v.items := by
  cases v with
  | list id items => exact ι.items h
  | absent => exact List.forall_mem_nil _
  | number x => exact List.forall_mem_nil _
  | text s => exact List.forall_mem_nil _

variable {ι}

theorem HoldsAll.mono {k l : K} {values : List Value} (h : ι.HoldsAll k values) (hle : ι.Le k l) :
    ι.HoldsAll l values :=
  fun v hv => ι.mono hle (h v hv)

theorem HoldsAll.cons {k : K} {v : Value} {values : List Value} (hv : ι.Holds k v)
    (h : ι.HoldsAll k values) : ι.HoldsAll k (v :: values) :=
  List.forall_mem_cons.2 ⟨hv, h⟩

end Inventory

/-! ## Stocked sessions -/

/-- What a session owns of values, and the identity of its next list. -/
structure Stock where
  stack : Stack
  symbols : Symbols
  nextList : Nat

/-- The values of a session. -/
def Session.stock {W : Type} (s : Session W) : Stock := ⟨s.stack, s.symbols, s.nextList⟩

/-- The property holds of all values, and the identities still to be handed out are free. -/
structure Stock.Holds {K : Type} (ι : Inventory K) (k : K) (stock : Stock) : Prop where
  stack : ι.HoldsAll k stock.stack.values
  symbols : ∀ e ∈ stock.symbols.entries, ι.Holds k e.2
  free : ∀ n, stock.nextList ≤ n → ι.Free k n

/-- A session all of whose values have the property. -/
abbrev Session.Stocked {K W : Type} (ι : Inventory K) (k : K) (s : Session W) : Prop :=
  s.stock.Holds ι k

namespace Action

variable {K W α β : Type}

/-- From a session that is stocked at the stage or later the action leads to one that is
stocked later, with a result of which `Q` holds then, or halts in one. -/
structure Stocks (ι : Inventory K) (k : K) (Q : K → α → Session W → Prop) (x : Action W α) :
    Prop where
  ok : ∀ {l s t a}, ι.Le k l → s.Stocked ι l → x s = .ok a t →
    ∃ m, ι.Le l m ∧ t.Stocked ι m ∧ Q m a t
  error : ∀ {l s t halt}, ι.Le k l → s.Stocked ι l → x s = .error halt t →
    ∃ m, ι.Le l m ∧ t.Stocked ι m

/-- Such an action, whatever its result is. -/
abbrev Restocks (ι : Inventory K) (k : K) (x : Action W α) : Prop :=
  Stocks ι k (fun _ _ _ => True) x

/-- An action that leaves the values as they are. -/
def Idle (x : Action W α) : Prop :=
  ∀ stock, Maintains (fun s => s.stock = stock) (fun _ s => s.stock = stock) x

namespace Stocks

variable {ι : Inventory K} {k : K} {P : K → α → Prop} {Q R : K → α → Session W → Prop}

theorem weaken {x : Action W α} (hx : Stocks ι k Q x)
    (h : ∀ {l a t}, ι.Le k l → Q l a t → R l a t) : Stocks ι k R x := by
  refine ⟨?_, hx.error⟩
  intro l s t a hle hs hok
  obtain ⟨m, hlm, ht, hQ⟩ := hx.ok hle hs hok
  exact ⟨m, hlm, ht, h (ι.trans hle hlm) hQ⟩

theorem bind {x : Action W α} {f : α → Action W β} {S : K → β → Session W → Prop}
    (hx : Stocks ι k (fun l a _ => P l a) x)
    (hf : ∀ {l a}, ι.Le k l → P l a → Stocks ι l S (f a)) : Stocks ι k S (x >>= f) := by
  refine ⟨?_, ?_⟩
  · intro l s t b hle hs h
    cases hxs : x s with
    | error halt u =>
      rw [bind_of_error hxs] at h
      cases h
    | ok a u =>
      rw [bind_of_ok hxs] at h
      obtain ⟨m, hlm, hu, hP⟩ := hx.ok hle hs hxs
      obtain ⟨n, hmn, ht, hS⟩ := (hf (ι.trans hle hlm) hP).ok (ι.refl m) hu h
      exact ⟨n, ι.trans hlm hmn, ht, hS⟩
  · intro l s t halt hle hs h
    cases hxs : x s with
    | error halt' u =>
      rw [bind_of_error hxs] at h
      cases h
      exact hx.error hle hs hxs
    | ok a u =>
      rw [bind_of_ok hxs] at h
      obtain ⟨m, hlm, hu, hP⟩ := hx.ok hle hs hxs
      obtain ⟨n, hmn, ht⟩ := (hf (ι.trans hle hlm) hP).error (ι.refl m) hu h
      exact ⟨n, ι.trans hlm hmn, ht⟩

theorem pure {a : α} (h : ∀ {l}, ι.Le k l → P l a) :
    Stocks ι k (fun l a (_ : Session W) => P l a) (pure a) := by
  refine ⟨?_, ?_⟩
  · intro l s t b hle hs hok
    cases hok
    exact ⟨l, ι.refl l, hs, h hle⟩
  · intro l s t halt _ _ herror
    cases herror

theorem throw (halt : Halt) : Stocks ι k Q (throw halt : Action W α) := by
  refine ⟨?_, ?_⟩
  · intro l s t a _ _ hok
    cases hok
  · intro l s t halt' hle hs herror
    cases herror
    exact ⟨l, ι.refl l, hs⟩

theorem fail (cause : Cause) : Stocks ι k Q (Action.fail cause : Action W α) := throw _

/-- An action that decides by a stocked session what to do. -/
theorem get {f : Session W → Action W α}
    (h : ∀ {l s}, ι.Le k l → s.Stocked ι l → Stocks ι l Q (f s)) :
    Stocks ι k Q (get >>= f : Action W α) :=
  ⟨fun hle hs hok => (h hle hs).ok (ι.refl _) hs hok,
    fun hle hs herror => (h hle hs).error (ι.refl _) hs herror⟩

theorem modify {f : Session W → Session W}
    (h : ∀ {l s}, ι.Le k l → s.Stocked ι l → (f s).Stocked ι l) :
    Restocks ι k (modify f : Action W Unit) := by
  refine ⟨?_, ?_⟩
  · intro l s t a hle hs hok
    cases hok
    exact ⟨l, ι.refl l, h hle hs, trivial⟩
  · intro l s t halt _ _ herror
    cases herror

theorem orFail {result : Except Cause α} (h : ∀ {a l}, result = .ok a → ι.Le k l → P l a) :
    Stocks ι k (fun l a (_ : Session W) => P l a) (orFail result) := by
  cases result with
  | ok a => exact pure (h rfl)
  | error cause => exact fail cause

end Stocks

theorem Idle.restocks {ι : Inventory K} {k : K} {x : Action W α} (hx : Idle x) :
    Restocks ι k x := by
  refine ⟨?_, ?_⟩
  · intro l s t a _ hs hok
    refine ⟨l, ι.refl l, ?_, trivial⟩
    rw [Session.Stocked, (hx s.stock).ok rfl hok]
    exact hs
  · intro l s t halt _ hs herror
    refine ⟨l, ι.refl l, ?_⟩
    rw [Session.Stocked, (hx s.stock).error rfl herror]
    exact hs

/-! ## Actions that leave the values as they are -/

theorem idle_modify {f : Session W → Session W} (h : ∀ s, (f s).stock = s.stock) :
    Idle (modify f : Action W Unit) :=
  fun _ => .modify fun s hs => (h s).trans hs

theorem stock_noteAt (s : Session W) (level : Level) (message : Unit → Bytes) :
    (s.noteAt level message).stock = s.stock := by
  obtain ⟨journal, hnote⟩ := s.exists_noteAt level message
  rw [hnote]
  rfl

theorem idle_note (level : Level) (message : Unit → Bytes) :
    Idle (note level message : Action W Unit) :=
  idle_modify fun s => stock_noteAt s level message

theorem idle_checkpoint : Idle (checkpoint : Action W Unit) :=
  fun _ => .checkpoint fun _ _ hs _ => hs

theorem idle_setLine (line : Int) : Idle (setLine line : Action W Unit) := idle_modify fun _ => rfl

theorem idle_descend : Idle (descend : Action W Unit) := idle_modify fun _ => rfl

theorem idle_ascend : Idle (ascend : Action W Unit) := idle_modify fun _ => rfl

theorem idle_setOutput (output : Output) :
    Idle (modify fun s => { s with output := output } : Action W Unit) :=
  idle_modify fun _ => rfl

theorem idle_print (text : Bytes) : Idle (print text : Action W Unit) := by
  intro stock
  refine Leads.get fun s => ?_
  rcases s.output.writeLine text with ⟨output, error⟩
  refine Leads.bind (idle_setOutput output stock) fun _ => ?_
  cases error with
  | none => exact .pure ()
  | some error => exact .throw fun _ hs => hs

theorem idle_flush : Idle (flush : Action W Unit) := by
  intro stock
  refine Leads.get fun s => ?_
  rcases s.output.flush with ⟨output, error⟩
  refine Leads.bind (idle_setOutput output stock) fun _ => ?_
  cases error with
  | none => exact .pure ()
  | some error =>
    cases error with
    | failed error => exact .throw fun _ hs => hs
    | crashed message => exact .throw fun _ hs => hs

theorem stock_receive (s : Session W) (reply : Reply W α) : (s.receive reply).stock = s.stock := by
  obtain ⟨interrupt, journal, heffect⟩ :=
    ({ s with world := reply.world } : Session W).exists_undergo reply.effect
  rw [Session.receive, heffect]
  rfl

theorem idle_access (reply : Reply W α) (failure : Bytes → Cause) :
    Idle (access reply failure) := by
  intro stock
  refine Leads.bind (idle_modify (fun s => stock_receive s reply) stock) fun _ => ?_
  cases reply.access with
  | ok a => exact .pure a
  | failed error => exact .throw fun _ hs => hs
  | crashed message => exact .throw fun _ hs => hs

theorem idle_loadText [FileSystem W] (path : Bytes) : Idle (loadText path : Action W Bytes) :=
  fun stock => Leads.get fun _ => idle_access _ _ stock

theorem idle_saveText [FileSystem W] (path text : Bytes) :
    Idle (saveText path text : Action W Unit) :=
  fun stock => Leads.get fun _ => idle_access _ _ stock

/-! ## The stack and the names -/

section Values

variable {ι : Inventory K} {k : K}

/-- The session is stocked, and has a new list on top of which no trace was left before:
its identity was free at a stage at which everything else held already. -/
def Made (ι : Inventory K) (k : K) (_ : K) (_ : Unit) (t : Session W) : Prop :=
  ∃ l n items below, ι.Le k l ∧ ι.Free l n ∧ ι.HoldsAll l items ∧ ι.HoldsAll l below ∧
    (∀ e ∈ t.symbols.entries, ι.Holds l e.2) ∧ t.stack.values = .list (.made n) items :: below

theorem restocks_pushTop {v : Value} (hv : ι.Holds k v) :
    Restocks ι k (modify fun s => { s with stack := s.stack.push v } : Action W Unit) :=
  .modify fun hle hs => ⟨hs.stack.cons (ι.mono hle hv), hs.symbols, hs.free⟩

theorem restocks_push {v : Value} (hv : ι.Holds k v) : Restocks ι k (push v : Action W Unit) :=
  (idle_note _ _).restocks.bind fun hle _ => restocks_pushTop (ι.mono hle hv)

theorem restocks_pushBool (b : Bool) : Restocks ι k (pushBool b : Action W Unit) :=
  restocks_pushTop (ι.number k _)

theorem pushList_eq (items : List Value) (s : Session W) :
    ∃ journal, pushList items s = .ok () { s with
      nextList := s.nextList + 1, journal := journal
      stack := s.stack.push (.list (.made s.nextList) items) } := by
  obtain ⟨journal, hnote⟩ := ({ s with nextList := s.nextList + 1 } : Session W).exists_noteAt
    .trace fun _ => ascii "push " ++ (Value.list (.made s.nextList) items).format
  refine ⟨journal, ?_⟩
  exact congrArg (fun t : Session W => EStateM.Result.ok ()
    { t with stack := t.stack.push (.list (.made s.nextList) items) }) hnote

/-- The new list has the identity that was to be handed out next. -/
theorem stocks_pushList {l : K} {items : List Value} (hkl : ι.Le k l)
    (hitems : ι.HoldsAll l items) : Stocks ι l (Made ι k) (pushList items : Action W Unit) := by
  refine ⟨?_, ?_⟩
  · intro m s t a hlm hs hok
    obtain ⟨journal, hpush⟩ := pushList_eq items s
    rw [hpush] at hok
    cases hok
    have hfree : ι.Free m s.nextList := hs.free _ (Nat.le_refl _)
    obtain ⟨n, hmn, hlist, hothers⟩ := ι.make hfree (hitems.mono hlm)
    refine ⟨n, hmn, ⟨(hs.stack.mono hmn).cons hlist, ?_, ?_⟩, ?_⟩
    · exact fun e he => ι.mono hmn (hs.symbols e he)
    · exact fun i hi => hothers i (Nat.ne_of_gt hi) (hs.free i (Nat.le_of_succ_le hi))
    · exact ⟨m, s.nextList, items, s.stack.values, ι.trans hkl hlm, hfree, hitems.mono hlm,
        hs.stack, hs.symbols, rfl⟩
  · intro m s t halt _ _ herror
    obtain ⟨journal, hpush⟩ := pushList_eq items s
    rw [hpush] at herror
    cases herror

/-- What an operation takes from a stack of values that have the property. -/
def Draws (ι : Inventory K) (P : K → α → Prop) (from_ : Stack → Except Cause (α × Stack)) : Prop :=
  ∀ {k stack a rest}, ι.HoldsAll k stack.values → from_ stack = .ok (a, rest) →
    ι.HoldsAll k rest.values ∧ P k a

theorem stocks_take {P : K → α → Prop} {from_ : Stack → Except Cause (α × Stack)}
    (hfrom : Draws ι P from_) (shown : α → Bytes) :
    Stocks ι k (fun l a (_ : Session W) => P l a) (take from_ shown) := by
  refine ⟨?_, ?_⟩
  · intro l s t a _ hs hok
    cases htop : from_ s.stack with
    | error cause =>
      rw [take_of_error htop] at hok
      cases hok
    | ok drawn =>
      rw [take_of_ok htop] at hok
      cases hok
      obtain ⟨hrest, ha⟩ := hfrom hs.stack htop
      refine ⟨l, ι.refl l, ?_, ha⟩
      rw [Session.Stocked, stock_noteAt]
      exact ⟨hrest, hs.symbols, hs.free⟩
  · intro l s t halt _ hs herror
    cases htop : from_ s.stack with
    | error cause =>
      rw [take_of_error htop] at herror
      cases herror
      exact ⟨l, ι.refl l, hs⟩
    | ok drawn =>
      rw [take_of_ok htop] at herror
      cases herror

theorem stocks_pop : Stocks ι k (fun l v (_ : Session W) => ι.Holds l v) pop := by
  refine stocks_take ?_ _
  rintro k ⟨values⟩ v rest hstack hpop
  cases values with
  | nil => cases hpop
  | cons w below =>
    cases hpop
    exact ⟨(List.forall_mem_cons.1 hstack).2, (List.forall_mem_cons.1 hstack).1⟩

theorem restocks_popNumber : Restocks ι k (popNumber : Action W Double) := by
  refine stocks_take ?_ _
  rintro k ⟨values⟩ x rest hstack hpop
  cases values with
  | nil => cases hpop
  | cons w below =>
    cases w <;> cases hpop
    exact ⟨(List.forall_mem_cons.1 hstack).2, trivial⟩

theorem restocks_popText : Restocks ι k (popText : Action W Bytes) := by
  refine stocks_take ?_ _
  rintro k ⟨values⟩ s rest hstack hpop
  cases values with
  | nil => cases hpop
  | cons w below =>
    cases w <;> cases hpop
    exact ⟨(List.forall_mem_cons.1 hstack).2, trivial⟩

theorem stocks_popList : Stocks ι k (fun l v (_ : Session W) => ι.Holds l v) popList := by
  refine stocks_take ?_ _
  rintro k ⟨values⟩ v rest hstack hpop
  cases values with
  | nil => cases hpop
  | cons w below =>
    cases w <;> cases hpop
    exact ⟨(List.forall_mem_cons.1 hstack).2, (List.forall_mem_cons.1 hstack).1⟩

theorem stocks_popMany (count : Nat) :
    ∀ {k : K} {taken : List Value}, ι.HoldsAll k taken →
      Stocks ι k (fun l items (_ : Session W) => ι.HoldsAll l items) (popMany taken count) := by
  induction count with
  | zero => exact fun htaken => .pure fun hle => htaken.mono hle
  | succ count ih =>
    exact fun htaken => stocks_pop.bind fun hle hv => ih ((htaken.mono hle).cons hv)

theorem stocks_top : Stocks ι k (fun l v (_ : Session W) => ι.Holds l v) top := by
  refine Stocks.get ?_
  intro l s _ hs
  refine .orFail ?_
  intro v m htop hle
  unfold Stack.top at htop
  split at htop
  · cases htop
  · rename_i w below hvalues
    have hstack := hs.stack
    rw [show s.stock.stack.values = w :: below from hvalues] at hstack
    cases htop
    exact ι.mono hle (List.forall_mem_cons.1 hstack).1

theorem stocks_valueOf (name : Bytes) :
    Stocks ι k (fun l v (_ : Session W) => ι.Holds l v) (valueOf name) := by
  refine Stocks.get ?_
  intro l s _ hs
  refine .orFail ?_
  intro v m hget hle
  unfold Symbols.get at hget
  split at hget
  · rename_i w hfind
    cases hget
    obtain ⟨e, he, rfl⟩ := Option.map_eq_some_iff.1 hfind
    exact ι.mono hle (hs.symbols e (List.mem_of_find?_eq_some he))
  · cases hget

theorem restocks_bindName (name : Bytes) {v : Value} (hv : ι.Holds k v) :
    Restocks ι k (bindName name v : Action W Unit) := by
  refine .modify ?_
  intro l s hle hs
  refine ⟨hs.stack, ?_, hs.free⟩
  intro e he
  rcases Entries.mem_bind he with rfl | he
  · exact ι.mono hle hv
  · exact hs.symbols e he

end Values

end Action

/-! ## Sources -/

section Sources

variable {K : Type} {ι : Inventory K}

mutual

/-- A tree is loaded with new lists only, which are made from the inside out. -/
theorem Inventory.exists_load {k : K} {next : Nat} (tree : Tree)
    (h : ∀ n, next ≤ n → ι.Free k n) :
    ∃ l, ι.Le k l ∧ ι.Holds l (tree.load next).1 ∧ next ≤ (tree.load next).2 ∧
      (∀ n, (tree.load next).2 ≤ n → ι.Free l n) ∧ ∀ n, n < next → ι.Free k n → ι.Free l n := by
  cases tree with
  | number x => exact ⟨k, ι.refl k, ι.number k x, Nat.le_refl _, h, fun _ _ hn => hn⟩
  | text s => exact ⟨k, ι.refl k, ι.text k s, Nat.le_refl _, h, fun _ _ hn => hn⟩
  | list items =>
    obtain ⟨l, hkl, hitems, hnext, hfree, hbelow⟩ :=
      Inventory.exists_loadAll items fun n hn => h n (Nat.le_of_succ_le hn)
    obtain ⟨m, hlm, hlist, hothers⟩ :=
      ι.make (hbelow next (Nat.lt_succ_self next) (h next (Nat.le_refl _))) hitems
    refine ⟨m, ι.trans hkl hlm, hlist, Nat.le_of_succ_le hnext, ?_, ?_⟩
    · exact fun n hn => hothers n (Nat.ne_of_gt (Nat.lt_of_lt_of_le hnext hn)) (hfree n hn)
    · exact fun n hn hk => hothers n (Nat.ne_of_lt hn) (hbelow n (Nat.lt_succ_of_lt hn) hk)

theorem Inventory.exists_loadAll {k : K} {next : Nat} (trees : List Tree)
    (h : ∀ n, next ≤ n → ι.Free k n) :
    ∃ l, ι.Le k l ∧ ι.HoldsAll l (Tree.loadAll next trees).1 ∧
      next ≤ (Tree.loadAll next trees).2 ∧
      (∀ n, (Tree.loadAll next trees).2 ≤ n → ι.Free l n) ∧
      ∀ n, n < next → ι.Free k n → ι.Free l n := by
  cases trees with
  | nil => exact ⟨k, ι.refl k, List.forall_mem_nil _, Nat.le_refl _, h, fun _ _ hn => hn⟩
  | cons tree rest =>
    obtain ⟨l, hkl, hfirst, hnext, hfree, hbelow⟩ := Inventory.exists_load tree h
    obtain ⟨m, hlm, hrest, hlast, hfree', hbelow'⟩ := Inventory.exists_loadAll rest hfree
    refine ⟨m, ι.trans hkl hlm, hrest.cons (ι.mono hlm hfirst), Nat.le_trans hnext hlast, hfree',
      ?_⟩
    exact fun n hn hk => hbelow' n (Nat.lt_of_lt_of_le hn hnext) (hbelow n hn hk)

end

theorem Session.Stocked.parse {W : Type} {k : K} {s : Session W} (hs : s.Stocked ι k)
    (src : Bytes) :
    ∃ l, ι.Le k l ∧ (s.parse src).1.Stocked ι l ∧
      ∀ prog, (s.parse src).2 = .ok prog → ι.HoldsAll l prog := by
  rw [Session.parse_eq, Session.parse_result]
  cases (Reader.start.parse src).2 with
  | error error =>
    refine ⟨k, ι.refl k, ⟨hs.stack, hs.symbols, hs.free⟩, ?_⟩
    intro prog hprog
    cases hprog
  | ok trees =>
    obtain ⟨l, hkl, hloaded, _, hfree, _⟩ := Inventory.exists_loadAll trees hs.free
    refine ⟨l, hkl, ⟨hs.stack.mono hkl, fun e he => ι.mono hkl (hs.symbols e he), hfree⟩, ?_⟩
    intro prog hprog
    cases hprog
    exact hloaded

theorem Action.stocks_readSource {W : Type} {k : K} (src : Bytes) :
    Stocks ι k (fun l result (_ : Session W) => ∀ prog, result = .ok prog → ι.HoldsAll l prog)
      (readSource src) := by
  refine ⟨?_, ?_⟩
  · intro l s t result _ hs hok
    cases hok
    exact hs.parse src
  · intro l s t halt _ _ herror
    cases herror

end Sources

/-! ## Instructions -/

section Instructions

variable {K W : Type} [FileSystem W] {ι : Inventory K} {k : K} {run : Runner W}

/-- Running a list of values that have the property leads from stocked sessions to stocked
ones. -/
def Inventory.Runs (ι : Inventory K) (run : Runner W) : Prop :=
  ∀ {k prog}, ι.HoldsAll k prog → Action.Restocks ι k (run prog)

namespace Action

omit [FileSystem W] in
theorem restocks_evaluate (hrun : ι.Runs run) : Restocks ι k (evaluate run) := by
  refine stocks_pop.bind ?_
  intro l v _ hv
  refine (idle_note _ _).restocks.bind ?_
  intro m _ hlm _
  cases v with
  | number x => exact restocks_push (ι.number m x)
  | list id items => exact hrun (ι.items (ι.mono hlm hv))
  | text name => exact (stocks_valueOf name).bind fun _ hw => restocks_push hw
  | absent => exact .pure fun _ => trivial

omit [FileSystem W] in
theorem restocks_bindOperand : Restocks ι k (bindOperand : Action W Unit) :=
  restocks_popText.bind fun _ _ => stocks_pop.bind fun _ hv =>
    (restocks_bindName _ hv).bind fun _ _ => (idle_note _ _).restocks

omit [FileSystem W] in
theorem restocks_adjust (by_ : Double) : Restocks ι k (adjust by_ : Action W Unit) := by
  refine restocks_popText.bind fun _ _ => (stocks_valueOf _).bind ?_
  intro l v _ _
  cases v with
  | number x =>
    exact (restocks_bindName _ (ι.number l _)).bind fun _ _ => (idle_note _ _).restocks
  | absent => exact .fail _
  | text s => exact .fail _
  | list id items => exact .fail _

omit [FileSystem W] in
theorem restocks_arithmetic (f : Double → Double → Double) :
    Restocks ι k (arithmetic f : Action W Unit) :=
  restocks_popNumber.bind fun _ _ => restocks_popNumber.bind fun _ _ =>
    restocks_push (ι.number _ _)

omit [FileSystem W] in
theorem restocks_compareNumbers (f : Double → Double → Bool) :
    Restocks ι k (compareNumbers f : Action W Unit) :=
  restocks_popNumber.bind fun _ _ => restocks_popNumber.bind fun _ _ => restocks_pushBool _

omit [FileSystem W] in
theorem restocks_compareValues (f : Value → Value → Bool) :
    Restocks ι k (compareValues f : Action W Unit) :=
  stocks_pop.bind fun _ _ => stocks_pop.bind fun _ _ => restocks_pushBool _

omit [FileSystem W] in
theorem restocks_selectOperand : Restocks ι k (selectOperand : Action W Unit) := by
  refine restocks_popNumber.bind fun _ _ => stocks_pop.bind fun _ hyes => stocks_pop.bind ?_
  intro l no hle hno
  refine restocks_push ?_
  split
  · exact hno
  · exact ι.mono hle hyes

omit [FileSystem W] in
theorem restocks_assertOperand : Restocks ι k (assertOperand : Action W Unit) := by
  refine restocks_popNumber.bind ?_
  intro l x _ _
  split
  · exact Stocks.bind (P := fun _ _ => True) (.fail _) fun _ _ => (idle_note _ _).restocks
  · exact (idle_note _ _).restocks

/-! ### Running lists -/

section Runners

omit [FileSystem W]
variable (hrun : ι.Runs run)
include hrun

theorem restocks_runIf : Restocks ι k (runIf run) := by
  refine restocks_popNumber.bind fun _ _ => stocks_popList.bind ?_
  intro l body _ hbody
  split
  · exact .pure fun _ => trivial
  · exact hrun (ι.holdsAll_items hbody)

theorem restocks_runIfElse : Restocks ι k (runIfElse run) := by
  refine restocks_popNumber.bind fun _ _ => stocks_popList.bind fun _ hyes => stocks_popList.bind ?_
  intro l no hle hno
  refine hrun ?_
  split
  · exact ι.holdsAll_items hno
  · exact (ι.holdsAll_items hyes).mono hle

theorem restocks_runOver {body : List Value} (items : List Value) :
    ∀ {k : K}, ι.HoldsAll k body → ι.HoldsAll k items → Restocks ι k (runOver run body items) := by
  induction items with
  | nil => exact fun _ _ => .pure fun _ => trivial
  | cons item rest ih =>
    intro k hbody hitems
    obtain ⟨hitem, hrest⟩ := List.forall_mem_cons.1 hitems
    refine (restocks_push hitem).bind ?_
    intro l _ hkl _
    refine (hrun (hbody.mono hkl)).bind ?_
    intro m _ hlm _
    exact ih (hbody.mono (ι.trans hkl hlm)) (Inventory.HoldsAll.mono hrest (ι.trans hkl hlm))

theorem restocks_runEach : Restocks ι k (runEach run) := by
  refine stocks_popList.bind fun _ hbody => stocks_popList.bind ?_
  intro l list hle hlist
  exact restocks_runOver hrun _ ((ι.holdsAll_items hbody).mono hle) (ι.holdsAll_items hlist)

theorem restocks_runReduce : Restocks ι k (runReduce run) := by
  refine stocks_popList.bind fun _ hbody => stocks_popList.bind ?_
  intro l list hle hlist
  refine (idle_note _ _).restocks.bind ?_
  intro m _ hlm _
  exact restocks_runOver hrun _ ((ι.holdsAll_items hbody).mono (ι.trans hle hlm))
    ((ι.holdsAll_items hlist).mono hlm)

theorem stocks_collect {body : List Value} (items : List Value) :
    ∀ {k : K} {results : List Value}, ι.HoldsAll k body → ι.HoldsAll k results →
      ι.HoldsAll k items →
      Stocks ι k (fun l values _ => ι.HoldsAll l values) (collect run body results items) := by
  induction items with
  | nil =>
    intro k results _ hresults _
    refine .pure ?_
    intro l hle v hv
    exact ι.mono hle (hresults v (List.mem_reverse.1 hv))
  | cons item rest ih =>
    intro k results hbody hresults hitems
    obtain ⟨hitem, hrest⟩ := List.forall_mem_cons.1 hitems
    refine (restocks_push hitem).bind ?_
    intro l _ hkl _
    refine (hrun (hbody.mono hkl)).bind ?_
    intro m _ hlm _
    refine stocks_pop.bind ?_
    intro n v hmn hv
    have hkn := ι.trans hkl (ι.trans hlm hmn)
    exact ih (hbody.mono hkn) ((hresults.mono hkn).cons hv) (Inventory.HoldsAll.mono hrest hkn)

theorem stocks_runMap : Stocks ι k (Made ι k) (runMap run) := by
  refine stocks_popList.bind ?_
  intro l body hkl hbody
  refine stocks_popList.bind ?_
  intro m list hlm hlist
  refine (idle_note _ _).restocks.bind ?_
  intro n _ hmn _
  refine (stocks_collect hrun _ ((ι.holdsAll_items hbody).mono (ι.trans hlm hmn))
    (List.forall_mem_nil _) ((ι.holdsAll_items hlist).mono hmn)).bind ?_
  intro o results hno hresults
  exact stocks_pushList (ι.trans hkl (ι.trans hlm (ι.trans hmn hno))) hresults

theorem restocks_repeatBody {body : List Value} (rounds : Nat) :
    ∀ {k : K}, ι.HoldsAll k body → Restocks ι k (repeatBody run body rounds) := by
  induction rounds with
  | zero => exact fun _ => .throw _
  | succ rounds ih =>
    intro k hbody
    refine idle_checkpoint.restocks.bind ?_
    intro l _ hkl _
    refine (hrun (hbody.mono hkl)).bind ?_
    intro m _ hlm _
    refine restocks_popNumber.bind ?_
    intro n x hmn _
    split
    · exact .pure fun _ => trivial
    · exact ih (hbody.mono (ι.trans hkl (ι.trans hlm hmn)))

theorem restocks_runLoop (rounds : Nat) : Restocks ι k (runLoop run rounds) :=
  stocks_popList.bind fun _ hbody => restocks_repeatBody hrun rounds (ι.holdsAll_items hbody)

end Runners

/-! ### Lists -/

section Lists

omit [FileSystem W]

/-- The item of a list at a position is one of its items. -/
theorem mem_of_itemAt {items : List Value} {x : Double} {v : Value}
    (h : itemAt items x = .ok v) : v ∈ items := by
  unfold itemAt at h
  split at h
  · cases h
  · split at h
    · rename_i hitem
      cases h
      exact List.mem_of_getElem? hitem
    · cases h

/-- The value for a key is an item of an item. -/
theorem mem_of_valueForKey? {key : Bytes} {items : List Value} {v : Value}
    (h : valueForKey? key items = some v) :
    ∃ id tail, .list id (.text key :: v :: tail) ∈ items := by
  fun_induction valueForKey? key items with
  | case1 => cases h
  | case2 id w tail rest =>
    cases h
    exact ⟨id, tail, List.mem_cons_self⟩
  | case3 id k w tail rest hkey ih =>
    obtain ⟨id', tail', hmem⟩ := ih h
    exact ⟨id', tail', List.mem_cons_of_mem _ hmem⟩
  | case4 w rest _ ih =>
    obtain ⟨id, tail, hmem⟩ := ih h
    exact ⟨id, tail, List.mem_cons_of_mem _ hmem⟩

theorem restocks_pushItemAt {items : List Value} (hitems : ι.HoldsAll k items) (x : Double) :
    Restocks ι k (do push (← orFail (itemAt items x)) : Action W Unit) := by
  refine Stocks.bind (P := fun l v => ι.Holds l v) (.orFail ?_) fun _ hv => restocks_push hv
  intro v l hitem hle
  exact ι.mono hle (hitems v (mem_of_itemAt hitem))

theorem restocks_pushFirst : Restocks ι k (pushFirst : Action W Unit) := by
  refine stocks_popList.bind ?_
  intro l list _ hlist
  have hitems := ι.holdsAll_items hlist
  cases hvalues : list.items with
  | nil => exact .fail _
  | cons v rest =>
    rw [hvalues] at hitems
    exact restocks_push (List.forall_mem_cons.1 hitems).1

theorem stocks_pushRest : Stocks ι k (Made ι k) (pushRest : Action W Unit) := by
  refine stocks_popList.bind ?_
  intro l list hkl hlist
  refine stocks_pushList hkl ?_
  exact fun v hv => ι.holdsAll_items hlist v (List.mem_of_mem_tail hv)

theorem stocks_pushHead : Stocks ι k (Made ι k) (pushHead : Action W Unit) := by
  refine restocks_popNumber.bind ?_
  intro l n hkl _
  refine stocks_popList.bind ?_
  intro m list hlm hlist
  refine stocks_pushList (ι.trans hkl hlm) ?_
  exact fun v hv => ι.holdsAll_items hlist v (List.mem_of_mem_take hv)

theorem stocks_pushTail : Stocks ι k (Made ι k) (pushTail : Action W Unit) := by
  refine restocks_popNumber.bind ?_
  intro l n hkl _
  refine stocks_popList.bind ?_
  intro m list hlm hlist
  refine stocks_pushList (ι.trans hkl hlm) ?_
  exact fun v hv => ι.holdsAll_items hlist v (List.mem_of_mem_drop hv)

theorem restocks_pushItem : Restocks ι k (pushItem : Action W Unit) :=
  restocks_popNumber.bind fun _ _ => stocks_popList.bind fun _ hlist =>
    restocks_pushItemAt (ι.holdsAll_items hlist) _

theorem stocks_gatherValues : Stocks ι k (Made ι k) (gatherValues : Action W Unit) := by
  refine restocks_popNumber.bind ?_
  intro l n hkl _
  refine Stocks.get ?_
  intro m s hlm _
  cases n.ceilCount? s.stack.size with
  | none => exact .fail _
  | some count =>
    refine (stocks_popMany count (List.forall_mem_nil _)).bind ?_
    intro o items hmo hitems
    exact stocks_pushList (ι.trans hkl (ι.trans hlm hmo)) hitems

theorem restocks_pushLookup : Restocks ι k (pushLookup : Action W Unit) := by
  refine stocks_pop.bind ?_
  intro l key _ _
  refine stocks_popList.bind ?_
  intro m list _ hlist
  have hitems := ι.holdsAll_items hlist
  cases key with
  | number x => exact restocks_pushItemAt hitems x
  | text name =>
    simp only
    split
    · rename_i v hfind
      obtain ⟨id, tail, hpair⟩ := mem_of_valueForKey? hfind
      exact restocks_push (ι.items (hitems _ hpair) v (by simp))
    · exact .fail _
  | absent => exact .fail _
  | list id items => exact .fail _

theorem restocks_pushAll (items : List Value) :
    ∀ {k : K}, ι.HoldsAll k items → Restocks ι k (pushAll items : Action W Unit) := by
  induction items with
  | nil => exact fun _ => .pure fun _ => trivial
  | cons v rest ih =>
    intro k hitems
    obtain ⟨hv, hrest⟩ := List.forall_mem_cons.1 hitems
    exact (restocks_push hv).bind fun hle _ => ih (Inventory.HoldsAll.mono hrest hle)

theorem restocks_exchange : Restocks ι k (exchange : Action W Unit) := by
  refine stocks_pop.bind fun _ hb => stocks_pop.bind ?_
  intro l a hle ha
  exact (restocks_push (ι.mono hle hb)).bind fun hlm _ => restocks_push (ι.mono hlm ha)

end Lists

/-! ### Files -/

theorem stocks_importOperand : Stocks ι k (Made ι k) (importOperand : Action W Unit) := by
  refine restocks_popText.bind ?_
  intro l path hkl _
  refine (idle_loadText path).restocks.bind ?_
  intro m src hlm _
  refine (stocks_readSource src).bind ?_
  intro n result hmn hresult
  cases result with
  | error error => exact .fail _
  | ok items =>
    refine (idle_note _ _).restocks.bind ?_
    intro o _ hno _
    exact stocks_pushList (ι.trans hkl (ι.trans hlm (ι.trans hmn hno)))
      ((hresult items rfl).mono hno)

theorem restocks_exportOperand : Restocks ι k (exportOperand : Action W Unit) := by
  refine restocks_popText.bind fun _ _ => stocks_popList.bind ?_
  intro l list _ _
  rcases list.render with ⟨text, stopped⟩
  cases stopped with
  | none => exact (idle_saveText _ _).restocks.bind fun _ _ => (idle_note _ _).restocks
  | some reason => exact .fail _

end Action

/-! ## Whole instructions -/

/-- Whether an instruction puts a new list on the stack. -/
def Instruction.makesList : Instruction → Bool
  | .rest | .head | .tail | .gather | .map | .importList => true
  | _ => false

open StackScript.Action

/-- An instruction that makes a list makes it of values that have the property. -/
theorem stocks_of_makesList (hrun : ι.Runs run) (rounds : Nat) {i : Instruction}
    (h : i.makesList = true) : Stocks ι k (Made ι k) (i.perform run rounds) := by
  cases i <;> cases h
  case rest => exact stocks_pushRest
  case head => exact stocks_pushHead
  case tail => exact stocks_pushTail
  case gather => exact stocks_gatherValues
  case map => exact stocks_runMap hrun
  case importList => exact stocks_importOperand

theorem restocks_of_makesList (hrun : ι.Runs run) (rounds : Nat) {i : Instruction}
    (h : i.makesList = true) : Restocks ι k (i.perform run rounds) :=
  (stocks_of_makesList hrun rounds h).weaken fun _ _ => trivial

theorem restocks_perform (hrun : ι.Runs run) (rounds : Nat) (i : Instruction) :
    Restocks ι k (i.perform run rounds) := by
  cases i with
  | eval => exact restocks_evaluate hrun
  | evalTwice => exact (restocks_evaluate hrun).bind fun _ _ => restocks_evaluate hrun
  | assign => exact restocks_bindOperand
  | add => exact restocks_arithmetic _
  | sub => exact restocks_arithmetic _
  | mul => exact restocks_arithmetic _
  | div => exact restocks_arithmetic _
  | floorDiv => exact restocks_arithmetic _
  | mod => exact restocks_arithmetic _
  | increment => exact restocks_adjust _
  | decrement => exact restocks_adjust _
  | greater => exact restocks_compareNumbers _
  | less => exact restocks_compareNumbers _
  | greaterEq => exact restocks_compareNumbers _
  | lessEq => exact restocks_compareNumbers _
  | equal => exact restocks_compareValues _
  | different => exact restocks_compareValues _
  | and => exact restocks_compareNumbers _
  | or => exact restocks_compareNumbers _
  | not => exact restocks_popNumber.bind fun _ _ => restocks_pushBool _
  | select => exact restocks_selectOperand
  | assert => exact restocks_assertOperand
  | lookup => exact restocks_pushLookup
  | setLine =>
    exact restocks_popNumber.bind fun _ _ => (idle_setLine _).restocks.bind fun _ _ =>
      (idle_note _ _).restocks
  | dot => exact stocks_top.bind fun _ hv => restocks_push hv
  | dup => exact stocks_top.bind fun _ hv => restocks_push hv
  | drop => exact stocks_pop.bind fun _ _ => .pure fun _ => trivial
  | swap => exact restocks_exchange
  | cond => exact restocks_runIf hrun
  | condElse => exact restocks_runIfElse hrun
  | each => exact restocks_runEach hrun
  | loop => exact restocks_runLoop hrun rounds
  | first => exact restocks_pushFirst
  | rest => exact restocks_of_makesList hrun rounds rfl
  | head => exact restocks_of_makesList hrun rounds rfl
  | tail => exact restocks_of_makesList hrun rounds rfl
  | get => exact restocks_pushItem
  | gather => exact restocks_of_makesList hrun rounds rfl
  | reduce => exact restocks_runReduce hrun
  | map => exact restocks_of_makesList hrun rounds rfl
  | spread => exact stocks_popList.bind fun _ h => restocks_pushAll _ (ι.holdsAll_items h)
  | importList => exact restocks_of_makesList hrun rounds rfl
  | exportList => exact restocks_exportOperand
  | readFile =>
    exact restocks_popText.bind fun _ _ => (idle_loadText _).restocks.bind fun _ _ =>
      restocks_push (ι.text _ _)
  | writeFile =>
    exact restocks_popText.bind fun _ _ => restocks_popText.bind fun _ _ =>
      (idle_saveText _ _).restocks
  | print => exact stocks_pop.bind fun _ _ => (idle_print _).restocks
  | peek => exact stocks_top.bind fun _ _ => (idle_print _).restocks
  | exit => exact .throw _
  | die => exact .fail _
  | str => exact restocks_popNumber.bind fun _ _ => restocks_push (ι.text _ _)
  | int => exact restocks_popNumber.bind fun _ _ => restocks_push (ι.number _ _)

/-! ## Programs and calls -/

theorem restocks_step (hrun : ι.Runs run) (rounds : Nat) {v : Value} (hv : ι.Holds k v) :
    Restocks ι k (step run rounds v) := by
  cases v with
  | absent => exact restocks_push hv
  | number x => exact restocks_push hv
  | list id items => exact restocks_push hv
  | text s =>
    simp only [step]
    split
    · exact restocks_push hv
    · split
      · exact restocks_push (ι.number k _)
      · split
        · exact .fail _
        · exact (idle_note _ _).restocks.bind fun _ _ => restocks_perform hrun rounds _

theorem restocks_walk (hrun : ι.Runs run) (rounds : Nat) (prog : List Value) :
    ∀ {k : K}, ι.HoldsAll k prog → Restocks ι k (walk (step run rounds) prog) := by
  induction prog with
  | nil => exact fun _ => .pure fun _ => trivial
  | cons v rest ih =>
    intro k hprog
    obtain ⟨hv, hrest⟩ := List.forall_mem_cons.1 hprog
    refine idle_checkpoint.restocks.bind ?_
    intro l _ hkl _
    refine (restocks_step hrun rounds (ι.mono hkl hv)).bind ?_
    intro m _ hlm _
    exact ih (Inventory.HoldsAll.mono hrest (ι.trans hkl hlm))

/-- However many levels are left, lists run from stocked sessions to stocked sessions. -/
theorem Inventory.runs_exec (ι : Inventory K) (rounds levels : Nat) :
    ι.Runs (exec rounds levels : Runner W) := by
  induction levels with
  | zero => exact fun _ => .get fun _ _ => .fail _
  | succ levels ih =>
    intro k prog hprog
    refine idle_descend.restocks.bind ?_
    intro l _ hkl _
    exact (restocks_walk ih rounds prog (hprog.mono hkl)).bind fun _ _ => idle_ascend.restocks

end Instructions

/-! ## Calls -/

/-- The values that a call brings into a session. -/
def Call.program : Call → List Value
  | .run _ _ prog => prog
  | .eval _ _ _ => []

namespace Session

open StackScript.Action

variable {K W : Type} {ι : Inventory K} {k : K} {s : Session W}

theorem stock_settleFault (s : Session W) (cause : Cause) (line : Int) :
    (s.settleFault cause line).1.stock = s.stock := by
  obtain ⟨journal, hsettled⟩ := s.exists_settleFault cause line
  rw [hsettled]
  rfl

theorem stock_settle (s : Session W) (halt : Halt) : (s.settle halt).1.stock = s.stock := by
  obtain ⟨output, journal, _, hsettled⟩ := s.exists_settle halt
  rw [hsettled]
  rfl

variable [FileSystem W]

theorem Stocked.run (hs : s.Stocked ι k) (rounds : Nat) {prog : List Value}
    (hprog : ι.HoldsAll k prog) : ∃ l, ι.Le k l ∧ (s.run rounds prog).1.Stocked ι l := by
  have hrest : Idle (modify atRest : Action W Unit) := idle_modify fun _ => rfl
  have haction : Restocks ι k (runAction rounds prog : Action W Unit) := by
    refine hrest.restocks.bind ?_
    intro l _ hkl _
    refine Stocks.get ?_
    intro m t hlm _
    exact (ι.runs_exec rounds t.limit (hprog.mono (ι.trans hkl hlm))).bind fun _ _ =>
      idle_flush.restocks
  unfold Session.run
  cases hresult : runAction rounds prog s with
  | ok _ t =>
    obtain ⟨l, hkl, ht, _⟩ := haction.ok (ι.refl k) hs hresult
    exact ⟨l, hkl, ht⟩
  | error halt t =>
    obtain ⟨l, hkl, ht⟩ := haction.error (ι.refl k) hs hresult
    refine ⟨l, hkl, ?_⟩
    rw [Stocked, stock_settle]
    exact ht

theorem Stocked.eval (hs : s.Stocked ι k) (rounds : Nat) (src : Bytes) :
    ∃ l, ι.Le k l ∧ (s.eval rounds src).1.Stocked ι l := by
  have hstart : ({ s.atRest with line := 1 } : Session W).Stocked ι k := hs
  obtain ⟨l, hkl, hread, hprog⟩ := hstart.parse src
  unfold Session.eval
  rcases hparse : ({ s.atRest with line := 1 } : Session W).parse src with ⟨t, result⟩
  rw [hparse] at hread hprog
  cases result with
  | ok prog =>
    obtain ⟨m, hlm, hlast⟩ := Stocked.run hread rounds (hprog prog rfl)
    exact ⟨m, ι.trans hkl hlm, hlast⟩
  | error error =>
    refine ⟨l, hkl, ?_⟩
    rw [Stocked, stock_settleFault]
    exact hread

/-- Every call leads from stocked sessions to stocked sessions. -/
theorem Stocked.call (hs : s.Stocked ι k) {c : Call} (hc : ι.HoldsAll k c.program) :
    ∃ l, ι.Le k l ∧ (s.call c).1.Stocked ι l := by
  cases c with
  | run interrupt rounds prog => exact Stocked.run (s := s.under interrupt) hs rounds hc
  | eval interrupt rounds src => exact Stocked.eval (s := s.under interrupt) hs rounds src

end Session

end StackScript
