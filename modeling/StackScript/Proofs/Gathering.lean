import StackScript.Proofs.Counts
import StackScript.Proofs.RoundTrip
set_option autoImplicit false

/-!
# Values gathered into a list and spread again

One instruction takes a number and puts so many of the values beneath it into one list, and
another puts the items of a list back one by one.  Each undoes the other, whatever the
number is: a fraction asks for one value more, a negative number and what is not a number
ask for none, and only a number greater than the size of the stack is refused.

A session is seen here as the values on its stack, bottom first, and the rest of it.
`Session.Stands` tells both, and what the actions on the stack do is told by it.
-/

namespace StackScript

/-! ## The stack and the rest of a session -/

namespace Session

variable {W : Type}

/-- The rest of a session: all but its stack and its journal. -/
def rest (s : Session W) : Session W := { s with stack := .empty, journal := [] }

/-- The session with these values on its stack, bottom first. -/
def holding (s : Session W) (values : List Value) : Session W :=
  { s with stack := ⟨values.reverse⟩ }

/-- The session after one more list was made. -/
def numbered (s : Session W) : Session W := { s with nextList := s.nextList + 1 }

/-- These values are on the stack, bottom first, and the rest is this. -/
structure Stands (s : Session W) (values : List Value) (r : Session W) : Prop where
  stack : s.stack = ⟨values.reverse⟩
  rest : s.rest = r

theorem stands_holding (s : Session W) (values : List Value) :
    (s.holding values).Stands values s.rest := ⟨rfl, rfl⟩

namespace Stands

variable {s r : Session W} {values : List Value}

theorem toList (h : s.Stands values r) : s.stack.toList = values := by
  rw [h.stack, Stack.toList, List.reverse_reverse]

theorem noteAt (h : s.Stands values r) (level : Level) (message : Unit → Bytes) :
    (s.noteAt level message).Stands values r := by
  obtain ⟨journal, hnote⟩ := s.exists_noteAt level message
  rw [hnote]
  exact ⟨h.stack, h.rest⟩

theorem note (h : s.Stands values r) (level : Level) (message : Unit → Bytes) :
    (Action.note level message).Yields s fun _ t => t.Stands values r :=
  ⟨(), _, rfl, h.noteAt level message⟩

theorem push (h : s.Stands values r) (v : Value) :
    (Action.push v).Yields s fun _ t => t.Stands (values ++ [v]) r := by
  refine (h.note _ _).bind ?_
  intro _ t ht
  have hstack : t.stack.push v = ⟨(values ++ [v]).reverse⟩ := by
    rw [ht.stack, List.reverse_append]
    rfl
  exact ⟨(), _, rfl, hstack, ht.rest⟩

theorem take {α : Type} (h : s.Stands values r) {from_ : Stack → Except Cause (α × Stack)}
    {shown : α → Bytes} {a : α} {below : List Value}
    (hfrom : from_ ⟨values.reverse⟩ = .ok (a, ⟨below.reverse⟩)) :
    (Action.take from_ shown).Yields s fun b t => b = a ∧ t.Stands below r := by
  rw [← h.stack] at hfrom
  have hbelow : ({ s with stack := ⟨below.reverse⟩ } : Session W).Stands below r := ⟨rfl, h.rest⟩
  exact ⟨a, _, Action.take_of_ok hfrom, rfl, hbelow.noteAt _ _⟩

theorem pop {v : Value} (h : s.Stands (values ++ [v]) r) :
    Action.pop.Yields s fun a t => a = v ∧ t.Stands values r :=
  h.take (by simp [Stack.pop])

theorem popNumber {n : Double} (h : s.Stands (values ++ [.number n]) r) :
    Action.popNumber.Yields s fun a t => a = n ∧ t.Stands values r :=
  h.take (by simp [Stack.popNumber])

theorem popList {id : ListId} {items : List Value} (h : s.Stands (values ++ [.list id items]) r) :
    Action.popList.Yields s fun a t => a = .list id items ∧ t.Stands values r :=
  h.take (by simp [Stack.popList])

theorem pushList (h : s.Stands values r) (items : List Value) :
    (Action.pushList items).Yields s fun _ t =>
      t.Stands (values ++ [.list (.made r.nextList) items]) r.numbered := by
  have hnext : r.nextList = s.nextList := by rw [← h.rest, Session.rest]
  have hnumbered : s.numbered.Stands values r.numbered := ⟨h.stack, by rw [← h.rest]; rfl⟩
  rw [hnext]
  exact hnumbered.push _

/-- The items of a list are put above what is there. -/
theorem pushAll (items : List Value) :
    ∀ {s : Session W} {values : List Value}, s.Stands values r →
      (Action.pushAll items).Yields s fun _ t => t.Stands (values ++ items) r := by
  induction items with
  | nil =>
    intro s values h
    rw [List.append_nil]
    exact ⟨(), s, rfl, h⟩
  | cons v rest ih =>
    intro s values h
    refine (h.push v).bind ?_
    intro _ t ht
    have happend : values ++ v :: rest = values ++ [v] ++ rest := by simp
    rw [happend]
    exact ih ht

/-- Values taken one by one, the last first, are put together in the order they had. -/
theorem popMany (count : Nat) :
    ∀ {s : Session W} {top taken : List Value}, s.Stands (values ++ top) r → top.length = count →
      (Action.popMany taken count).Yields s fun items t => items = top ++ taken ∧
        t.Stands values r := by
  induction count with
  | zero =>
    intro s top taken h hlength
    rw [List.eq_nil_of_length_eq_zero hlength, List.append_nil] at h
    rw [List.eq_nil_of_length_eq_zero hlength]
    exact ⟨taken, s, rfl, rfl, h⟩
  | succ count ih =>
    intro s top taken h hlength
    have hne : top ≠ [] := by
      rintro rfl
      cases hlength
    have hsplit : top.dropLast ++ [top.getLast hne] = top := List.dropLast_concat_getLast hne
    rw [← hsplit, ← List.append_assoc] at h
    refine h.pop.bind ?_
    rintro _ t ⟨rfl, ht⟩
    have hrest := @ih t top.dropLast (top.getLast hne :: taken) ht (by simp [hlength])
    have htaken : top.dropLast ++ top.getLast hne :: taken = top ++ taken := by
      rw [List.append_cons, hsplit]
    rw [htaken] at hrest
    exact hrest

/-- Executing the name of an instruction performs it. -/
theorem step [FileSystem W] (h : s.Stands values r) (run : Action.Runner W) (rounds : Nat)
    (i : Instruction) {P : Unit → Session W → Prop}
    (hperform : ∀ t : Session W, t.Stands values r → (i.perform run rounds).Yields t P) :
    (StackScript.step run rounds (.text i.name)).Yields s P := by
  rw [step_name]
  exact (h.note _ _).bind fun _ => hperform

theorem spread [FileSystem W] {id : ListId} {items : List Value}
    (h : s.Stands (values ++ [.list id items]) r) (run : Action.Runner W) (rounds : Nat) :
    (StackScript.step run rounds (.text (ascii ".spread"))).Yields s fun _ t =>
      t.Stands (values ++ items) r := by
  refine h.step run rounds .spread ?_
  intro t ht
  refine ht.popList.bind ?_
  rintro _ u ⟨rfl, hu⟩
  exact hu.pushAll items

end Stands

end Session

/-- A walk goes on where an element ended. -/
theorem walk_of_ok {W : Type} {act : Value → Action W Unit} {v : Value} {rest : List Value}
    {s t : Session W} (hlive : s.interrupt = none) (h : act v s = .ok () t) :
    walk act (v :: rest) s = walk act rest t := by
  rw [walk, Action.bind_of_ok (Action.checkpoint_of_none hlive), Action.bind_of_ok h]

/-- Running a list ends where the walk over it did, one level up. -/
theorem exec_of_ok {W : Type} [FileSystem W] {rounds levels : Nat} {prog : List Value}
    {s t : Session W}
    (h : walk (step (exec rounds levels) rounds) prog { s with depth := s.depth + 1 } = .ok () t) :
    exec rounds (levels + 1) prog s = .ok () { t with depth := t.depth - 1 } := by
  change (walk (step (exec rounds levels) rounds) prog >>= fun _ => Action.ascend)
    { s with depth := s.depth + 1 } = _
  rw [Action.bind_of_ok h]
  rfl

/-! ## How many values a number asks for -/

namespace Double

/-- A number is greater than a natural number.  Their values are compared as they are, and
what is not a number is greater than none. -/
inductive Exceeds : Double → Nat → Prop where
  | infinite (k : Nat) : Exceeds (.infinite false) k
  | finite {neg : Bool} {mag : StackScript.Magnitude} {k : Nat}
      (h : ((k * unit : Nat) : Int) < signedUnits neg mag) : Exceeds (.finite neg mag) k

/-- A finite number rounded up to an integer, or zero where that is negative; zero for what is
no finite number. -/
def demand : Double → Nat
  | .finite neg mag => (-(-signedUnits neg mag / (unit : Int))).toNat
  | _ => 0

theorem exceeds_finite_iff {neg : Bool} {mag : StackScript.Magnitude} {k : Nat} :
    (finite neg mag).Exceeds k ↔ ((k * unit : Nat) : Int) < signedUnits neg mag := by
  refine ⟨?_, .finite⟩
  rintro (_ | h)
  exact h

/-- As long as sizes are exact as numbers, this is how numbers compare. -/
theorem exceeds_iff_lt {k : Nat} (h : k < sizeBound) (n : Double) :
    n.Exceeds k ↔ lt (ofNat k) n = true := by
  cases n with
  | finite neg mag => rw [exceeds_finite_iff, lt_ofNat_iff h]
  | nan =>
    obtain ⟨size, hsize, _⟩ := ofNat_exact h
    rw [hsize]
    exact ⟨fun hn => (by cases hn), fun hlt => (by cases hlt)⟩
  | infinite neg =>
    obtain ⟨size, hsize, _⟩ := ofNat_exact h
    rw [hsize]
    cases neg with
    | false => exact ⟨fun _ => rfl, fun _ => .infinite k⟩
    | true => exact ⟨fun hn => (by cases hn), fun hlt => (by cases hlt)⟩

theorem demand_le_iff {neg : Bool} {mag : StackScript.Magnitude} {k : Nat} :
    (finite neg mag).demand ≤ k ↔ ¬ (finite neg mag).Exceeds k := by
  have hpos : 0 < (unit : Int) := Int.natCast_pos.2 unit_pos
  have hneg : (-(k : Int)) * (unit : Int) = -((k * unit : Nat) : Int) := by
    rw [Int.neg_mul, Int.natCast_mul]
  have hround : -(-signedUnits neg mag / (unit : Int)) ≤ k ↔
      signedUnits neg mag ≤ ((k * unit : Nat) : Int) := by
    rw [Int.neg_le_iff, Int.le_ediv_iff_mul_le hpos, hneg]
    omega
  rw [demand, Int.toNat_le, hround, exceeds_finite_iff, Int.not_lt]

theorem ceil_eq_demand (mag : StackScript.Magnitude) :
    Magnitude.ceil mag = (finite false mag).demand := by
  have hle : ∀ k, Magnitude.ceil mag ≤ k ↔ (finite false mag).demand ≤ k := by
    intro k
    rw [ceil_le_iff, demand_le_iff, exceeds_finite_iff, Int.not_lt, signedUnits,
      if_neg (by decide)]
    exact Int.ofNat_le.symm
  exact Nat.le_antisymm ((hle _).2 (Nat.le_refl _)) ((hle _).1 (Nat.le_refl _))

/-- No negative number is greater than a natural number. -/
theorem not_exceeds_negative (mag : StackScript.Magnitude) (k : Nat) :
    ¬ (finite true mag).Exceeds k := by
  rw [exceeds_finite_iff, signedUnits, if_pos rfl]
  omega

theorem ceilCount?_of_exceeds {n : Double} {k : Nat} (h : n.Exceeds k) : n.ceilCount? k = none := by
  cases h with
  | infinite => rfl
  | @finite neg mag _ h =>
    cases neg with
    | true => exact absurd (.finite h) (not_exceeds_negative mag k)
    | false =>
      rw [ceilCount?, ceil_eq_demand, if_neg (fun hle => demand_le_iff.1 hle (.finite h))]

theorem ceilCount?_of_not_exceeds {n : Double} {k : Nat} (h : ¬ n.Exceeds k) :
    n.ceilCount? k = some n.demand ∧ n.demand ≤ k := by
  cases n with
  | nan => exact ⟨rfl, Nat.zero_le k⟩
  | infinite neg =>
    cases neg with
    | true => exact ⟨rfl, Nat.zero_le k⟩
    | false => exact absurd (.infinite k) h
  | finite neg mag =>
    refine ⟨?_, demand_le_iff.2 h⟩
    cases neg with
    | false => rw [ceilCount?, ceil_eq_demand, if_pos (demand_le_iff.2 h)]
    | true =>
      have hzero : (finite true mag).demand ≤ 0 := demand_le_iff.2 (not_exceeds_negative mag 0)
      rw [Nat.le_zero.1 hzero]
      rfl

/-- A number that is a natural number exactly asks for so many values. -/
theorem ceilCount?_of_toNat? {n : Double} {k size : Nat} (h : n.toNat? = some k) (hk : k ≤ size) :
    n.ceilCount? size = some k := by
  cases n with
  | nan => cases h
  | infinite neg => cases h
  | finite neg mag =>
    simp only [toNat?] at h
    split at h
    · rename_i hexact
      obtain ⟨hmod, hsign⟩ := hexact
      cases h
      have hunits : mag.units = Magnitude.whole mag * unit :=
        (Nat.div_mul_cancel (Nat.dvd_of_mod_eq_zero hmod)).symm
      have hvalue : signedUnits neg mag = ((Magnitude.whole mag * unit : Nat) : Int) := by
        rw [← hunits, signedUnits]
        rcases hsign with rfl | hzero
        · rfl
        · rw [hzero]
          cases neg <;> rfl
      have hle : ∀ k, (finite neg mag).demand ≤ k ↔ Magnitude.whole mag ≤ k := by
        intro k
        rw [demand_le_iff, exceeds_finite_iff, hvalue, Int.not_lt, Int.ofNat_le]
        exact Nat.mul_le_mul_right_iff unit_pos
      have hdemand : (finite neg mag).demand = Magnitude.whole mag :=
        Nat.le_antisymm ((hle _).2 (Nat.le_refl _)) ((hle _).1 (Nat.le_refl _))
      rw [← hdemand]
      exact (ceilCount?_of_not_exceeds (demand_le_iff.1 ((hle size).2 hk))).1
    · cases h

end Double

/-! ## Gathering and spreading are inverse -/

namespace Session

variable {W : Type} [FileSystem W] {s r : Session W} {values : List Value} {n : Double}

/-- A number greater than the size of the stack is taken, and nothing else. -/
theorem Stands.gather_short (h : s.Stands (values ++ [.number n]) r)
    (hn : n.Exceeds values.length) (run : Action.Runner W) (rounds : Nat) :
    ∃ t, StackScript.step run rounds (.text (ascii ".nlist")) s =
        .error (.fault (.tooFewValues n)) t ∧ t.Stands values r := by
  obtain ⟨_, s₁, hnote, h₁⟩ := h.note .trace fun _ => ascii "op " ++ Instruction.gather.name
  obtain ⟨_, t, hpop, rfl, ht⟩ := h₁.popNumber
  have hsize : t.stack.size = values.length := by
    rw [ht.stack, Stack.size, List.length_reverse]
  refine ⟨t, ?_, ht⟩
  change StackScript.step run rounds (.text Instruction.gather.name) s = _
  rw [step_name, Action.bind_of_ok hnote, Instruction.perform, Action.gatherValues,
    Action.bind_of_ok hpop, Action.get_bind, hsize, Double.ceilCount?_of_exceeds hn]
  rfl

/-- The values that a number asks for become one list. -/
theorem Stands.gather {top : List Value} (h : s.Stands (values ++ top ++ [.number n]) r)
    (hn : n.ceilCount? (values ++ top).length = some top.length) (run : Action.Runner W)
    (rounds : Nat) :
    (StackScript.step run rounds (.text (ascii ".nlist"))).Yields s fun _ t =>
      t.Stands (values ++ [.list (.made r.nextList) top]) r.numbered := by
  refine h.step run rounds .gather ?_
  intro s₁ h₁
  refine h₁.popNumber.bind ?_
  rintro _ s₂ ⟨rfl, h₂⟩
  have hsize : s₂.stack.size = (values ++ top).length := by
    rw [h₂.stack, Stack.size, List.length_reverse]
  have hitems : (Action.popMany [] top.length >>= Action.pushList).Yields s₂ fun _ t =>
      t.Stands (values ++ [.list (.made r.nextList) top]) r.numbered := by
    refine (Stands.popMany top.length h₂ rfl).bind ?_
    rintro _ s₃ ⟨rfl, h₃⟩
    rw [List.append_nil]
    exact h₃.pushList top
  obtain ⟨a, t, hok, ht⟩ := hitems
  refine ⟨a, t, ?_, ht⟩
  rw [Action.get_bind, hsize, hn]
  exact hok

/-- Gathering and spreading undo each other.  Any number may stand above a stack: one that is
greater than its size is taken and refused; of any other the value rounded up, but at
least zero, says how many values on top become one list in their order, and spreading that
list leaves the stack as it was.  And a list that is spread is gathered again by the number
of its items, if that is one exactly. -/
theorem gather_spread_inverse (run : Action.Runner W) (rounds : Nat) (s : Session W)
    (st : List Value) :
    (∀ n : Double,
      (st.length < sizeBound → (n.Exceeds st.length ↔ Double.lt (.ofNat st.length) n = true)) ∧
      (n.Exceeds st.length → ∃ cause t,
        step run rounds (.text (ascii ".nlist")) (s.holding (st ++ [.number n])) =
            .error (.fault cause) t ∧
          cause.kind = .stackUnderflow ∧ t.stack.toList = st ∧ t.rest = s.rest) ∧
      (¬ n.Exceeds st.length → n.demand ≤ st.length ∧ ∃ id t u,
        step run rounds (.text (ascii ".nlist")) (s.holding (st ++ [.number n])) = .ok () t ∧
          t.stack.toList =
            st.take (st.length - n.demand) ++ [.list id (st.drop (st.length - n.demand))] ∧
          step run rounds (.text (ascii ".spread")) t = .ok () u ∧
          u.stack.toList = st ∧ u.rest = s.rest.numbered)) ∧
    ∀ (id : ListId) (items : List Value) (k : Double), k.toNat? = some items.length →
      ∃ id' t u v,
        step run rounds (.text (ascii ".spread")) (s.holding (st ++ [.list id items])) = .ok () t ∧
          step run rounds (.number k) t = .ok () u ∧
          step run rounds (.text (ascii ".nlist")) u = .ok () v ∧
          v.stack.toList = st ++ [.list id' items] ∧ v.rest = s.rest.numbered := by
  refine ⟨?_, ?_⟩
  · intro n
    refine ⟨fun hsize => Double.exceeds_iff_lt hsize n, ?_, ?_⟩
    · intro hn
      obtain ⟨t, hstep, ht⟩ := (s.stands_holding (st ++ [.number n])).gather_short hn run rounds
      exact ⟨_, t, hstep, rfl, ht.toList, ht.rest⟩
    · intro hn
      obtain ⟨hcount, hle⟩ := Double.ceilCount?_of_not_exceeds hn
      have hsplit : st.take (st.length - n.demand) ++ st.drop (st.length - n.demand) = st :=
        List.take_append_drop _ st
      have hlength : (st.drop (st.length - n.demand)).length = n.demand := by
        rw [List.length_drop]
        omega
      have hstart : (s.holding (st ++ [.number n])).Stands
          (st.take (st.length - n.demand) ++ st.drop (st.length - n.demand) ++ [.number n])
          s.rest := by
        rw [hsplit]
        exact s.stands_holding _
      obtain ⟨_, t, hgather, ht⟩ :=
        hstart.gather (by rw [hsplit, hlength, hcount]) run rounds
      obtain ⟨_, u, hspread, hu⟩ := ht.spread run rounds
      rw [hsplit] at hu
      exact ⟨hle, _, t, u, hgather, ht.toList, hspread, hu.toList, hu.rest⟩
  · intro id items k hk
    have hcount : k.ceilCount? (st ++ items).length = some items.length :=
      Double.ceilCount?_of_toNat? hk (by simp)
    obtain ⟨_, t, hspread, ht⟩ := (s.stands_holding (st ++ [.list id items])).spread run rounds
    obtain ⟨_, u, hpush, hu⟩ := ht.push (.number k)
    obtain ⟨_, v, hgather, hv⟩ := hu.gather hcount run rounds
    exact ⟨_, t, u, v, hspread, hpush, hgather, hv.toList, hv.rest⟩

/-- Three texts on a stack, bottom first. -/
def threeTexts : List Value := [.text (ascii "a"), .text (ascii "b"), .text (ascii "c")]

/-- Half of a natural number. -/
def halfOf (k : Nat) : Double := .div (.ofNat k) (.ofNat 2)

/-- Above three values one and a half asks for two of them, and three and a half for too many;
three of them that were a list become one again. -/
theorem gather_spread_inverse_threeTexts :
    (∃ id, ∃ t u : Session MemoryFiles,
      step (fun _ => pure ()) 0 (.text (ascii ".nlist")) (overNoFiles.holding
          (threeTexts ++ [.number (halfOf 3)])) = .ok () t ∧
        t.stack.toList = [.text (ascii "a"), .list id [.text (ascii "b"), .text (ascii "c")]] ∧
        step (fun _ => pure ()) 0 (.text (ascii ".spread")) t = .ok () u ∧
        u.stack.toList = threeTexts) ∧
    (∃ cause, ∃ t : Session MemoryFiles,
      step (fun _ => pure ()) 0 (.text (ascii ".nlist")) (overNoFiles.holding
          (threeTexts ++ [.number (halfOf 7)])) = .error (.fault cause) t ∧
        cause.kind = .stackUnderflow ∧ t.stack.toList = threeTexts) ∧
    (Double.ofNat 3).toNat? = some 3 ∧
    ∃ id, ∃ t u v : Session MemoryFiles,
      step (fun _ => pure ()) 0 (.text (ascii ".spread")) (overNoFiles.holding
          (threeTexts ++ [.list .bare threeTexts])) = .ok () t ∧
        step (fun _ => pure ()) 0 (.number (.ofNat 3)) t = .ok () u ∧
        step (fun _ => pure ()) 0 (.text (ascii ".nlist")) u = .ok () v ∧
        v.stack.toList = threeTexts ++ [.list id threeTexts] := by
  obtain ⟨hnumber, hlist⟩ := gather_spread_inverse (fun _ => pure ()) 0
    overNoFiles threeTexts
  have hthree : (Double.ofNat 3).toNat? = some 3 := by decide +kernel
  refine ⟨?_, ?_, hthree, ?_⟩
  · obtain ⟨hcompared, _, hfits⟩ := hnumber (halfOf 3)
    have hlt : ¬ Double.lt (.ofNat threeTexts.length) (halfOf 3) = true := by decide +kernel
    have hdemand : (halfOf 3).demand = 2 := by decide +kernel
    obtain ⟨_, id, t, u, hgather, hstack, hspread, hback, _⟩ :=
      hfits (mt (hcompared (by decide)).1 hlt)
    rw [hdemand] at hstack
    exact ⟨id, t, u, hgather, hstack, hspread, hback⟩
  · obtain ⟨hcompared, hshort, _⟩ := hnumber (halfOf 7)
    have hlt : Double.lt (.ofNat threeTexts.length) (halfOf 7) = true := by decide +kernel
    obtain ⟨cause, t, hstep, hkind, hstack, _⟩ := hshort ((hcompared (by decide)).2 hlt)
    exact ⟨cause, t, hstep, hkind, hstack⟩
  · obtain ⟨id, t, u, v, hspread, hpush, hgather, hstack, _⟩ :=
      hlist .bare threeTexts (.ofNat 3) hthree
    exact ⟨id, t, u, v, hspread, hpush, hgather, hstack⟩

end Session

end StackScript
