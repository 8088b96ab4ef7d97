import StackScript.Proofs.Counts
import StackScript.Proofs.Invariants
import StackScript.Proofs.Pieces
import StackScript.Proofs.Termination
import StackScript.Proofs.Trace
set_option autoImplicit false

/-!
# The lines that faults are told of on

A newline outside all lists makes its line current when the program comes to it.  A newline
inside a list is part of the list and does so only if the list is run.  So a fault is told
of on the line of the last newline outside all lists, unless an element inside a list has
set another line since.  The lines that the lists after that newline extend over are not
counted.
-/

namespace StackScript

open StackScript.Action (Leads Maintains Runner)

/-! ## Lines set inside and outside lists -/

/-- Whether an element is the instruction that sets the line. -/
def Value.setsLine (v : Value) : Bool :=
  match v.instruction? with
  | some .setLine => true
  | _ => false

namespace Start

/-- Whether the line was set inside a list since it was set last outside all lists. -/
def lineLost : List Start → Bool
  | [] => false
  | x :: earlier => if x.element.setsLine then decide (1 < x.depth) else lineLost earlier

/-- How many elements were begun outside all lists. -/
def outermost : List Start → Nat
  | [] => 0
  | x :: earlier => if x.depth = 1 then outermost earlier + 1 else outermost earlier

end Start

/-- Where a traced run is: how many lists are being run, the elements begun so far, and the
current line. -/
structure Place where
  depth : Nat
  starts : List Start
  line : Int

namespace Place

/-- The place after the evaluation of an element has begun. -/
def begun (p : Place) (v : Value) : Place := { p with starts := ⟨p.depth, v⟩ :: p.starts }

/-- There are `depth` lists being run, `count` elements were begun outside them, and `line` is
current unless a line was set inside a list. -/
structure OnLine (depth count : Nat) (line : Int) (p : Place) : Prop where
  depth_eq : p.depth = depth
  count_eq : Start.outermost p.starts = count
  line_eq : Start.lineLost p.starts = false → p.line = line

/-- The same where a line was set inside a list, so that any may be current. -/
structure OffLine (depth count : Nat) (p : Place) : Prop where
  depth_eq : p.depth = depth
  count_eq : Start.outermost p.starts = count
  lost : Start.lineLost p.starts = true

/-- A run has halted inside a program, after `count` elements outside its lists were begun and
on the line `line` unless a line was set inside a list. -/
def HaltedOn (count : Nat) (line : Int) (p : Place) : Prop :=
  p.depth ≠ 0 ∧ p.OnLine p.depth count line

variable {depth count : Nat} {line : Int} {p : Place}

theorem OffLine.onLine (h : p.OffLine depth count) : p.OnLine depth count line := by
  refine ⟨h.depth_eq, h.count_eq, fun hkept => ?_⟩
  rw [h.lost] at hkept
  cases hkept

theorem lineLost_begun {v : Value} (hv : v.setsLine = false) :
    Start.lineLost (p.begun v).starts = Start.lineLost p.starts := by
  simp only [begun, Start.lineLost, hv, Bool.false_eq_true, if_false]

/-- Inside a list an element that does not set the line leaves it as it is. -/
theorem OnLine.begun_inside (h : p.OnLine depth count line) (hdepth : 1 < depth) {v : Value}
    (hv : v.setsLine = false) : (p.begun v).OnLine depth count line := by
  refine ⟨h.depth_eq, ?_, ?_⟩
  · have hinside : ¬ p.depth = 1 := by
      rw [h.depth_eq]
      omega
    simp only [begun, Start.outermost, if_neg hinside]
    exact h.count_eq
  · rw [lineLost_begun hv]
    exact h.line_eq

/-- Inside a list an element that sets the line loses it. -/
theorem OnLine.begun_mark (h : p.OnLine depth count line) (hdepth : 1 < depth) {v : Value}
    (hv : v.setsLine = true) : (p.begun v).OffLine depth count := by
  have hinside : 1 < p.depth := by
    rw [h.depth_eq]
    exact hdepth
  refine ⟨h.depth_eq, ?_, ?_⟩
  · simp only [begun, Start.outermost, if_neg (Nat.ne_of_gt hinside)]
    exact h.count_eq
  · simp only [begun, Start.lineLost, hv, if_true, decide_eq_true hinside]

/-- Outside all lists there is one element more. -/
theorem OnLine.begun_outside (h : p.OnLine 1 count line) {v : Value} (hv : v.setsLine = false) :
    (p.begun v).OnLine 1 (count + 1) line := by
  refine ⟨h.depth_eq, ?_, ?_⟩
  · simp only [begun, Start.outermost, if_pos h.depth_eq, h.count_eq]
  · rw [lineLost_begun hv]
    exact h.line_eq

/-- A newline outside all lists is two elements, and makes its line current whatever happened
before. -/
theorem OnLine.begun_newline (h : p.OnLine 1 count line) (v w : Value) (next : Int) :
    ({ (p.begun v).begun w with line := next } : Place).OnLine 1 (count + 2) next := by
  refine ⟨h.depth_eq, ?_, fun _ => rfl⟩
  simp only [begun, Start.outermost, if_pos h.depth_eq, h.count_eq]

end Place

namespace Session

variable {W : Type}

/-- Where a traced session is. -/
def place (s : Session (Traced W)) : Place := ⟨s.depth, s.starts, s.line⟩

/-- A traced session that is on a line. -/
abbrev OnLine (depth count : Nat) (line : Int) (s : Session (Traced W)) : Prop :=
  s.place.OnLine depth count line

/-- A traced session that has lost its line. -/
abbrev OffLine (depth count : Nat) (s : Session (Traced W)) : Prop := s.place.OffLine depth count

/-- A traced session that has halted on a line. -/
abbrev HaltedOn (count : Nat) (line : Int) (s : Session (Traced W)) : Prop :=
  s.place.HaltedOn count line

/-- Instructions change the place only in setting the line and in running lists. -/
theorem lasting_place [FileSystem W] {J : Place → Prop} {E : Session (Traced W) → Prop}
    (hends : ∀ {s}, J s.place → E s) : Lasting (fun s : Session (Traced W) => J s.place) E where
  ends h := hends h
  noteAt {s} h level message := by
    obtain ⟨journal, hnote⟩ := s.exists_noteAt level message
    rw [hnote]
    exact h
  setStack h _ := h
  setNextList h _ := h
  bindValue h _ _ := h
  setOutput h _ := h
  read {s} h path := by
    obtain ⟨interrupt, journal, heffect⟩ :=
      ({ s with world := _ } : Session (Traced W)).exists_undergo
        (FileSystem.read s.world path).effect
    rw [receive, heffect]
    exact h
  write {s} h path text := by
    obtain ⟨interrupt, journal, heffect⟩ :=
      ({ s with world := _ } : Session (Traced W)).exists_undergo
        (FileSystem.write s.world path text).effect
    rw [receive, heffect]
    exact h
  parse {s} h src := by
    obtain ⟨journal, hparse⟩ := s.exists_parse src
    rw [hparse]
    exact h

end Session

/-! ## Elements that do and do not set the line -/

section Elements

variable {W : Type} [FileSystem W] {I E : Session W → Prop}

theorem Value.instruction_of_setsLine {v : Value} (h : v.setsLine = true) :
    v.instruction? = some .setLine := by
  unfold Value.setsLine at h
  split at h
  · assumption
  · cases h

theorem Value.instruction_ne_of_setsLine {v : Value} (h : v.setsLine = false) :
    v.instruction? ≠ some .setLine := by
  intro hinstruction
  simp only [Value.setsLine, hinstruction, Bool.true_eq_false] at h

/-- An element that does not set the line maintains what running lists maintains. -/
theorem Lasting.maintains_step (hI : Lasting I E) {run : Runner W} {rounds : Nat}
    (hrun : ∀ prog, Maintains I (fun _ => E) (run prog)) {v : Value} (hv : v.setsLine = false) :
    Maintains I (fun _ => E) (step run rounds v) := by
  refine hI.offStack.maintains_step fun i hi => ?_
  have hne : i ≠ .setLine := by
    rintro rfl
    exact Value.instruction_ne_of_setsLine hv hi
  exact hI.offStack.maintains_perform (fun _ => hI.ends) (fun _ _ hs _ => hI.ends hs)
    (fun _ => hrun) (fun _ => hI.bindValue) (fun hline => absurd hline hne)
    (fun _ => hI.setOutput) (fun _ => hI.read) fun _ => hI.write

/-- An element that sets the line maintains what does not speak of it. -/
theorem Lasting.maintains_mark (hI : Lasting I E)
    (hline : ∀ {s}, I s → ∀ line, I { s with line := line }) (run : Runner W) (rounds : Nat)
    {v : Value} (hv : v.setsLine = true) : Maintains I (fun _ => E) (step run rounds v) := by
  rw [step_of_instruction (Value.instruction_of_setsLine hv)]
  refine (hI.offStack.maintains_note _ _).bind fun _ => ?_
  have hcongruence := hI.congruence hline
  exact @StackCongruence.lineOperand W W _ _ _ hcongruence.toStackCongruence hcongruence.setLine

end Elements

/-! ## Lists -/

section Lists

variable {W : Type} [FileSystem W] {depth : Nat} (count : Nat) (line : Int)

open Session (OnLine OffLine HaltedOn)

theorem lasting_onLine (hdepth : depth ≠ 0) :
    Lasting (OnLine depth count line : Session (Traced W) → Prop) (HaltedOn count line) :=
  Session.lasting_place fun h =>
    ⟨fun hnone => hdepth (h.depth_eq.symm.trans hnone), rfl, h.count_eq, h.line_eq⟩

theorem lasting_offLine (hdepth : depth ≠ 0) :
    Lasting (OffLine depth count : Session (Traced W) → Prop) (HaltedOn count line) :=
  Session.lasting_place fun h => (lasting_onLine count line hdepth).ends h.onLine

/-- An element inside a list keeps to the line or loses it. -/
theorem maintains_tracedStep (rounds : Nat) {run : Runner (Traced W)} (hdepth : 1 < depth)
    (hrun : ∀ prog, Maintains (OnLine depth count line) (fun _ => HaltedOn count line) (run prog))
    (v : Value) :
    Maintains (OnLine depth count line) (fun _ => HaltedOn count line)
      (tracedStep rounds run v) := by
  have hne : depth ≠ 0 := Nat.ne_of_gt (Nat.lt_of_succ_lt hdepth)
  cases hv : v.setsLine with
  | true =>
    -- from where the element is begun the line is lost, so it does not matter which is set
    have hbegun : Leads (OnLine depth count line : Session (Traced W) → Prop)
        (OffLine depth count) (fun _ => HaltedOn count line) (modify fun s => s.begun v) :=
      .modify fun s hs => hs.begun_mark hdepth hv
    have hmark := (lasting_offLine count line hne).maintains_mark
      (fun hs _ => ⟨hs.depth_eq, hs.count_eq, hs.lost⟩) run rounds hv
    exact hbegun.bind fun _ => hmark.weaken (fun _ hs => hs.onLine) fun _ _ hs => hs
  | false =>
    have hbegun : Maintains (OnLine depth count line : Session (Traced W) → Prop)
        (fun _ => HaltedOn count line) (modify fun s => s.begun v) :=
      .modify fun s hs => hs.begun_inside hdepth hv
    exact hbegun.bind fun _ => (lasting_onLine count line hne).maintains_step hrun hv

/-- So does a list that is run inside the program. -/
theorem maintains_tracedExec (rounds levels : Nat) : ∀ {depth : Nat}, depth ≠ 0 → ∀ prog,
    Maintains (OnLine depth count line : Session (Traced W) → Prop)
      (fun _ => HaltedOn count line) (tracedExec rounds levels prog) := by
  induction levels with
  | zero =>
    exact fun hdepth _ => Leads.get fun _ =>
      (lasting_onLine count line hdepth).offStack.maintains_throw rfl
  | succ levels ih =>
    intro depth hdepth prog
    have hdeeper : 1 < depth + 1 := Nat.succ_lt_succ (Nat.pos_of_ne_zero hdepth)
    have hact := maintains_tracedStep count line rounds hdeeper (ih (Nat.succ_ne_zero depth))
    have hlasting := lasting_onLine (W := W) count line (Nat.succ_ne_zero depth)
    have hwalk := @StackCongruence.walk (Traced W) (Traced W) _ _ _
      hlasting.offStack.stackCongruence (tracedStep rounds (tracedExec rounds levels))
      (tracedStep rounds (tracedExec rounds levels)) hact prog
    have henter : Leads (OnLine depth count line : Session (Traced W) → Prop)
        (OnLine (depth + 1) count line) (fun _ => HaltedOn count line) Action.descend :=
      .modify fun s hs => ⟨congrArg (· + 1) hs.depth_eq, hs.count_eq, hs.line_eq⟩
    have hleave : Leads (OnLine (depth + 1) count line : Session (Traced W) → Prop)
        (OnLine depth count line) (fun _ => HaltedOn count line) Action.ascend :=
      .modify fun s hs => ⟨congrArg (· - 1) hs.depth_eq, hs.count_eq, hs.line_eq⟩
    exact henter.bind fun _ => hwalk.bind fun _ => hleave

end Lists

/-! ## The program -/

section Outermost

variable {W : Type} [FileSystem W]

open Session (OnLine HaltedOn)

/-- An element of the program that does not set the line keeps to it, unless it runs a list
that sets one. -/
theorem leads_tracedStep (count : Nat) (line : Int) (rounds levels : Nat) {v : Value}
    (hv : v.setsLine = false) :
    Leads (OnLine 1 count line : Session (Traced W) → Prop) (OnLine 1 (count + 1) line)
      (fun _ => HaltedOn (count + 1) line) (tracedStep rounds (tracedExec rounds levels) v) := by
  have hbegun : Leads (OnLine 1 count line : Session (Traced W) → Prop)
      (OnLine 1 (count + 1) line) (fun _ => HaltedOn (count + 1) line)
      (modify fun s => s.begun v) := .modify fun s hs => hs.begun_outside hv
  have hrun := maintains_tracedExec (W := W) (count + 1) line rounds levels Nat.one_ne_zero
  have hlasting := lasting_onLine (W := W) (count + 1) line Nat.one_ne_zero
  exact hbegun.bind fun _ => hlasting.maintains_step hrun hv

/-- The number on top is made the current line, with no other trace than notes. -/
theorem step_lineMark {V : Type} [FileSystem V] (run : Runner V) (rounds : Nat) (u : Session V)
    (n : Double) :
    ∃ notes : List Note, step run rounds (.text Tree.lineMark) (u.pushValue (.number n)) =
      .ok () { u with line := n.toInt64, journal := notes.map Event.note ++ u.journal } := by
  have hinstruction : (Value.text Tree.lineMark).instruction? = some .setLine := by decide +kernel
  rw [step_of_instruction hinstruction]
  obtain ⟨named, hnamed⟩ := (u.pushValue (.number n)).exists_noteAt_append .trace
    fun _ => ascii "op " ++ Instruction.setLine.name
  let u₁ : Session V := { u with journal := named.map Event.note ++ u.journal }
  have hnote : Action.note .trace (fun _ => ascii "op " ++ Instruction.setLine.name)
      (u.pushValue (.number n)) = .ok () (u₁.pushValue (.number n)) :=
    congrArg (EStateM.Result.ok ()) hnamed
  obtain ⟨taken, htaken⟩ := u₁.exists_noteAt_append .debug fun _ => ascii "pop " ++ n.compact
  let u₂ : Session V := { u₁ with journal := taken.map Event.note ++ u₁.journal }
  have hpop : Action.popNumber (u₁.pushValue (.number n)) = .ok n u₂ :=
    (Action.take_of_ok rfl).trans (congrArg (EStateM.Result.ok n) htaken)
  obtain ⟨last, hset⟩ := ({ u₂ with line := n.toInt64 } : Session V).exists_noteAt_append .trace
    fun _ => ascii "line"
  refine ⟨last ++ taken ++ named, ?_⟩
  refine (Action.bind_of_ok hnote).trans ((Action.bind_of_ok hpop).trans ?_)
  rw [List.map_append, List.map_append, List.append_assoc, List.append_assoc]
  exact congrArg (EStateM.Result.ok ()) hset

/-- A newline of the program makes its line current, unless the run is interrupted. -/
theorem walk_newline (run : Runner (Traced W)) (rounds : Nat) (n : Double) (rest : List Value)
    {count : Nat} {line : Int} {s : Session (Traced W)} (hs : s.OnLine 1 count line) :
    (∃ reason, walk (tracedStep rounds run) (.number n :: .text Tree.lineMark :: rest) s =
        .error (.interrupted reason) s) ∨
      ∃ u : Session (Traced W),
        walk (tracedStep rounds run) (.number n :: .text Tree.lineMark :: rest) s =
          walk (tracedStep rounds run) rest u ∧ u.OnLine 1 (count + 2) n.toInt64 := by
  cases hinterrupt : s.interrupt with
  | some reason =>
    exact .inl ⟨reason, Action.bind_of_error (Action.checkpoint_of_some hinterrupt)⟩
  | none =>
    -- between its two elements the number is on the stack, of which `OnLine` does not speak
    obtain ⟨pushed, hpushed⟩ := (s.begun (.number n)).exists_noteAt .trace
      fun _ => ascii "push " ++ (Value.number n).format
    let u : Session (Traced W) := { s.begun (.number n) with journal := pushed }
    have hnumber : tracedStep rounds run (.number n) s = .ok () (u.pushValue (.number n)) :=
      congrArg (fun u : Session (Traced W) => EStateM.Result.ok () (u.pushValue (.number n)))
        hpushed
    obtain ⟨notes, hmark⟩ := step_lineMark run rounds (u.begun (.text Tree.lineMark)) n
    let last : Session (Traced W) :=
      { u.begun (.text Tree.lineMark) with
        line := n.toInt64, journal := notes.map Event.note ++ u.journal }
    have hline : tracedStep rounds run (.text Tree.lineMark) (u.pushValue (.number n)) =
        .ok () last := hmark
    refine .inr ⟨last, ?_, hs.begun_newline _ _ _⟩
    refine (Action.bind_of_ok (Action.checkpoint_of_none hinterrupt)).trans ?_
    refine (Action.bind_of_ok hnumber).trans ?_
    have hstill : (u.pushValue (.number n)).interrupt = none := hinterrupt
    exact (Action.bind_of_ok (Action.checkpoint_of_none hstill)).trans (Action.bind_of_ok hline)

end Outermost

/-! ## Tokens that set the line -/

/-- Whether a token is spelled like the instruction that sets the line. -/
def Token.isLineMark : Token → Bool
  | .quoted s => s == Tree.lineMark
  | .numeral s => s == Tree.lineMark
  | .symbol s => s == Tree.lineMark
  | .dotted s => s == Tree.lineMark
  | .operator s => s == Tree.lineMark
  | _ => false

theorem Tree.Element.isLineMark_eq {token : Token} {s : Bytes} (h : Element token (.text s)) :
    token.isLineMark = (s == Tree.lineMark) := by
  have hmarks : Token.marks 0 [token] = [.text s] := h.marks_eq 0 []
  cases token with
  | newline => exact absurd rfl h.ne_newline
  | opening => exact absurd rfl h.ne_opening
  | closing => exact absurd rfl h.ne_closing
  | numeral name =>
    have hnumeral : Mark.ofNumeral name = .text s := (List.cons.inj hmarks).1
    unfold Mark.ofNumeral at hnumeral
    split at hnumeral
    · cases hnumeral
    · cases hnumeral
      rfl
  | quoted name =>
    cases hmarks
    rfl
  | symbol name =>
    cases hmarks
    rfl
  | dotted name =>
    cases hmarks
    rfl
  | operator name =>
    cases hmarks
    rfl

theorem Value.eq_lineMark_of_setsLine {s : Bytes} (h : (Value.text s).setsLine = true) :
    s = Tree.lineMark := by
  have hinstruction := instruction_of_setsLine h
  simp only [Value.instruction?, Instruction.ofName?] at hinstruction
  split at hinstruction
  · cases hinstruction
  · have hname := List.find?_some hinstruction
    exact (eq_of_beq hname).symm

/-- An element sets the line only where the source spells it so. -/
theorem Tree.Element.setsLine_load {token : Token} {t : Tree} (h : Element token t)
    (htoken : token.isLineMark = false) (next : Nat) : (t.load next).1.setsLine = false := by
  cases t with
  | number x => rfl
  | list items => rfl
  | text s =>
    rw [h.isLineMark_eq] at htoken
    cases hsets : (Value.text s).setsLine with
    | false => exact hsets
    | true => exact absurd (Value.eq_lineMark_of_setsLine hsets) (ne_of_beq_false htoken)

/-! ## Rows -/

namespace Piece

theorem size_of_ne {p : Piece} (h : p ≠ .newline) : p.size = 1 := by
  cases p with
  | newline => exact absurd rfl h
  | element token => rfl
  | list inner => rfl

/-- Pieces up to a newline, and the rest of a row that has come after it. -/
structure Rows (before row : List Piece) : Prop where
  ends : before = [] ∨ before.getLast? = some .newline
  row : .newline ∉ row

namespace Rows

variable {before row : List Piece}

theorem snoc (h : Rows before row) {piece : Piece} (hpiece : piece ≠ .newline) :
    Rows before (row ++ [piece]) := by
  refine ⟨h.ends, fun hmem => ?_⟩
  rcases List.mem_append.1 hmem with hrow | hlast
  · exact h.row hrow
  · exact hpiece (List.mem_singleton.1 hlast).symm

theorem newline (before row : List Piece) : Rows (before ++ row ++ [.newline]) [] :=
  ⟨.inr List.getLast?_concat, List.not_mem_nil⟩

end Rows

end Piece

/-! ## Faults among the pieces -/

/-- A run has halted at one of the pieces, on the line of the last newline before it. -/
def Place.HaltedAmong (pieces : List Piece) (p : Place) : Prop :=
  ∃ before row piece rest, pieces = before ++ row ++ piece :: rest ∧ Piece.Rows before row ∧
    piece ≠ .newline ∧
    p.HaltedOn (Piece.allSizes (before ++ row) + 1) (1 + Piece.newlines before : Nat)

namespace Session

variable {W : Type}

/-- A fault inside the program is one of its pieces. -/
def FaultAmong (pieces : List Piece) (halt : Halt) (t : Session (Traced W)) : Prop :=
  ∀ cause, halt = .fault cause → t.depth ≠ 0 → t.place.HaltedAmong pieces

theorem FaultAmong.of_depth {pieces : List Piece} {halt : Halt} {t : Session (Traced W)}
    (h : t.depth = 0) : t.FaultAmong pieces halt :=
  fun _ _ hdepth => absurd h hdepth

end Session

section Walk

variable {W : Type} [FileSystem W]

open Session (OnLine FaultAmong)

/-- Once the run has come through the pieces `before` and `row`, walking over the values of the
pieces `rest` leads to their end, or to a fault among all these pieces. -/
abbrev Locates (W : Type) [FileSystem W] (rounds levels : Nat) (before row rest : List Piece)
    (values : List Value) : Prop :=
  Leads (OnLine 1 (Piece.allSizes (before ++ row)) (1 + Piece.newlines before : Nat))
    (fun t => t.depth = 1) (FaultAmong (before ++ row ++ rest))
    (walk (tracedStep rounds (tracedExec rounds levels) : Value → Action (Traced W) Unit) values)

namespace Locates

variable {rounds levels : Nat} {before row rest : List Piece} {values : List Value}

/-- A piece other than a newline faults itself, or adds to the row. -/
theorem piece (hrows : Piece.Rows before row) {piece : Piece} (hpiece : piece ≠ .newline)
    {v : Value} (hv : v.setsLine = false)
    (hrest : Locates W rounds levels before (row ++ [piece]) rest values) :
    Locates W rounds levels before row (piece :: rest) (v :: values) := by
  have hsize :
      Piece.allSizes (before ++ (row ++ [piece])) = Piece.allSizes (before ++ row) + 1 := by
    rw [← List.append_assoc, Piece.allSizes_append, ← Piece.size_of_ne hpiece]
    rfl
  have hpieces : before ++ (row ++ [piece]) ++ rest = before ++ row ++ piece :: rest := by
    simp only [List.append_assoc, List.singleton_append]
  rw [Locates, hsize, hpieces] at hrest
  have hcheck : Maintains (OnLine 1 (Piece.allSizes (before ++ row))
      (1 + Piece.newlines before : Nat) : Session (Traced W) → Prop)
      (FaultAmong (before ++ row ++ piece :: rest)) Action.checkpoint :=
    .checkpoint fun _ _ _ => nofun
  have hstep := leads_tracedStep (W := W) (Piece.allSizes (before ++ row))
    (1 + Piece.newlines before : Nat) rounds levels hv
  have hhalt : ∀ halt (t : Session (Traced W)),
      t.HaltedOn (Piece.allSizes (before ++ row) + 1) (1 + Piece.newlines before : Nat) →
      t.FaultAmong (before ++ row ++ piece :: rest) halt :=
    fun _ _ ht _ _ _ => ⟨before, row, piece, rest, rfl, hrows, hpiece, ht⟩
  exact hcheck.bind fun _ => (hstep.weaken (fun _ ht => ht) hhalt).bind fun _ => hrest

/-- A newline makes its line current, and a row starts after it. -/
theorem newline {n : Double}
    (hline : n.toInt64 = (1 + Piece.newlines (before ++ row ++ [.newline]) : Nat))
    (hrest : Locates W rounds levels (before ++ row ++ [.newline]) [] rest values) :
    Locates W rounds levels before row (.newline :: rest)
      (.number n :: .text Tree.lineMark :: values) := by
  have hsize : Piece.allSizes (before ++ row ++ [.newline]) = Piece.allSizes (before ++ row) + 2 :=
    Piece.allSizes_append _ _
  rw [Locates, List.append_nil, hsize, ← hline, List.append_assoc (before ++ row)] at hrest
  refine ⟨?_, ?_⟩
  · intro s t _ hs h
    rcases walk_newline (tracedExec rounds levels) rounds n values hs with
      ⟨reason, hstop⟩ | ⟨u, hgo, hu⟩
    · cases hstop.symm.trans h
    · exact hrest.ok hu (hgo.symm.trans h)
  · intro s t halt hs h
    rcases walk_newline (tracedExec rounds levels) rounds n values hs with
      ⟨reason, hstop⟩ | ⟨u, hgo, hu⟩
    · cases hstop.symm.trans h
      exact nofun
    · exact hrest.error hu (hgo.symm.trans h)

end Locates

/-- A program faults at one of the pieces that it is read from.  `line` is counted where the
walk is. -/
theorem Piece.Reads.locates {rounds levels line : Nat} {pieces : List Piece} {trees : List Tree}
    (hreads : Piece.Reads line pieces trees) :
    ∀ (before row : List Piece) (next : Nat), line = 1 + Piece.newlines (before ++ row) →
      Piece.Rows before row → line + Piece.newlines pieces < sizeBound →
      (∀ token ∈ Piece.allTokens pieces, token.isLineMark = false) →
      Locates W rounds levels before row pieces (Tree.loadAll next trees).1 := by
  -- with each piece the row that has been come through grows, until a newline ends it
  induction hreads with
  | nil line =>
    intro before row next _ _ _ _
    exact (Leads.pure ()).weaken (fun _ ht => ht.depth_eq) fun _ _ ht => ht
  | @newline line rest trees reads ih =>
    intro before row next hline hrows hsize hmarks
    rw [Piece.newlines_cons, ← Nat.add_assoc] at hsize
    have hnumber : (Double.ofNat (line + 1)).toInt64 = (line + 1 : Nat) :=
      Conversion.truncating.toInt_ofNat (Nat.lt_of_le_of_lt (Nat.le_add_right _ _) hsize)
    have hcounted : line + 1 = 1 + Piece.newlines (before ++ row ++ [.newline]) := by
      rw [Piece.newlines_append, hline, Nat.add_assoc]
      rfl
    refine .newline (hnumber.trans (congrArg _ hcounted)) ?_
    refine ih (before ++ row ++ [.newline]) [] next ?_ (.newline before row) hsize
      (List.forall_mem_append.1 hmarks).2
    rwa [List.append_nil]
  | @element line token u rest trees element reads ih =>
    intro before row next hline hrows hsize hmarks
    obtain ⟨htoken, hmarks⟩ := List.forall_mem_append.1 hmarks
    have hnone : Token.newlines (Piece.element token).tokens = 0 :=
      Token.newlines_of_ne element.ne_newline []
    rw [Piece.newlines_cons, hnone, Nat.zero_add] at hsize
    have hload := element.setsLine_load (htoken token (List.mem_singleton_self token)) next
    have hpiece : Piece.element token ≠ .newline := nofun
    refine .piece hrows hpiece hload (ih _ _ _ ?_ (hrows.snoc hpiece) hsize hmarks)
    rw [← List.append_assoc, Piece.newlines_append, Piece.newlines_cons, hnone]
    exact hline
  | @list line inner items rest trees balanced reads ih =>
    intro before row next hline hrows hsize hmarks
    have hinner : Token.newlines (Piece.list inner).tokens = Token.newlines inner :=
      Token.newlines_list inner
    rw [Piece.newlines_cons, hinner, ← Nat.add_assoc] at hsize
    have hload : ((Tree.list items).load next).1.setsLine = false := rfl
    have hpiece : Piece.list inner ≠ .newline := nofun
    refine .piece hrows hpiece hload
      (ih _ _ _ ?_ (hrows.snoc hpiece) hsize (List.forall_mem_append.1 hmarks).2)
    rw [← List.append_assoc, Piece.newlines_append, Piece.newlines_cons, hinner, hline,
      Nat.add_assoc]
    rfl

/-- A program that is run in a new list. -/
theorem leads_tracedExec {rounds : Nat} {pieces : List Piece} {prog : List Value}
    (hwalk : ∀ levels, Locates W rounds levels [] [] pieces prog) (levels : Nat) :
    Leads (OnLine 0 0 1 : Session (Traced W) → Prop) (fun t => t.depth = 0) (FaultAmong pieces)
      (tracedExec rounds levels prog) := by
  cases levels with
  | zero => exact Leads.get fun _ => .throw fun _ hs => .of_depth hs.depth_eq
  | succ levels =>
    have henter : Leads (OnLine 0 0 1 : Session (Traced W) → Prop) (OnLine 1 0 1)
        (FaultAmong pieces) Action.descend :=
      .modify fun s hs => ⟨congrArg (· + 1) hs.depth_eq, hs.count_eq, hs.line_eq⟩
    have hleave : Leads (fun t : Session (Traced W) => t.depth = 1) (fun t => t.depth = 0)
        (FaultAmong pieces) Action.ascend :=
      .modify fun s hs => congrArg (· - 1) hs
    exact henter.bind fun _ => (hwalk levels).bind fun _ => hleave

/-- A run of a source from its first line on. -/
theorem leads_tracedAction (rounds : Nat) {pieces : List Piece} {trees : List Tree}
    (hreads : Piece.Reads 1 pieces trees) (hsize : 1 + Piece.newlines pieces < sizeBound)
    (hmarks : ∀ token ∈ Piece.allTokens pieces, token.isLineMark = false) (next : Nat) :
    Leads (fun s : Session (Traced W) => s.line = 1 ∧ s.starts = []) (fun _ => True)
      (FaultAmong pieces) (Session.actionBy tracedExec rounds (Tree.loadAll next trees).1) := by
  have hrest : Leads (fun s : Session (Traced W) => s.line = 1 ∧ s.starts = []) (OnLine 0 0 1)
      (FaultAmong pieces) (modify Session.atRest) := by
    refine .modify fun s ⟨hline, hstarts⟩ => ⟨rfl, ?_, fun _ => hline⟩
    exact congrArg Start.outermost hstarts
  have hwalk : ∀ levels, Locates W rounds levels [] [] pieces (Tree.loadAll next trees).1 :=
    fun _ => hreads.locates [] [] next rfl ⟨.inl rfl, List.not_mem_nil⟩ hsize hmarks
  have houtside : Lasting (fun s : Session (Traced W) => s.depth = 0) (fun t => t.depth = 0) :=
    Session.lasting_place (J := fun p => p.depth = 0) fun hs => hs
  have hhalt : ∀ halt (t : Session (Traced W)), t.depth = 0 → t.FaultAmong pieces halt :=
    fun _ _ ht => .of_depth ht
  have hflush := (houtside.offStack.maintains_flush (fun hs _ => hs) houtside.setOutput).weaken
    (fun _ _ => trivial) hhalt
  exact hrest.bind fun _ => .get fun s => (leads_tracedExec hwalk s.limit).bind fun _ => hflush

end Walk

/-! ## Evaluation -/

/-- The line on which a fault is told of. -/
def Outcome.faultLine? : Outcome → Option Int
  | .fault report => some report.line
  | _ => none

theorem Outcome.exists_of_faultLine? {outcome : Outcome} {line : Int}
    (h : outcome.faultLine? = some line) :
    ∃ report, outcome = .fault report ∧ report.line = line := by
  cases outcome with
  | fault report => exact ⟨report, rfl, Option.some.inj h⟩
  | _ => cases h

/-- An outermost element or list of a source: what stands before it up to the last newline
outside all lists, its row up to it, and what comes after it. -/
structure Site (tokens : List Token) where
  before : List Piece
  row : List Piece
  piece : Piece
  rest : List Piece
  tokens_eq : tokens = Piece.allTokens (before ++ row ++ piece :: rest)
  isWhole : ∀ p ∈ before ++ row ++ piece :: rest, p.IsWhole
  rows : Piece.Rows before row
  piece_ne : piece ≠ .newline

namespace Site

variable {tokens : List Token}

/-- How many elements of the program have been begun once the piece is. -/
def index (site : Site tokens) : Nat := Piece.allSizes (site.before ++ site.row) + 1

/-- The line of the last newline outside all lists. -/
def rowLine (site : Site tokens) : Nat := 1 + Piece.newlines site.before

/-- The line counted at the piece: one more than there are newlines before it. -/
def line (site : Site tokens) : Nat := 1 + Piece.newlines (site.before ++ site.row)

end Site

namespace Session

variable {W : Type} [FileSystem W]

omit [FileSystem W] in
theorem place_settleFault (s : Session (Traced W)) (cause : Cause) (line : Int) :
    (s.settleFault cause line).1.place = s.place := by
  obtain ⟨journal, hsettled⟩ := s.exists_settleFault cause line
  rw [hsettled]
  rfl

/-- A fault inside a program that is run on its first line. -/
theorem tracedRun_haltedAmong {s : Session (Traced W)} (hline : s.line = 1)
    (hstarts : s.starts = []) {rounds next : Nat} {pieces : List Piece} {trees : List Tree}
    {report : Report} (hreads : Piece.Reads 1 pieces trees)
    (hsize : 1 + Piece.newlines pieces < sizeBound)
    (hmarks : ∀ token ∈ Piece.allTokens pieces, token.isLineMark = false)
    (hfault : (s.runBy tracedExec rounds (Tree.loadAll next trees).1).2 = .fault report)
    (hdepth : (s.runBy tracedExec rounds (Tree.loadAll next trees).1).1.depth ≠ 0) :
    (s.runBy tracedExec rounds (Tree.loadAll next trees).1).1.place.HaltedAmong pieces ∧
      report.line = (s.runBy tracedExec rounds (Tree.loadAll next trees).1).1.line := by
  have hleads := leads_tracedAction (W := W) rounds hreads hsize hmarks next
  unfold runBy at hfault hdepth ⊢
  cases hrun : actionBy tracedExec rounds (Tree.loadAll next trees).1 s with
  | ok _ t =>
    rw [hrun] at hfault
    cases hfault
  | error halt t =>
    rw [hrun] at hfault hdepth
    cases halt with
    | exit => cases hfault
    | interrupted reason => cases hfault
    | crashed message => cases hfault
    | exhausted => cases hfault
    | fault cause =>
      cases hfault
      have hplace := t.place_settleFault cause t.line
      have hinside : t.depth ≠ 0 := fun hnone => hdepth ((congrArg Place.depth hplace).trans hnone)
      refine ⟨?_, (congrArg Place.line hplace).symm⟩
      change Place.HaltedAmong pieces (t.settleFault cause t.line).1.place
      rw [hplace]
      exact hleads.error ⟨hline, hstarts⟩ hrun cause rfl hinside

/-- Where a fault inside a source comes from. -/
theorem tracedEval_haltedAmong (s : Session W) {rounds : Nat} {src : Bytes} {report : Report}
    (hmarks : ∀ token ∈ Token.scan src, token.isLineMark = false)
    (hsize : 1 + Token.newlines (Token.scan src) < sizeBound)
    (hfault : (s.traced.evalBy tracedExec rounds src).2 = .fault report)
    (hdepth : (s.traced.evalBy tracedExec rounds src).1.depth ≠ 0) :
    ∃ pieces, Token.scan src = Piece.allTokens pieces ∧ (∀ p ∈ pieces, p.IsWhole) ∧
      (s.traced.evalBy tracedExec rounds src).1.place.HaltedAmong pieces ∧
      report.line = (s.traced.evalBy tracedExec rounds src).1.line := by
  obtain ⟨journal, hstart⟩ :=
    ({ s.traced.atRest with line := 1 } : Session (Traced W)).exists_parse src
  have hresult := ({ s.traced.atRest with line := 1 } : Session (Traced W)).parse_result src
  unfold evalBy at hfault hdepth ⊢
  rcases hparse : ({ s.traced.atRest with line := 1 } : Session (Traced W)).parse src with
    ⟨t, result⟩
  rw [hparse] at hstart hresult hfault hdepth
  cases hreader : (Reader.start.parse src).2 with
  | error error =>
    rw [hreader] at hresult
    cases hresult
    have hplace := t.place_settleFault (.unreadable error.problem) error.line
    have hnone : t.depth = 0 := congrArg Session.depth hstart
    exact absurd ((congrArg Place.depth hplace).trans hnone) hdepth
  | ok trees =>
    rw [hreader] at hresult
    cases hresult
    obtain ⟨pieces, hpieces, hreads⟩ := Reader.exists_pieces hreader
    rw [hpieces] at hmarks hsize
    have hhalted := tracedRun_haltedAmong (congrArg Session.line hstart)
      (congrArg Session.starts hstart) hreads hsize hmarks hfault hdepth
    exact ⟨pieces, hpieces, hreads.isWhole, hhalted⟩

/-- A fault inside a source without instructions for the line is one of an outermost element or
list.  It is told of on the line of the last newline outside all lists before that piece, unless
the line was set last inside a list.  That is the line counted at the piece if and only if no
list between the two extends over several lines. -/
theorem eval_fault_line (s : Session W) (rounds : Nat) (src : Bytes) (line : Int)
    (hmarks : ∀ token ∈ Token.scan src, token.isLineMark = false)
    (hsize : 1 + Token.newlines (Token.scan src) < sizeBound)
    (hfault : (s.eval rounds src).2.faultLine? = some line)
    (hinside : (s.eval rounds src).1.depth ≠ 0)
    (hkept : Start.lineLost (s.startsOf rounds src) = false) :
    ∃ site : Site (Token.scan src), Start.outermost (s.startsOf rounds src) = site.index ∧
      line = site.rowLine ∧ (line = site.line ↔ Piece.newlines site.row = 0) := by
  have heval : s.eval rounds src = _ := unobtrusive_tracedExec.eval s.traced rounds src
  rw [heval] at hfault hinside
  obtain ⟨report, hreport, rfl⟩ := Outcome.exists_of_faultLine? hfault
  obtain ⟨pieces, hpieces, hwhole, hhalted, hline⟩ :=
    s.tracedEval_haltedAmong hmarks hsize hreport hinside
  obtain ⟨before, row, piece, rest, rfl, hrows, hpiece, _, honLine⟩ := hhalted
  have hrow : report.line = (1 + Piece.newlines before : Nat) := hline.trans (honLine.line_eq hkept)
  refine ⟨⟨before, row, piece, rest, hpieces, hwhole, hrows, hpiece⟩, honLine.count_eq, hrow, ?_⟩
  simp only [Site.line, Piece.newlines_append, hrow]
  omega

/-- The source runs a list, and in its second line a list that faults, after a list over three
lines. -/
def longListSource : Bytes := ascii "(7) 1 .if\n(\n(\n)) (.die) 1 .if"

theorem eval_fault_line_longListSource :
    (overNoFiles.eval 0 longListSource).2.faultLine? = some 2 ∧
      ∃ site : Site (Token.scan longListSource), site.index = 9 ∧ site.rowLine = 2 := by
  have hsource : (∀ token ∈ Token.scan longListSource, token.isLineMark = false) ∧
      1 + Token.newlines (Token.scan longListSource) < sizeBound := by decide +kernel
  have heval : (overNoFiles.eval 0 longListSource).2.faultLine? = some 2 ∧
      (overNoFiles.eval 0 longListSource).1.depth ≠ 0 := by decide +kernel
  have hstarts : Start.lineLost (overNoFiles.startsOf 0 longListSource) = false ∧
      Start.outermost (overNoFiles.startsOf 0 longListSource) = 9 := by decide +kernel
  obtain ⟨site, hindex, hrow, _⟩ := eval_fault_line overNoFiles 0 longListSource 2
    hsource.1 hsource.2 heval.1 heval.2 hstarts.1
  refine ⟨heval.1, site, hindex.symm.trans hstarts.2, ?_⟩
  omega

/-- A fault after a list over two lines. -/
def afterListSource : Bytes := ascii "(\n) .die"

/-- No line is set in the run, and the fault is told of on line 1, but 2 is counted where it is. -/
theorem eval_afterListSource_misses_line :
    (∀ token ∈ Token.scan afterListSource, token.isLineMark = false) ∧
      Start.lineLost (overNoFiles.startsOf 0 afterListSource) = false ∧
      (overNoFiles.eval 0 afterListSource).1.depth = 1 ∧
      (overNoFiles.eval 0 afterListSource).2.faultLine? = some 1 ∧
      ∃ site : Site (Token.scan afterListSource),
        Start.outermost (overNoFiles.startsOf 0 afterListSource) = site.index ∧ site.line = 2 := by
  have hscan : Token.scan afterListSource =
      Piece.allTokens [.list [.newline], .element (.dotted (ascii ".die"))] := by decide +kernel
  have hlist : Token.Balanced [.newline] :=
    ⟨(Token.fits_of_ne (by decide) (by decide)).2 (Token.fits_nil 0), rfl⟩
  have hwhole : ∀ p ∈ [Piece.list [.newline], .element (.dotted (ascii ".die"))], p.IsWhole :=
    List.forall_mem_cons.2 ⟨hlist, List.forall_mem_singleton.2 ⟨nofun, nofun, nofun⟩⟩
  have hmarks : ∀ token ∈ Token.scan afterListSource, token.isLineMark = false := by
    decide +kernel
  have heval : (overNoFiles.eval 0 afterListSource).1.depth = 1 ∧
      (overNoFiles.eval 0 afterListSource).2.faultLine? = some 1 := by decide +kernel
  have hstarts : Start.lineLost (overNoFiles.startsOf 0 afterListSource) = false ∧
      Start.outermost (overNoFiles.startsOf 0 afterListSource) = 2 := by decide +kernel
  have hcounted : 1 + Piece.newlines [.list [.newline]] = 2 := by decide +kernel
  refine ⟨hmarks, hstarts.1, heval.1, heval.2, ?_⟩
  exact ⟨⟨[], [.list [.newline]], .element (.dotted (ascii ".die")), [], hscan, hwhole,
    ⟨.inl rfl, by decide⟩, nofun⟩, hstarts.2, hcounted⟩

end Session

end StackScript
