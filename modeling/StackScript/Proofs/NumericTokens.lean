import StackScript.Proofs.Gathering
import StackScript.Proofs.Markers
set_option autoImplicit false

/-!
# Numeric tokens

A number in a source is met twice: the reader takes the token as a whole for a number, and
where it cannot, it leaves the token as a text, of which the evaluator reads as much as is a
number when it comes to execute it.  Both come to the same number.  A token of digits and
points is a numeral and what is left over from a second point on; the reader refuses it
exactly if something is left over or the number is too large, and the evaluator takes the
numeral either way.
-/

namespace StackScript

/-- A numeric token: an optional minus sign, a digit, and then digits and points. -/
def Token.IsNumeric (token : Bytes) : Prop :=
  ∃ neg d tail, token = Double.sign neg ++ d :: tail ∧ isDigit d = true ∧
    ∀ b ∈ tail, isNumeralByte b = true

/-! ## Cutting a token at its second point -/

/-- Digits and points start with digits, and then comes a point if anything. -/
theorem exists_span_numeral {text : Bytes} (h : ∀ b ∈ text, isNumeralByte b = true) :
    ∃ digits after, text = digits ++ after ∧ (∀ b ∈ digits, isDigit b = true) ∧
      ∀ b, after.head? = some b → b = 46 := by
  refine ⟨text.takeWhile isDigit, text.dropWhile isDigit, List.takeWhile_append_dropWhile.symm,
    ?_, ?_⟩
  · intro b hb
    exact List.all_eq_true.1 List.all_takeWhile b hb
  · intro b hb
    have hnot : isDigit b = false := by
      have hhead := List.head?_dropWhile_not isDigit text
      rw [hb] at hhead
      simpa using hhead
    have hmem : b ∈ text := (List.dropWhile_sublist isDigit).subset (List.mem_of_head? hb)
    have hbyte := h b hmem
    rw [isNumeralByte, hnot, Bool.false_or] at hbyte
    exact eq_of_beq hbyte

/-- A numeric token is a numeral, up to its second point, and what is left over. -/
theorem Token.IsNumeric.exists_heads {token : Bytes} (h : Token.IsNumeric token) :
    ∃ n more, Numeral.Heads n token more := by
  obtain ⟨neg, d, tail, rfl, hd, htail⟩ := h
  obtain ⟨digits, after, rfl, hdigits, hafter⟩ := exists_span_numeral htail
  have hwhole : ∀ b ∈ d :: digits, isDigit b = true := List.forall_mem_cons.2 ⟨hd, hdigits⟩
  cases after with
  | nil =>
    refine ⟨⟨neg, d :: digits, none, none⟩, [], ?_, by simp, hwhole, by simp, rfl, fun _ => rfl,
      by simp⟩
    simp [Numeral.lexeme, Double.sign]
  | cons point rest =>
    have hpoint : point = 46 := hafter point rfl
    subst hpoint
    have hrest : ∀ b ∈ rest, isNumeralByte b = true := by
      intro b hb
      exact htail b (by simp [hb])
    obtain ⟨fraction, more, rfl, hfraction, hmore⟩ := exists_span_numeral hrest
    refine ⟨⟨neg, d :: digits, some fraction, none⟩, more, ?_, by simp, hwhole, ?_, rfl, by simp,
      hmore⟩
    · simp [Numeral.lexeme, Double.sign]
    · rintro ds hds
      cases hds
      exact hfraction

theorem Token.IsNumeric.spelling {token : Bytes} (h : Token.IsNumeric token) :
    ∃ b s, token = b :: s ∧ startsNumber (b :: s) = true ∧ ∀ c ∈ s, isNumeralByte c = true := by
  obtain ⟨neg, d, tail, rfl, hd, htail⟩ := h
  cases neg with
  | true =>
    refine ⟨45, d :: tail, rfl, hd, ?_⟩
    exact List.forall_mem_cons.2 ⟨by simp [isNumeralByte, hd], htail⟩
  | false =>
    have hminus : d ≠ 45 := by
      rintro rfl
      exact absurd hd (by decide)
    exact ⟨d, tail, rfl, by simp [startsNumber, hminus, hd], htail⟩

/-! ## What the reader and the evaluator make of a token -/

/-- The reader makes one element of the token: the number, unless something is left over or
the number is too large, and then the token itself. -/
theorem Token.IsNumeric.parse {token more : Bytes} {n : Numeral} (h : Token.IsNumeric token)
    (hn : n.Heads token more) :
    (Reader.start.parse token).2 =
      .ok [if more = [] ∧ (Double.ofDecimal n.neg n.decimal).isFinite = true
        then .number (Double.ofDecimal n.neg n.decimal) else .text token] := by
  have hread : Tree.ofNumeral token =
      if more = [] ∧ (Double.ofDecimal n.neg n.decimal).isFinite = true
      then .number (Double.ofDecimal n.neg n.decimal) else .text token := by
    unfold Tree.ofNumeral
    rw [hn.ofBytes?_eq]
    by_cases hwhole : more = [] ∧ (Double.ofDecimal n.neg n.decimal).isFinite = true
    · rw [if_pos hwhole, if_pos hwhole]
    · rw [if_neg hwhole, if_neg hwhole]
  obtain ⟨b, s, rfl, hstart, hbytes⟩ := h.spelling
  have hfirst := @Token.first_numeral b s [] hstart hbytes (by simp)
  have hscan : Token.scan (b :: s) = [.numeral (b :: s)] := by
    rw [List.append_nil] at hfirst
    rw [Token.scan_cons, hfirst, Token.scan_nil]
    rfl
  rw [← hread]
  change (Tree.build _ [] [] (Token.scan (b :: s))).result = _
  rw [hscan]
  rfl

/-- A text that starts like a number is no symbol. -/
theorem startsSymbol_eq_false {b : UInt8} {s : Bytes} (h : startsNumber (b :: s) = true) :
    startsSymbol b = false := by
  cases hsymbol : startsSymbol b with
  | false => rfl
  | true =>
    obtain ⟨_, hdigit, hminus⟩ := Token.startsSymbol_class hsymbol
    simp [startsNumber, hminus, hdigit] at h

/-- A number that is the whole of a text is the number at its start. -/
theorem Double.ofLeading_of_ofBytes? {text : Bytes} {x : Double} (h : ofBytes? text = some x) :
    ofLeading text = x := by
  unfold ofBytes? at h
  unfold ofLeading
  split at h
  · rename_i n hread
    rw [hread]
    split at h
    · exact Option.some.inj h
    · cases h
  · cases h

section Execution

variable {W : Type} [FileSystem W]

/-- A text that starts like a number is executed as the number that it starts with. -/
theorem step_numeral {b : UInt8} {s : Bytes} (h : startsNumber (b :: s) = true)
    (run : Action.Runner W) (rounds : Nat) :
    step run rounds (.text (b :: s)) = Action.push (.number (Double.ofLeading (b :: s))) := by
  simp [step, startsSymbol_eq_false h, h]

namespace Session

omit [FileSystem W] in
theorem exists_push (s : Session W) (v : Value) :
    ∃ t, Action.push v s = .ok () t ∧ t.stack = s.stack.push v := by
  obtain ⟨journal, hnote⟩ := s.exists_noteAt .trace fun _ => ascii "push " ++ v.format
  refine ⟨_, rfl, ?_⟩
  change (s.noteAt .trace fun _ => ascii "push " ++ v.format).stack.push v = _
  rw [hnote]

/-- A program of one element that puts a value on the stack does so in every session that is
not interrupted and has room for a program to run, and elsewhere leaves the stack alone. -/
theorem stack_run_single {rounds : Nat} {v x : Value}
    (hstep : ∀ run : Action.Runner W, step run rounds v = Action.push x) (s : Session W) :
    (s.run rounds [v]).1.stack =
      if s.interrupt = none ∧ 0 < s.limit then s.stack.push x else s.stack := by
  have hrun : (s.run rounds [v]).1.stack =
      finalView Session.stack (exec rounds s.limit [v] s.atRest) :=
    Session.view_run (fun _ _ _ => rfl) s rounds [v]
  rw [hrun]
  cases hlimit : s.limit with
  | zero =>
    rw [if_neg (by simp)]
    rfl
  | succ levels =>
    let u : Session W := { s.atRest with depth := s.atRest.depth + 1 }
    cases hinterrupt : s.interrupt with
    | none =>
      obtain ⟨t, hpush, hstack⟩ := u.exists_push x
      have hwalk : walk (step (exec rounds levels) rounds) [v] u = .ok () t :=
        walk_of_ok hinterrupt ((congrFun (hstep _) u).trans hpush)
      rw [exec_of_ok hwalk, if_pos (by simp)]
      exact hstack
    | some reason =>
      have hwalk : walk (step (exec rounds levels) rounds) [v] u = .error (.interrupted reason) u :=
        Action.bind_of_error (Action.checkpoint_of_some hinterrupt)
      have hexec : exec rounds (levels + 1) [v] s.atRest = .error (.interrupted reason) u :=
        (Action.bind_of_ok rfl).trans (Action.bind_of_error hwalk)
      rw [hexec, if_neg (by simp)]
      rfl

/-- So does a source that reads as one element. -/
theorem stack_eval_single {rounds : Nat} {src : Bytes} {tree : Tree} {v x : Value}
    (hparse : (Reader.start.parse src).2 = .ok [tree])
    (hload : ∀ next, (tree.load next).1 = v)
    (hstep : ∀ run : Action.Runner W, step run rounds v = Action.push x) (s : Session W) :
    (s.eval rounds src).1.stack =
      if s.interrupt = none ∧ 0 < s.limit then s.stack.push x else s.stack := by
  let u : Session W := { s.atRest with line := 1 }
  have hresult : (u.parse src).2 = .ok [v] := by
    rw [u.parse_result, hparse]
    exact congrArg (fun v => Except.ok [v]) (hload _)
  obtain ⟨journal, hstate⟩ := u.exists_parse src
  have heval : s.eval rounds src = (u.parse src).1.run rounds [v] := by
    have hpair : ({ s.atRest with line := 1 } : Session W).parse src =
        ((u.parse src).1, .ok [v]) := Prod.ext rfl hresult
    unfold Session.eval
    rw [hpair]
  rw [heval, stack_run_single hstep, hstate]
  rfl

/-- The text that a number is converted to takes its place. -/
theorem Stands.str {s r : Session W} {values : List Value} {f : Double}
    (h : s.Stands (values ++ [.number f]) r) (run : Action.Runner W) (rounds : Nat) :
    (StackScript.step run rounds (.text (ascii ".str"))).Yields s fun _ t =>
      t.Stands (values ++ [.text f.plain]) r := by
  refine h.step run rounds .str ?_
  intro t ht
  refine ht.popNumber.bind ?_
  rintro _ u ⟨rfl, hu⟩
  exact hu.push _

/-- Reader and evaluator read numbers alike.  A numeric token is a numeral and what is left
over.  The reader takes it for a number exactly if nothing is left over and the number is in
range, and makes a text of it otherwise; evaluating the token as a source and running the
program of its text have the same effect on the stack either way, and put the number of the
numeral on it unless nothing can be run at all.  And the text that a finite number is
converted to is executed as a number equal to it. -/
theorem numerals_read_alike (rounds : Nat) :
    (∀ token, Token.IsNumeric token → ∃ n more x, Numeral.Heads n token more ∧
      x = Double.ofDecimal n.neg n.decimal ∧
      (Reader.start.parse token).2 =
        .ok [if more = [] ∧ x.isFinite = true then .number x else .text token] ∧
      ∀ s : Session W,
        (s.eval rounds token).1.stack = (s.run rounds [.text token]).1.stack ∧
        (s.run rounds [.text token]).1.stack =
          if s.interrupt = none ∧ 0 < s.limit then s.stack.push (.number x) else s.stack) ∧
    ∀ f : Double, f.isFinite = true → ∃ text y, y.eq f = true ∧
      (∀ (run : Action.Runner W) (s r : Session W) (values : List Value),
        s.Stands (values ++ [.number f]) r →
        (step run rounds (.text (ascii ".str"))).Yields s fun _ t =>
          t.Stands (values ++ [.text text]) r) ∧
      (∀ run : Action.Runner W, step run rounds (.text text) = Action.push (.number y)) ∧
      ∀ s : Session W, (s.run rounds [.text text]).1.stack =
        if s.interrupt = none ∧ 0 < s.limit then s.stack.push (.number y) else s.stack := by
  refine ⟨?_, ?_⟩
  · intro token htoken
    obtain ⟨n, more, hn⟩ := htoken.exists_heads
    have hstep : ∀ run : Action.Runner W, step run rounds (.text token) =
        Action.push (.number (Double.ofDecimal n.neg n.decimal)) := by
      intro run
      obtain ⟨b, s, rfl, hstart, _⟩ := htoken.spelling
      rw [step_numeral hstart, hn.ofLeading_eq]
    have hparse := htoken.parse hn
    refine ⟨n, more, _, hn, rfl, hparse, ?_⟩
    intro s
    have hrun := stack_run_single hstep s
    refine ⟨?_, hrun⟩
    rw [hrun]
    -- whichever element the reader makes of the token, it is executed as the number
    split at hparse
    · exact stack_eval_single hparse (fun _ => rfl) (fun _ => rfl) s
    · exact stack_eval_single hparse (fun _ => rfl) hstep s
  · intro f hf
    obtain ⟨y, hread, heq⟩ := Double.exists_ofBytes?_plain hf
    have hstep : ∀ run : Action.Runner W,
        step run rounds (.text f.plain) = Action.push (.number y) := by
      intro run
      obtain ⟨b, s, hplain, hstart, _⟩ := Double.plain_spelling hf
      rw [hplain] at hread ⊢
      rw [step_numeral hstart, Double.ofLeading_of_ofBytes? hread]
    exact ⟨f.plain, y, heq, fun run _ _ _ h => h.str run rounds, hstep, stack_run_single hstep⟩

end Session

end Execution

/-- A negative number beyond the range of numbers, with a point too many. -/
def farAndLeftOver : Bytes := 45 :: 57 :: (List.replicate 400 57 ++ ascii ".5.2")

theorem isNumeric_farAndLeftOver : Token.IsNumeric farAndLeftOver :=
  ⟨true, 57, _, rfl, by decide, by decide +kernel⟩

/-- The token is a text to the reader, and both ways of executing it put an infinity on the
stack; a tenth is converted to a text that is executed as a tenth. -/
theorem Session.numerals_read_alike_farAndLeftOver :
    Token.IsNumeric farAndLeftOver ∧
      (Reader.start.parse farAndLeftOver).2 = .ok [.text farAndLeftOver] ∧
      (oneText.eval 0 farAndLeftOver).1.stack = oneText.stack.push (.number (.infinite true)) ∧
      (oneText.run 0 [.text farAndLeftOver]).1.stack =
        oneText.stack.push (.number (.infinite true)) ∧
      (Double.ofLeading (ascii "0.1")).isFinite = true ∧
      ∃ text y, ∃ t : Session MemoryFiles, y.eq (Double.ofLeading (ascii "0.1")) = true ∧
        step (fun _ => pure ()) 0 (.text (ascii ".str"))
          (oneText.holding [.number (Double.ofLeading (ascii "0.1"))]) = .ok () t ∧
        t.stack.toList = [.text text] ∧
        (oneText.run 0 [.text text]).1.stack = oneText.stack.push (.number y) := by
  have hfinite : (Double.ofLeading (ascii "0.1")).isFinite = true := by decide +kernel
  have hfar : Double.ofLeading farAndLeftOver = .infinite true := by decide +kernel
  obtain ⟨hnumerals, hconversion⟩ := numerals_read_alike (W := MemoryFiles) 0
  obtain ⟨n, more, x, hn, hx, hparse, hstack⟩ := hnumerals _ isNumeric_farAndLeftOver
  rw [← hn.ofLeading_eq, hfar] at hx
  subst x
  obtain ⟨heval, hrun⟩ := hstack oneText
  obtain ⟨text, y, heq, hstr, _, hback⟩ := hconversion _ hfinite
  obtain ⟨_, t, hstep, ht⟩ := hstr (fun _ => pure ()) _ oneText.rest [] (oneText.stands_holding _)
  exact ⟨isNumeric_farAndLeftOver, hparse.trans (by simp [Double.isFinite]), heval.trans hrun, hrun,
    hfinite, text, y, t, heq, hstep, ht.toList, hback oneText⟩

end StackScript
