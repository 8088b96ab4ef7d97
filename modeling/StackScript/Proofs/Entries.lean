import StackScript.Prompt
set_option autoImplicit false

/-!
# What becomes of the lines entered

A read-eval loop puts the lines it receives together to entries.  At every prompt the lines
so far fall into portions, in the order in which they came: those of an entry that was
evaluated, those of an entry that was blank, those dropped at an aborted prompt, and after
them the lines that still wait for the rest of their entry.

One answer keeps such an account, so a whole run does.  The session that a run leaves is the
one that evaluating the entries of the history leaves, once each and in order, and the run
is over after the first of them that ends it.
-/

namespace StackScript

/-! ## Portions of the input -/

/-- The text of an entry of several lines. -/
def entryOf (lines : List Bytes) : Bytes := Bytes.join [newline] lines

theorem Bytes.join_snoc (sep last : Bytes) {parts : List Bytes} (h : parts ≠ []) :
    join sep (parts ++ [last]) = join sep parts ++ sep ++ last := by
  induction parts with
  | nil => exact absurd rfl h
  | cons part rest ih =>
    cases rest with
    | nil => rfl
    | cons next rest =>
      have hrest := ih (List.cons_ne_nil next rest)
      simp only [List.cons_append] at hrest ⊢
      simp only [join, hrest, List.append_assoc]

/-- Lines that wait for the rest of their entry: after each of them the entry so far is not
blank and has an unclosed parenthesis. -/
def Waiting (lines : List Bytes) : Prop :=
  ∀ front, front <+: lines → front ≠ [] →
    Text.isAllBlank (entryOf front) = false ∧ Loop.isUnfinished (entryOf front) = true

theorem waiting_nil : Waiting [] := by
  intro front hfront hne
  exact absurd (List.prefix_nil.1 hfront) hne

theorem Waiting.snoc {lines : List Bytes} (h : Waiting lines) {line : Bytes}
    (hblank : Text.isAllBlank (entryOf (lines ++ [line])) = false)
    (hunfinished : Loop.isUnfinished (entryOf (lines ++ [line])) = true) :
    Waiting (lines ++ [line]) := by
  intro front hfront hne
  rcases List.prefix_concat_iff.1 hfront with rfl | hearlier
  · exact ⟨hblank, hunfinished⟩
  · exact h front hearlier hne

/-- An entry of which nothing is there is blank, so an entry that waits has a text. -/
theorem Waiting.entryOf_ne_nil {lines : List Bytes} (h : Waiting lines) (hne : lines ≠ []) :
    entryOf lines ≠ [] := by
  intro hempty
  have hblank := (h lines (List.prefix_refl lines) hne).1
  rw [hempty] at hblank
  simp [Text.isAllBlank, Text.decode] at hblank

/-- Lines that were received in a row, by what became of them. -/
inductive Portion where
  /-- an entry that was evaluated -/
  | entered (lines : List Bytes)
  /-- an entry that was blank -/
  | skipped (lines : List Bytes)
  /-- what was there of an entry when a prompt was aborted -/
  | dropped (lines : List Bytes)

namespace Portion

/-- The answers that a portion stands for. -/
def answers : Portion → List Answer
  | .entered lines => lines.map .line
  | .skipped lines => lines.map .line
  | .dropped lines => lines.map .line ++ [.aborted]

/-- The entry that was evaluated, if one was. -/
def entry? : Portion → Option Bytes
  | .entered lines => some (entryOf lines)
  | _ => none

/-- What makes a portion what it is.  An entry is over with the first line after which it is
blank or has no unclosed parenthesis. -/
def Settled : Portion → Prop
  | .entered lines => ∃ front last, lines = front ++ [last] ∧ Waiting front ∧
      Text.isAllBlank (entryOf lines) = false ∧ Loop.isUnfinished (entryOf lines) = false
  | .skipped lines => ∃ front last, lines = front ++ [last] ∧ Waiting front ∧
      Text.isAllBlank (entryOf lines) = true
  | .dropped lines => Waiting lines

end Portion

/-- The answers given so far are those of settled portions and, after them, lines that
wait. -/
structure Accounted (given : List Answer) (portions : List Portion) (waiting : List Bytes) :
    Prop where
  given_eq : given = portions.flatMap Portion.answers ++ waiting.map .line
  settled : ∀ p ∈ portions, p.Settled
  waiting : Waiting waiting

namespace Accounted

variable {given : List Answer} {portions : List Portion} {waiting : List Bytes}

theorem nil : Accounted [] [] [] := ⟨rfl, fun _ hp => absurd hp List.not_mem_nil, waiting_nil⟩

theorem settled_snoc (h : Accounted given portions waiting) {p : Portion} (hp : p.Settled) :
    ∀ q ∈ portions ++ [p], q.Settled := by
  intro q hq
  rcases List.mem_append.1 hq with hq | hq
  · exact h.settled q hq
  · rw [List.mem_singleton.1 hq]
    exact hp

/-- One more line of the entry that waits. -/
theorem wait (h : Accounted given portions waiting) {line : Bytes}
    (hblank : Text.isAllBlank (entryOf (waiting ++ [line])) = false)
    (hunfinished : Loop.isUnfinished (entryOf (waiting ++ [line])) = true) :
    Accounted (given ++ [.line line]) portions (waiting ++ [line]) := by
  refine ⟨?_, h.settled, h.waiting.snoc hblank hunfinished⟩
  rw [h.given_eq, List.map_append, List.append_assoc]
  rfl

/-- An answer that settles the lines that wait. -/
theorem settle (h : Accounted given portions waiting) {answer : Answer} {p : Portion}
    (hp : p.Settled) (hanswers : p.answers = waiting.map .line ++ [answer]) :
    Accounted (given ++ [answer]) (portions ++ [p]) [] := by
  refine ⟨?_, h.settled_snoc hp, waiting_nil⟩
  rw [h.given_eq, List.flatMap_append, List.flatMap_singleton, hanswers]
  simp only [List.map_nil, List.append_nil, List.append_assoc]

/-- Every entry evaluated is neither blank nor without its end. -/
theorem of_mem_entries (h : Accounted given portions waiting) {entry : Bytes}
    (hentry : entry ∈ portions.filterMap Portion.entry?) :
    Text.isAllBlank entry = false ∧ Loop.isUnfinished entry = false := by
  obtain ⟨p, hp, hsome⟩ := List.mem_filterMap.1 hentry
  have hsettled := h.settled p hp
  cases p with
  | entered lines =>
    obtain ⟨_, _, _, _, hblank, hfinished⟩ := hsettled
    cases hsome
    exact ⟨hblank, hfinished⟩
  | skipped lines => cases hsome
  | dropped lines => cases hsome

end Accounted

/-! ## Entries evaluated one after another -/

/-- How a loop ends after an entry that ended so, if it does. -/
def Outcome.loopEnd? : Outcome → Option LoopEnd
  | .done => none
  | .fault _ => none
  | .exit => some .finished
  | other => some (.stopped other)

namespace Session

variable {W : Type} [FileSystem W]

/-- The session after some entries. -/
def afterEntries (s : Session W) (rounds : Nat) (entries : List Bytes) : Session W :=
  entries.foldl (fun s entry => (s.eval rounds entry).1) s

/-- How some entries end, one after another. -/
def outcomesOf (s : Session W) (rounds : Nat) : List Bytes → List Outcome
  | [] => []
  | entry :: rest => (s.eval rounds entry).2 :: (s.eval rounds entry).1.outcomesOf rounds rest

theorem afterEntries_snoc (s : Session W) (rounds : Nat) (entries : List Bytes) (entry : Bytes) :
    s.afterEntries rounds (entries ++ [entry]) =
      ((s.afterEntries rounds entries).eval rounds entry).1 := by
  simp only [afterEntries, List.foldl_append, List.foldl_cons, List.foldl_nil]

theorem outcomesOf_append (s : Session W) (rounds : Nat) (entries more : List Bytes) :
    s.outcomesOf rounds (entries ++ more) =
      s.outcomesOf rounds entries ++ (s.afterEntries rounds entries).outcomesOf rounds more := by
  induction entries generalizing s with
  | nil => rfl
  | cons first rest ih =>
    simp only [List.cons_append, outcomesOf, ih]
    rfl

theorem outcomesOf_snoc (s : Session W) (rounds : Nat) (entries : List Bytes) (entry : Bytes) :
    s.outcomesOf rounds (entries ++ [entry]) =
      s.outcomesOf rounds entries ++ [((s.afterEntries rounds entries).eval rounds entry).2] :=
  s.outcomesOf_append rounds entries [entry]

end Session

/-! ## One answer -/

namespace Loop

variable {W : Type} [FileSystem W]

/-- A loop that has come to a prompt: it accounts for the answers given, its history and its
session are those of the entries evaluated, and none of these ended it. -/
structure Reached (s : Session W) (rounds : Nat) (given : List Answer) (portions : List Portion)
    (waiting : List Bytes) (loop : Loop W) : Prop where
  accounted : Accounted given portions waiting
  history : loop.history = portions.filterMap Portion.entry?
  entry : loop.entry = entryOf waiting
  session : loop.session = s.afterEntries rounds loop.history
  goesOn : ∀ o ∈ s.outcomesOf rounds loop.history, o.loopEnd? = none

theorem reached_start (s : Session W) (rounds : Nat) : Reached s rounds [] [] [] (start s) :=
  ⟨.nil, rfl, rfl, rfl, fun _ ho => absurd ho List.not_mem_nil⟩

theorem evaluate_eq (loop : Loop W) (rounds : Nat) (entry : Bytes) :
    loop.evaluate rounds entry =
      (⟨(loop.session.eval rounds entry).1, [], loop.history ++ [entry]⟩,
        (loop.session.eval rounds entry).2.loopEnd?) := by
  unfold evaluate
  rcases loop.session.eval rounds entry with ⟨session, outcome⟩
  cases outcome <;> rfl

namespace Reached

variable {s : Session W} {rounds : Nat} {given : List Answer} {portions : List Portion}
  {waiting : List Bytes} {loop : Loop W}

omit [FileSystem W] in
theorem extended_eq {loop : Loop W} (hentry : loop.entry = entryOf waiting)
    (hwaiting : Waiting waiting) (line : Bytes) :
    loop.extended line = entryOf (waiting ++ [line]) := by
  unfold extended
  rw [hentry]
  cases waiting with
  | nil => rfl
  | cons first rest =>
    have hne : entryOf (first :: rest) ≠ [] := hwaiting.entryOf_ne_nil (List.cons_ne_nil _ _)
    rw [if_neg (mt List.isEmpty_iff.1 hne)]
    exact (Bytes.join_snoc _ _ (List.cons_ne_nil _ _)).symm

/-- A prompt that is aborted drops the lines that wait. -/
theorem abort (h : Reached s rounds given portions waiting loop) :
    Reached s rounds (given ++ [.aborted]) (portions ++ [.dropped waiting]) []
      { loop with entry := [] } := by
  have hsettled : (Portion.dropped waiting).Settled := h.accounted.waiting
  refine ⟨h.accounted.settle hsettled rfl, ?_, rfl, h.session, h.goesOn⟩
  simp only [List.filterMap_append, List.filterMap_cons, Portion.entry?, List.filterMap_nil,
    List.append_nil]
  exact h.history

/-- A line after which the entry is blank is skipped with it. -/
theorem skip (h : Reached s rounds given portions waiting loop) {line : Bytes}
    (hblank : Text.isAllBlank (entryOf (waiting ++ [line])) = true) :
    Reached s rounds (given ++ [.line line]) (portions ++ [.skipped (waiting ++ [line])]) []
      { loop with entry := [] } := by
  have hsettled : (Portion.skipped (waiting ++ [line])).Settled :=
    ⟨waiting, line, rfl, h.accounted.waiting, hblank⟩
  refine ⟨h.accounted.settle hsettled List.map_append, ?_, rfl, h.session, h.goesOn⟩
  simp only [List.filterMap_append, List.filterMap_cons, Portion.entry?, List.filterMap_nil,
    List.append_nil]
  exact h.history

/-- A line after which the entry is neither blank nor over waits with it. -/
theorem wait (h : Reached s rounds given portions waiting loop) {line : Bytes}
    (hblank : Text.isAllBlank (entryOf (waiting ++ [line])) = false)
    (hunfinished : isUnfinished (entryOf (waiting ++ [line])) = true) :
    Reached s rounds (given ++ [.line line]) portions (waiting ++ [line])
      { loop with entry := entryOf (waiting ++ [line]) } :=
  ⟨h.accounted.wait hblank hunfinished, h.history, rfl, h.session, h.goesOn⟩

/-- A line with which an entry is over, so that it is evaluated. -/
theorem enter (h : Reached s rounds given portions waiting loop) {line : Bytes}
    (hblank : Text.isAllBlank (entryOf (waiting ++ [line])) = false)
    (hfinished : isUnfinished (entryOf (waiting ++ [line])) = false) :
    Accounted (given ++ [.line line]) (portions ++ [.entered (waiting ++ [line])]) [] ∧
      loop.history ++ [entryOf (waiting ++ [line])] =
        (portions ++ [Portion.entered (waiting ++ [line])]).filterMap Portion.entry? ∧
      (loop.session.eval rounds (entryOf (waiting ++ [line]))).1 =
        s.afterEntries rounds (loop.history ++ [entryOf (waiting ++ [line])]) ∧
      s.outcomesOf rounds (loop.history ++ [entryOf (waiting ++ [line])]) =
        s.outcomesOf rounds loop.history ++
          [(loop.session.eval rounds (entryOf (waiting ++ [line]))).2] := by
  have hsettled : (Portion.entered (waiting ++ [line])).Settled :=
    ⟨waiting, line, rfl, h.accounted.waiting, hblank, hfinished⟩
  refine ⟨h.accounted.settle hsettled List.map_append, ?_, ?_, ?_⟩
  · simp only [List.filterMap_append, List.filterMap_cons, Portion.entry?, List.filterMap_nil,
      h.history]
  · rw [Session.afterEntries_snoc, h.session]
  · rw [Session.outcomesOf_snoc, h.session]

end Reached

/-! ## Whole runs -/

/-- Why a loop is over.  Given are how its entries ended and the lines that wait; told are
its end, the answers after those that it accounts for, those never asked for, and how many
prompts were shown for none of the answers accounted for. -/
inductive Over (outcomes : List Outcome) (waiting : List Bytes) :
    LoopEnd → List Answer → List Answer → Nat → Prop where
  /-- the input ended at a prompt -/
  | input (goesOn : ∀ o ∈ outcomes, o.loopEnd? = none) : Over outcomes waiting .finished [] [] 1
  /-- a prompt failed -/
  | prompt (goesOn : ∀ o ∈ outcomes, o.loopEnd? = none) (error : Bytes) (unread : List Answer) :
      Over outcomes waiting (.promptFailed error) [.failed error] unread 1
  /-- an entry ended the loop, before the next prompt -/
  | entry {front : List Outcome} {last : Outcome} {ending : LoopEnd}
      (split : outcomes = front ++ [last]) (goesOn : ∀ o ∈ front, o.loopEnd? = none)
      (ends : last.loopEnd? = some ending) (none_waits : waiting = []) (unread : List Answer) :
      Over outcomes waiting ending [] unread 0

/-- What a prompt looks like after the answers given: it goes on with an entry if lines of
one wait, and these have an unclosed parenthesis. -/
def Prompts (given : List Answer) (prompt : Bytes) : Prop :=
  ∃ portions waiting, Accounted given portions waiting ∧
    (prompt = ascii "  ... " ↔ entryOf waiting ≠ []) ∧
    (prompt = ascii "psil> " ↔ entryOf waiting = []) ∧
    (entryOf waiting ≠ [] → isUnfinished (entryOf waiting) = true)

theorem Reached.prompts {s : Session W} {rounds : Nat} {given : List Answer}
    {portions : List Portion} {waiting : List Bytes} {loop : Loop W}
    (h : Reached s rounds given portions waiting loop) : Prompts given loop.prompt := by
  have hdiffer : ascii "psil> " ≠ ascii "  ... " := by decide
  refine ⟨portions, waiting, h.accounted, ?_⟩
  unfold prompt
  rw [h.entry]
  by_cases hempty : entryOf waiting = []
  · rw [if_pos (List.isEmpty_iff.2 hempty)]
    exact ⟨⟨fun hprompt => absurd hprompt hdiffer, fun hne => absurd hempty hne⟩,
      ⟨fun _ => hempty, fun _ => rfl⟩, fun hne => absurd hempty hne⟩
  · rw [if_neg (mt List.isEmpty_iff.1 hempty)]
    refine ⟨⟨fun _ => hempty, fun _ => rfl⟩,
      ⟨fun hprompt => absurd hprompt.symm hdiffer, fun h => absurd h hempty⟩, ?_⟩
    intro _
    have hne : waiting ≠ [] := by
      rintro rfl
      exact hempty rfl
    exact (h.accounted.waiting waiting (List.prefix_refl waiting) hne).2

/-- Where one prompt is shown, it is the one after the answers given. -/
theorem Prompts.only {given : List Answer} {prompt : Bytes} (h : Prompts given prompt)
    (answers : List Answer) :
    ∀ i shown, [prompt][i]? = some shown → Prompts (given ++ answers.take i) shown := by
  intro i shown hshown
  cases i with
  | zero =>
    cases hshown
    rw [List.take_zero, List.append_nil]
    exact h
  | succ i => cases hshown

/-- What is to be said of the run of a loop over answers, after others were given. -/
structure Faithful (s : Session W) (rounds : Nat) (given answers : List Answer)
    (transcript : Transcript W) (portions : List Portion) (waiting : List Bytes)
    (read stop : List Answer) (extra : Nat) : Prop where
  answers_eq : answers = read ++ stop ++ transcript.unread
  accounted : Accounted (given ++ read) portions waiting
  history : transcript.loop.history = portions.filterMap Portion.entry?
  session : transcript.loop.session = s.afterEntries rounds transcript.loop.history
  isOver : Over (s.outcomesOf rounds transcript.loop.history) waiting transcript.ending stop
    transcript.unread extra
  shown : transcript.prompts.length = read.length + extra
  prompts : ∀ i prompt, transcript.prompts[i]? = some prompt →
    Prompts (given ++ answers.take i) prompt

/-- A run that goes on after one answer, seen from before it. -/
theorem Faithful.cons {s : Session W} {rounds : Nat} {given answers : List Answer}
    {answer : Answer} {transcript : Transcript W} {portions : List Portion}
    {waiting : List Bytes} {read stop : List Answer} {extra : Nat} {prompt : Bytes}
    (h : Faithful s rounds (given ++ [answer]) answers transcript portions waiting read stop extra)
    (hprompt : Prompts given prompt) :
    Faithful s rounds given (answer :: answers)
      { transcript with prompts := prompt :: transcript.prompts } portions waiting
      (answer :: read) stop extra := by
  refine ⟨?_, ?_, h.history, h.session, h.isOver, ?_, ?_⟩
  · rw [h.answers_eq]
    rfl
  · rw [List.append_cons]
    exact h.accounted
  · simp only [List.length_cons, h.shown]
    omega
  · intro i shown hshown
    cases i with
    | zero =>
      cases hshown
      rw [List.take_zero, List.append_nil]
      exact hprompt
    | succ i =>
      rw [List.take_succ_cons, List.append_cons]
      exact h.prompts i shown hshown

/-- Whatever a loop at a prompt is answered, its run accounts for the answers. -/
theorem Reached.run {s : Session W} {rounds : Nat} (answers : List Answer) :
    ∀ {given : List Answer} {portions : List Portion} {waiting : List Bytes} {loop : Loop W},
      Reached s rounds given portions waiting loop →
      ∃ portions waiting read stop extra, Faithful s rounds given answers
        (loop.run rounds answers) portions waiting read stop extra := by
  induction answers with
  | nil =>
    intro given portions waiting loop h
    refine ⟨portions, waiting, [], [], 1, rfl, ?_, h.history, h.session, .input h.goesOn, rfl,
      h.prompts.only []⟩
    rw [List.append_nil]
    exact h.accounted
  | cons answer rest ih =>
    intro given portions waiting loop h
    -- what the rest of the run is to be said of, if the loop goes on after this answer
    have hgoesOn : ∀ {portions waiting next}, loop.feed rounds answer = (next, none) →
        Reached s rounds (given ++ [answer]) portions waiting next →
        ∃ portions waiting read stop extra, Faithful s rounds given (answer :: rest)
          (loop.run rounds (answer :: rest)) portions waiting read stop extra := by
      intro _ _ next hfeed hnext
      obtain ⟨portions, waiting, read, stop, extra, hrest⟩ := ih hnext
      refine ⟨portions, waiting, answer :: read, stop, extra, ?_⟩
      rw [Loop.run, hfeed]
      exact hrest.cons h.prompts
    cases answer with
    | aborted => exact hgoesOn rfl h.abort
    | failed error =>
      refine ⟨portions, waiting, [], [.failed error], 1, rfl, ?_, h.history, h.session,
        .prompt h.goesOn error rest, rfl, h.prompts.only _⟩
      rw [List.append_nil]
      exact h.accounted
    | line line =>
      have hextended := extended_eq h.entry h.accounted.waiting line
      cases hblank : Text.isAllBlank (entryOf (waiting ++ [line])) with
      | true =>
        refine hgoesOn ?_ (h.skip hblank)
        simp only [feed, hextended, hblank, if_true]
      | false =>
        cases hunfinished : isUnfinished (entryOf (waiting ++ [line])) with
        | true =>
          refine hgoesOn ?_ (h.wait hblank hunfinished)
          simp only [feed, hextended, hblank, hunfinished, Bool.false_eq_true, if_false, if_true]
        | false =>
          obtain ⟨haccounted, hhistory, hsession, houtcomes⟩ := h.enter hblank hunfinished
          have hfeed : loop.feed rounds (.line line) =
              loop.evaluate rounds (entryOf (waiting ++ [line])) := by
            simp only [feed, hextended, hblank, hunfinished, Bool.false_eq_true, if_false]
          rw [evaluate_eq] at hfeed
          cases hend : (loop.session.eval rounds (entryOf (waiting ++ [line]))).2.loopEnd? with
          | none =>
            rw [hend] at hfeed
            refine hgoesOn hfeed ⟨haccounted, hhistory, rfl, hsession, ?_⟩
            rw [houtcomes]
            intro o ho
            rcases List.mem_append.1 ho with ho | ho
            · exact h.goesOn o ho
            · rw [List.mem_singleton.1 ho]
              exact hend
          | some ending =>
            rw [hend] at hfeed
            refine ⟨portions ++ [.entered (waiting ++ [line])], [], [.line line], [], 0, ?_⟩
            rw [Loop.run, hfeed]
            exact ⟨rfl, haccounted, hhistory, hsession, .entry houtcomes h.goesOn hend rfl rest,
              rfl, h.prompts.only _⟩

/-- A read-eval loop neither loses nor repeats input.  The answers it read are those of
portions that are settled, after them lines that wait, and after these at most the failure
of a prompt.  It has evaluated the entries of its history, which are those of the portions,
once each and in order, up to the first that ends it; none of them is blank or has an
unclosed parenthesis.  Each of its prompts asks for more of an entry if and only if lines of
one wait, and then these have an unclosed parenthesis. -/
theorem run_accounts (s : Session W) (rounds : Nat) (answers : List Answer) :
    ∃ portions waiting read stop extra,
      answers = read ++ stop ++ ((start s).run rounds answers).unread ∧
      Accounted read portions waiting ∧
      ((start s).run rounds answers).loop.history = portions.filterMap Portion.entry? ∧
      (∀ entry ∈ ((start s).run rounds answers).loop.history,
        Text.isAllBlank entry = false ∧ isUnfinished entry = false) ∧
      ((start s).run rounds answers).loop.session =
        s.afterEntries rounds ((start s).run rounds answers).loop.history ∧
      Over (s.outcomesOf rounds ((start s).run rounds answers).loop.history) waiting
        ((start s).run rounds answers).ending stop ((start s).run rounds answers).unread extra ∧
      ((start s).run rounds answers).prompts.length = read.length + extra ∧
      ∀ i prompt, ((start s).run rounds answers).prompts[i]? = some prompt →
        Prompts (answers.take i) prompt := by
  obtain ⟨portions, waiting, read, stop, extra, h⟩ := (reached_start s rounds).run answers
  refine ⟨portions, waiting, read, stop, extra, h.answers_eq, h.accounted, h.history, ?_,
    h.session, h.isOver, h.shown, h.prompts⟩
  intro entry hentry
  rw [h.history] at hentry
  exact h.accounted.of_mem_entries hentry

end Loop

end StackScript
