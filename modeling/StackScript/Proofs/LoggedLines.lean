import StackScript.Log.LineWriter
import StackScript.Proofs.Lines
set_option autoImplicit false

/-!
# What a line writer logs

A line writer logs the complete lines of everything written to it, and at the end what
follows the last newline.  How the bytes are cut into writes has no part in it: a write logs
the lines that it completes, and of the writes before it only the line begun matters.
-/

namespace StackScript.LineWriter

open Bytes (Lines)

/-! ## Cutting a text into lines -/

theorem cut_newline (rest : Bytes) :
    cut (newline :: rest) = ([] :: (cut rest).1, (cut rest).2) := by
  simp only [cut, if_true]

theorem cut_cons_of_nil {b : UInt8} {rest last : Bytes} (hb : b ≠ newline)
    (hrest : cut rest = ([], last)) : cut (b :: rest) = ([], b :: last) := by
  simp only [cut, hrest, if_neg hb]

theorem cut_cons_of_cons {b : UInt8} {rest line last : Bytes} {lines : List Bytes}
    (hb : b ≠ newline) (hrest : cut rest = (line :: lines, last)) :
    cut (b :: rest) = ((b :: line) :: lines, last) := by
  simp only [cut, hrest, if_neg hb]

theorem lines_cut (text : Bytes) : Lines text (cut text).1 (cut text).2 := by
  induction text with
  | nil =>
    refine ⟨rfl, ?_, List.not_mem_nil⟩
    intro line hline
    cases hline
  | cons b rest ih =>
    by_cases hb : b = newline
    · rw [hb, cut_newline]
      refine ⟨congrArg (newline :: ·) ih.whole, ?_, ih.last_unbroken⟩
      exact List.forall_mem_cons.2 ⟨List.not_mem_nil, ih.lines_unbroken⟩
    · -- the byte goes to the front of the first line, which may be the unfinished one
      have hne : newline ≠ b := fun h => hb h.symm
      generalize hrest : cut rest = parts at ih
      obtain ⟨lines, last⟩ := parts
      cases lines with
      | nil =>
        rw [cut_cons_of_nil hb hrest]
        refine ⟨congrArg (b :: ·) ih.whole, ih.lines_unbroken, ?_⟩
        exact List.not_mem_cons_of_ne_of_not_mem hne ih.last_unbroken
      | cons line lines =>
        rw [cut_cons_of_cons hb hrest]
        obtain ⟨hline, hlines⟩ := List.forall_mem_cons.1 ih.lines_unbroken
        refine ⟨congrArg (b :: ·) ih.whole, ?_, ih.last_unbroken⟩
        exact List.forall_mem_cons.2 ⟨List.not_mem_cons_of_ne_of_not_mem hne hline, hlines⟩

theorem cut_of_unbroken {last : Bytes} (h : newline ∉ last) : cut last = ([], last) := by
  induction last with
  | nil => rfl
  | cons b rest ih =>
    obtain ⟨hb, hrest⟩ := List.ne_and_not_mem_of_not_mem_cons h
    exact cut_cons_of_nil (fun hsame => hb hsame.symm) (ih hrest)

theorem cut_line_append {line : Bytes} (h : newline ∉ line) (rest : Bytes) :
    cut (line ++ newline :: rest) = (line :: (cut rest).1, (cut rest).2) := by
  induction line with
  | nil => exact cut_newline rest
  | cons b line ih =>
    obtain ⟨hb, hline⟩ := List.ne_and_not_mem_of_not_mem_cons h
    exact cut_cons_of_cons (fun hsame => hb hsame.symm) (ih hline)

/-- There is no other way to cut. -/
theorem cut_of_lines {text last : Bytes} {lines : List Bytes} (h : Lines text lines last) :
    cut text = (lines, last) := by
  induction lines generalizing text with
  | nil =>
    rw [h.whole]
    exact cut_of_unbroken h.last_unbroken
  | cons line lines ih =>
    obtain ⟨hline, hlines⟩ := List.forall_mem_cons.1 h.lines_unbroken
    have hrest := ih ⟨rfl, hlines, h.last_unbroken⟩
    rw [h.whole, Bytes.ended_cons, List.append_assoc, List.append_assoc, List.singleton_append,
      cut_line_append hline, hrest]

/-! ## Writing -/

/-- A line writer after some writes. -/
def after (w : LineWriter) (chunks : List Bytes) : LineWriter :=
  chunks.foldl (fun w p => (w.write p).1) w

/-- What a line writer logs during some writes. -/
def logged (w : LineWriter) : (chunks : List Bytes) → List Bytes
  | [] => []
  | p :: rest => (w.write p).2 ++ (w.write p).1.logged rest

/-- Everything that a new line writer logs: during some writes, and when it is closed after
them. -/
def messages (label : Bytes) (chunks : List Bytes) : List Bytes :=
  (new label).logged chunks ++ ((new label).after chunks).close.2

variable {w : LineWriter} {text : Bytes} {lines : List Bytes}

/-- A write logs the lines that it completes, and keeps the line begun. -/
theorem exists_lines_write (h : Lines text lines w.unfinished) (p : Bytes) :
    ∃ more, Lines (text ++ p) (lines ++ more) (w.write p).1.unfinished ∧
      (w.write p).1.label = w.label ∧ (w.write p).2 = more.map (w.label ++ ·) :=
  ⟨(cut (w.unfinished ++ p)).1, h.append (lines_cut _), rfl, rfl⟩

/-- So do any number of writes. -/
theorem exists_lines_logged (h : Lines text lines w.unfinished) (chunks : List Bytes) :
    ∃ more, Lines (text ++ chunks.flatten) (lines ++ more) (w.after chunks).unfinished ∧
      (w.after chunks).label = w.label ∧ w.logged chunks = more.map (w.label ++ ·) := by
  induction chunks generalizing w text lines with
  | nil =>
    refine ⟨[], ?_, rfl, rfl⟩
    rwa [List.flatten_nil, List.append_nil, List.append_nil]
  | cons p chunks ih =>
    obtain ⟨first, hfirst, hlabel, hlogged⟩ := exists_lines_write h p
    obtain ⟨rest, hrest, hlabelRest, hloggedRest⟩ := ih hfirst
    refine ⟨first ++ rest, ?_, hlabelRest.trans hlabel, ?_⟩
    · rwa [List.flatten_cons, ← List.append_assoc, ← List.append_assoc]
    · rw [logged, hlogged, hloggedRest, hlabel, List.map_append]

/-- Closing logs the line begun, if there is one. -/
theorem close_messages (w : LineWriter) :
    w.close.2 = (if w.unfinished = [] then [] else [w.unfinished]).map (w.label ++ ·) := by
  unfold close
  cases w.unfinished with
  | nil => rfl
  | cons b rest => rfl

/-- A closed writer has no line begun. -/
theorem unfinished_close (w : LineWriter) : w.close.1.unfinished = [] := by
  unfold close
  split
  · rename_i hempty
    exact List.isEmpty_iff.1 hempty
  · rfl

/-- What is logged in all are the lines of what was written. -/
theorem messages_of_lines {label last : Bytes} {chunks : List Bytes}
    (h : Lines chunks.flatten lines last) :
    messages label chunks = (lines ++ if last = [] then [] else [last]).map (label ++ ·) := by
  have hnew : Lines [] [] (new label).unfinished := lines_cut []
  obtain ⟨more, hmore, hlabel, hlogged⟩ := exists_lines_logged hnew chunks
  have hsame : (more, ((new label).after chunks).unfinished) = (lines, last) :=
    (cut_of_lines hmore).symm.trans (cut_of_lines h)
  obtain ⟨rfl, hlast⟩ := Prod.mk.inj hsame
  rw [messages, hlogged, close_messages, hlabel, hlast, List.map_append]
  rfl

/-- A line writer logs the lines of what is written to it, in order, and when it is closed
the line begun, if there is one.  Another way of cutting the same bytes into writes logs the
same; each write logs the lines that it completes; and closing again logs nothing. -/
theorem messages_are_lines (label : Bytes) (chunks : List Bytes) :
    ∃ lines last, Lines chunks.flatten lines last ∧
      messages label chunks = (lines ++ if last = [] then [] else [last]).map (label ++ ·) ∧
      (∀ others : List Bytes, others.flatten = chunks.flatten →
        messages label others = messages label chunks) ∧
      (∀ p, ∃ more rest, Lines (chunks.flatten ++ p) (lines ++ more) rest ∧
        (((new label).after chunks).write p).2 = more.map (label ++ ·)) ∧
      ((new label).after chunks).close.1.close.2 = [] := by
  have hnew : Lines [] [] (new label).unfinished := lines_cut []
  obtain ⟨lines, hlines, hlabel, _⟩ := exists_lines_logged hnew chunks
  rw [List.nil_append, List.nil_append] at hlines
  refine ⟨lines, _, hlines, messages_of_lines hlines, ?_, ?_, ?_⟩
  · intro others hothers
    rw [messages_of_lines hlines, messages_of_lines (hothers ▸ hlines)]
  · intro p
    obtain ⟨more, hmore, _, hlogged⟩ := exists_lines_write hlines p
    rw [hlabel] at hlogged
    exact ⟨more, _, hmore, hlogged⟩
  · rw [close_messages, unfinished_close, if_pos rfl, List.map_nil]

/-- Two lines, an empty one between them, and a last one without its newline: cut at a newline
and inside a line, or not at all. -/
theorem messages_are_lines_twoWays :
    [ascii "one\n\ntw", ascii "o\nthree"].flatten = [ascii "one\n\ntwo\nthree"].flatten ∧
      messages (ascii "out: ") [ascii "one\n\ntwo\nthree"] =
        [ascii "out: one", ascii "out: ", ascii "out: two", ascii "out: three"] ∧
      messages (ascii "out: ") [ascii "one\n\ntw", ascii "o\nthree"] =
        messages (ascii "out: ") [ascii "one\n\ntwo\nthree"] := by
  have hbytes :
      [ascii "one\n\ntw", ascii "o\nthree"].flatten = [ascii "one\n\ntwo\nthree"].flatten := by
    decide +kernel
  obtain ⟨_, _, _, _, hsame, _⟩ :=
    messages_are_lines (ascii "out: ") [ascii "one\n\ntwo\nthree"]
  exact ⟨hbytes, by decide +kernel, hsame _ hbytes⟩

end StackScript.LineWriter
