import StackScript.Proofs.Pieces
import StackScript.Proofs.Seams
set_option autoImplicit false

/-!
# Readers that are used again

A reader keeps the lists that are open in frames, and keeps the frames for the next source.
`FrameReader` has them all: those in use, and those left over from earlier sources with
whatever was put into them.  However it was used before, also for sources that were refused
in the middle of a list, it reads the next source as `Reader` does, which has nothing but the
line (`FrameReader.agrees_parse`).

A source that is read and ends outside texts in backticks can therefore be cut off at a
newline: what follows the newline is read alone as it is read behind it.
-/

namespace StackScript

/-! ## Frames -/

/-- The storage of a reader for the lists that are open. -/
structure Frames where
  /-- what the open lists hold so far, innermost first -/
  inUse : List (List Tree)
  /-- the frames behind them, with what they held when they were used last -/
  left : List (List Tree)
  deriving Inhabited

namespace Frames

/-- No list is open.  What the frames hold stays where it is. -/
def clear (f : Frames) : Frames := ⟨[], f.inUse.reverse ++ f.left⟩

/-- Opens a list in the next frame, or in a new one behind the last. -/
def push (f : Frames) : Frames := ⟨[] :: f.inUse, f.left.tail⟩

/-- Puts a tree behind those of the innermost list. -/
def put (f : Frames) (t : Tree) : Frames :=
  match f.inUse with
  | [] => f
  | items :: outer => { f with inUse := (items ++ [t]) :: outer }

/-- Closes the innermost list, unless it is the source itself. -/
def pop? (f : Frames) : Option (List Tree × Frames) :=
  match f.inUse with
  | items :: outer :: rest => some (items, ⟨outer :: rest, items :: f.left⟩)
  | _ => none

/-- The frames hold what has been read of a source: `items` of the innermost list and `outer`
of those around it, latest first. -/
def Holds (f : Frames) (items : List Tree) (outer : List (List Tree)) : Prop :=
  f.inUse = (items :: outer).map List.reverse

theorem holds_push_clear (f : Frames) : f.clear.push.Holds [] [] := rfl

variable {f : Frames} {items : List Tree} {outer : List (List Tree)}

theorem Holds.push (h : f.Holds items outer) : f.push.Holds [] (items :: outer) :=
  congrArg (List.cons []) h

theorem Holds.put (h : f.Holds items outer) (t : Tree) : (f.put t).Holds (t :: items) outer := by
  unfold Holds at h ⊢
  unfold Frames.put
  rw [h]
  simp

end Frames

/-! ## A reader with its storage -/

/-- A reader with everything that it keeps between sources. -/
structure FrameReader where
  line : Nat
  /-- how many parentheses the source that was read last left open -/
  unclosed : Nat
  frames : Frames
  deriving Inhabited

namespace FrameReader

/-- A reader that has read nothing, at a line. -/
def fresh (line : Nat) : FrameReader := ⟨line, 0, ⟨[], []⟩⟩

/-- How many parentheses are open. -/
def depth (r : FrameReader) : Nat := r.frames.inUse.length - 1

/-- Puts a tree into the innermost list. -/
def emit (r : FrameReader) (t : Tree) : FrameReader := { r with frames := r.frames.put t }

/-- The reader after one more token. -/
def take (r : FrameReader) : Token → Except SyntaxError FrameReader
  | .newline =>
    .ok (({ r with line := r.line + 1 }.emit (.number (Double.ofNat (r.line + 1)))).emit
      (.text Tree.lineMark))
  | .opening => .ok { r with frames := r.frames.push }
  | .closing =>
    match r.frames.pop? with
    | none => .error ⟨r.line, .unexpectedClosing⟩
    | some (items, frames) => .ok ({ r with frames := frames }.emit (.list items))
  | .numeral s => .ok (r.emit (Tree.ofNumeral s))
  | .quoted s => .ok (r.emit (.text s))
  | .symbol s => .ok (r.emit (.text s))
  | .dotted s => .ok (r.emit (.text s))
  | .operator s => .ok (r.emit (.text s))

/-- The reader at the end of a source, and what it has read. -/
def finish (r : FrameReader) : FrameReader × Except SyntaxError (List Tree) :=
  if 0 < r.depth then
    ({ r with unclosed := r.depth, frames := r.frames.clear }, .error ⟨r.line, .unclosed r.depth⟩)
  else ({ r with frames := r.frames.clear }, .ok (r.frames.inUse.headD []))

/-- Reads the remaining tokens of a source. -/
def readOn (r : FrameReader) : List Token → FrameReader × Except SyntaxError (List Tree)
  | [] => r.finish
  | token :: rest =>
    match r.take token with
    | .ok next => next.readOn rest
    | .error error => ({ r with frames := r.frames.clear }, .error error)

/-- Reads one more source. -/
def parse (r : FrameReader) (src : Bytes) : FrameReader × Except SyntaxError (List Tree) :=
  readOn ⟨max r.line 1, 0, r.frames.clear.push⟩ (Token.scan src)

/-- Whether a source would be well formed if only it went on to close its parentheses. -/
def isUnclosed (r : FrameReader) (src : Bytes) : Bool :=
  !(r.parse src).2.isOk && 0 < (r.parse src).1.unclosed

/-- How many parentheses a reading found left open. -/
def openAfter : Except SyntaxError (List Tree) → Nat
  | .error ⟨_, .unclosed count⟩ => count
  | _ => 0

/-- A reader with its storage has come to what the passes over a source without storage come
to, and no list is open in it. -/
structure Agrees (reading : Reading) (r : FrameReader) (result : Except SyntaxError (List Tree)) :
    Prop where
  line : r.line = reading.line
  result : result = reading.result
  unclosed : r.unclosed = openAfter reading.result
  closed : r.frames.inUse = []

variable {frames : Frames} {items : List Tree} {outer : List (List Tree)}

theorem agrees_finish (line : Nat) (h : frames.Holds items outer) :
    Agrees (Tree.build line items outer []) (finish ⟨line, 0, frames⟩).1
      (finish ⟨line, 0, frames⟩).2 := by
  have hdepth : depth ⟨line, 0, frames⟩ = outer.length := by
    unfold depth
    rw [h]
    simp
  unfold finish
  rw [hdepth]
  cases outer with
  | nil =>
    refine ⟨rfl, ?_, rfl, rfl⟩
    rw [h]
    rfl
  | cons above outer => exact ⟨rfl, rfl, rfl, rfl⟩

/-- What the frames in use hold is all that matters for the rest of a source. -/
theorem agrees_readOn (ts : List Token) : ∀ (line : Nat) {frames : Frames} {items : List Tree}
    {outer : List (List Tree)}, frames.Holds items outer →
    Agrees (Tree.build line items outer ts) (readOn ⟨line, 0, frames⟩ ts).1
      (readOn ⟨line, 0, frames⟩ ts).2 := by
  induction ts with
  | nil => exact fun line _ _ _ h => agrees_finish line h
  | cons token ts ih =>
    intro line frames items outer h
    cases token with
    | newline => exact ih (line + 1) ((h.put _).put _)
    | opening => exact ih line h.push
    | closing =>
      cases outer with
      | nil =>
        have hpop : frames.pop? = none := by
          unfold Frames.pop?
          rw [h]
          rfl
        simp only [readOn, take, hpop]
        exact ⟨rfl, rfl, rfl, rfl⟩
      | cons above outer =>
        have hpop : frames.pop? = some (items.reverse,
            ⟨(above :: outer).map List.reverse, items.reverse :: frames.left⟩) := by
          unfold Frames.pop?
          rw [h]
          rfl
        have habove : Frames.Holds ⟨(above :: outer).map List.reverse,
            items.reverse :: frames.left⟩ above outer := rfl
        simp only [readOn, take, hpop]
        exact ih line (habove.put _)
    | quoted s => exact ih line (h.put _)
    | numeral s => exact ih line (h.put _)
    | symbol s => exact ih line (h.put _)
    | dotted s => exact ih line (h.put _)
    | operator s => exact ih line (h.put _)

/-- However a reader was used before, it reads a source as one does that has nothing but its
line. -/
theorem agrees_parse (r : FrameReader) (src : Bytes) :
    Agrees (Tree.read (max r.line 1) src) (r.parse src).1 (r.parse src).2 :=
  agrees_readOn (Token.scan src) (max r.line 1) r.frames.holds_push_clear

end FrameReader

/-! ## Balanced tokens in front -/

namespace Token

theorem openings_append (ts us : List Token) :
    openings (ts ++ us) = openings ts + openings us :=
  List.count_append

theorem closings_append (ts us : List Token) :
    closings (ts ++ us) = closings ts + closings us :=
  List.count_append

theorem newlines_append (ts us : List Token) :
    newlines (ts ++ us) = newlines ts + newlines us :=
  List.count_append

/-- Closing parentheses find partners behind tokens if they do with what these leave open. -/
theorem fits_append {depth : Nat} {ts us : List Token} (h : Fits depth ts) :
    Fits depth (ts ++ us) ↔ Fits (depth + openings ts - closings ts) us := by
  have hts := h ts (List.prefix_refl ts)
  constructor
  · intro hall front hfront
    have hle := hall (ts ++ front) ((List.prefix_append_right_inj ts).2 hfront)
    rw [openings_append, closings_append] at hle
    omega
  · intro hus front hfront
    rcases List.prefix_or_prefix_of_prefix hfront (List.prefix_append ts us) with hshort | hlong
    · exact h front hshort
    · obtain ⟨more, rfl⟩ := hlong
      have hle := hus more ((List.prefix_append_right_inj ts).1 hfront)
      rw [openings_append, closings_append]
      omega

namespace Balanced

variable {ts us : List Token}

theorem fits_append_iff (h : Balanced ts) : Fits 0 (ts ++ us) ↔ Fits 0 us := by
  rw [fits_append h.fits, Nat.zero_add, h.even, Nat.sub_self]

theorem append (hts : Balanced ts) (hus : Balanced us) : Balanced (ts ++ us) := by
  refine ⟨hts.fits_append_iff.2 hus.fits, ?_⟩
  rw [closings_append, openings_append, hts.even, hus.even]

/-- A source that ends with a newline is as balanced as without it. -/
theorem snoc_newline (h : Balanced ts) : Balanced (ts ++ [.newline]) :=
  h.append ⟨(fits_of_ne (by decide) (by decide)).2 (fits_nil 0), rfl⟩

/-- Tokens are refused behind balanced ones as they are by themselves. -/
theorem refusal_append {line : Nat} {error : SyntaxError} (hts : Balanced ts)
    (h : Refusal (line + newlines ts) us error) : Refusal line (ts ++ us) error := by
  cases h with
  | @stray front back split balanced =>
    have hsplit : ts ++ us = (ts ++ front) ++ .closing :: back := by
      rw [split, List.append_assoc]
    rw [Nat.add_assoc, ← newlines_append]
    exact .stray hsplit (hts.append balanced)
  | unclosed fits short =>
    have hsame : openings us - closings us = openings (ts ++ us) - closings (ts ++ us) := by
      rw [openings_append, closings_append, hts.even, Nat.add_sub_add_left]
    rw [Nat.add_assoc, ← newlines_append, hsame]
    refine .unclosed (hts.fits_append_iff.2 fits) ?_
    rw [openings_append, closings_append, hts.even]
    omega

end Balanced

end Token

namespace Tree

/-- What follows balanced tokens is read as by itself, from the line where they end, and its
trees come behind theirs. -/
theorem build_append_of_balanced {ts : List Token} (h : Token.Balanced ts) (us : List Token)
    (line : Nat) {front : List Tree} (hfront : (build line [] [] ts).result = .ok front) :
    build line [] [] (ts ++ us) =
      ⟨(build (line + Token.newlines ts) [] [] us).line,
        (build (line + Token.newlines ts) [] [] us).result.map (front ++ ·)⟩ := by
  obtain ⟨_, hflat⟩ := build_eq_ok_iff.1 hfront
  rcases Token.balanced_or_refusal (line + Token.newlines ts) us with hus | ⟨error, hrefusal⟩
  · obtain ⟨back, hback, hbackFlat⟩ := build_of_balanced hus (line + Token.newlines ts)
    obtain ⟨whole, hwhole, hwholeFlat⟩ := build_of_balanced (h.append hus) line
    have hmarks : flattenAll whole = flattenAll (front ++ back) := by
      rw [hwholeFlat, Token.marks_append, flattenAll_append, hflat, hbackFlat]
    rw [hwhole, hback, flattenAll_inj hmarks, Token.newlines_append, Nat.add_assoc]
    rfl
  · rw [build_of_refusal hrefusal, build_of_refusal (h.refusal_append hrefusal)]
    rfl

end Tree

/-! ## Sources read in pieces -/

namespace FrameReader

/-- What a reader reads depends on nothing but its line. -/
theorem parse_of_line {r s : FrameReader} (h : r.line = s.line) (src : Bytes) :
    (r.parse src).2 = (s.parse src).2 ∧ (r.parse src).1.line = (s.parse src).1.line := by
  obtain ⟨hline, hresult, _, _⟩ := r.agrees_parse src
  obtain ⟨hline', hresult', _, _⟩ := s.agrees_parse src
  rw [h] at hline hresult
  exact ⟨hresult.trans hresult'.symm, hline.trans hline'.symm⟩

/-- A source that was read, and what follows it behind a newline. -/
theorem parse_append_newline (r : FrameReader) {a : Bytes} {trees : List Tree}
    (hread : (r.parse a).2 = .ok trees) (hends : Token.ending a ≠ .text) :
    ∃ front, (r.parse (a ++ [newline])).2 = .ok front ∧ ∀ b,
      (r.parse (a ++ newline :: b)).2 =
          ((r.parse (a ++ [newline])).1.parse b).2.map (front ++ ·) ∧
        (r.parse (a ++ newline :: b)).1.line =
          ((r.parse (a ++ [newline])).1.parse b).1.line := by
  rw [(r.agrees_parse a).result] at hread
  have hbalanced := (Tree.build_eq_ok_iff.1 hread).1.snoc_newline
  have hscan : Token.scan (a ++ [newline]) = Token.scan a ++ [.newline] := by
    rw [Token.scan_append_newline hends, Token.scan_nil]
  obtain ⟨front, hfront, _⟩ := Tree.build_of_balanced hbalanced (max r.line 1)
  have hfirst := r.agrees_parse (a ++ [newline])
  rw [Tree.read, hscan, hfront] at hfirst
  refine ⟨front, hfirst.result, fun b => ?_⟩
  have hwhole := r.agrees_parse (a ++ newline :: b)
  have hsecond := (r.parse (a ++ [newline])).1.agrees_parse b
  have hstart : max (r.parse (a ++ [newline])).1.line 1 =
      max r.line 1 + Token.newlines (Token.scan a ++ [.newline]) := by
    rw [hfirst.line]
    exact Nat.max_eq_left (Nat.le_trans (Nat.le_max_right _ _) (Nat.le_add_right _ _))
  rw [Tree.read, Token.scan_append_newline hends, List.append_cons,
    Tree.build_append_of_balanced hbalanced _ _ (by rw [hfront]), ← hstart] at hwhole
  exact ⟨hwhole.result.trans (congrArg (Except.map (front ++ ·)) hsecond.result.symm),
    hwhole.line.trans hsecond.line.symm⟩

/-- Reading in pieces is reading at once.  Let a reader in any state read a source that ends
outside texts in backticks.  With a newline behind it the reader reads it too, and after that it
reads any other source as a fresh reader, at the line of the first, reads it behind the
newline: the line at the end is the same, the trees are those behind the trees of the first
source, or else the error is the same.  A source that is refused leaves nothing behind but the
line of its error.  And all this is what a reader does that has no storage. -/
theorem parse_in_pieces (r : FrameReader) {a : Bytes} {trees : List Tree}
    (hread : (r.parse a).2 = .ok trees) (hends : Token.ending a ≠ .text) :
    (∃ front, (r.parse (a ++ [newline])).2 = .ok front ∧ ∀ b,
      ((fresh r.line).parse (a ++ newline :: b)).1.line =
          ((r.parse (a ++ [newline])).1.parse b).1.line ∧
        (∀ back, ((r.parse (a ++ [newline])).1.parse b).2 = .ok back →
          ((fresh r.line).parse (a ++ newline :: b)).2 = .ok (front ++ back)) ∧
        (∀ error, ((r.parse (a ++ [newline])).1.parse b).2 = .error error →
          ((fresh r.line).parse (a ++ newline :: b)).2 = .error error)) ∧
      (∀ src error, (r.parse src).2 = .error error →
        (r.parse src).1.depth = 0 ∧ (r.parse src).1.line = error.line ∧
          ∀ next, ((r.parse src).1.parse next).2 = ((fresh error.line).parse next).2 ∧
            ((r.parse src).1.parse next).1.line = ((fresh error.line).parse next).1.line) ∧
      ∀ src, (r.parse src).2 = ((⟨r.line⟩ : Reader).parse src).2 ∧
        (⟨(r.parse src).1.line⟩ : Reader) = ((⟨r.line⟩ : Reader).parse src).1 := by
  obtain ⟨front, hfront, hpieces⟩ := r.parse_append_newline hread hends
  refine ⟨⟨front, hfront, fun b => ?_⟩, ?_, ?_⟩
  · obtain ⟨hresult, hline⟩ := hpieces b
    have hfresh : (fresh r.line).line = r.line := rfl
    obtain ⟨hsame, hsameLine⟩ := parse_of_line hfresh (a ++ newline :: b)
    rw [hresult] at hsame
    refine ⟨hsameLine.trans hline, ?_, ?_⟩
    · intro back hback
      rw [hsame, hback]
      rfl
    · intro error herror
      rw [hsame, herror]
      rfl
  · intro src error herror
    have hagrees := r.agrees_parse src
    have hline : (r.parse src).1.line = error.line := by
      rw [hagrees.line]
      rw [hagrees.result] at herror
      rw [Tree.read, Tree.build_of_refusal (Tree.build_eq_error_iff.1 herror)]
    refine ⟨?_, hline, fun next => parse_of_line hline next⟩
    unfold depth
    rw [hagrees.closed]
    rfl
  · intro src
    have hagrees := r.agrees_parse src
    exact ⟨hagrees.result, congrArg Reader.mk hagrees.line⟩

/-- A reader after a source that was refused in the middle of two lists. -/
def afterRefusal : FrameReader := ((fresh 1).parse (ascii "(1 (2\n3")).1

/-- The parenthesis in the text and the one in the comment do not count, and the one behind the
newline is left open, as it is in the second piece. -/
theorem parse_in_pieces_afterRefusal :
    (afterRefusal.parse (ascii "(4) `)` # (")).2.isOk = true ∧
      Token.ending (ascii "(4) `)` # (") = .comment ∧
      ((fresh 2).parse (ascii "(4) `)` # (\n5 (6")).2 = .error ⟨3, .unclosed 1⟩ := by
  have hok : (afterRefusal.parse (ascii "(4) `)` # (")).2.isOk = true := by decide +kernel
  have hends : Token.ending (ascii "(4) `)` # (") = .comment := by decide +kernel
  refine ⟨hok, hends, ?_⟩
  cases hread : (afterRefusal.parse (ascii "(4) `)` # (")).2 with
  | error error =>
    rw [hread] at hok
    cases hok
  | ok trees =>
    obtain ⟨⟨front, hfront, hpieces⟩, _⟩ :=
      parse_in_pieces afterRefusal hread (by rw [hends]; decide)
    have hline : afterRefusal.line = 2 := by decide +kernel
    have hnext : (afterRefusal.parse (ascii "(4) `)` # (" ++ [newline])).1.line = 3 := by
      decide +kernel
    have hscan : Token.scan (ascii "5 (6") = [.numeral [53], .opening, .numeral [54]] := by
      decide +kernel
    rw [hline] at hpieces
    refine (hpieces (ascii "5 (6")).2.2 ⟨3, .unclosed 1⟩ ?_
    rw [(agrees_parse _ _).result, hnext, Tree.read, hscan]
    rfl

end FrameReader

end StackScript
