import StackScript.Tree
set_option autoImplicit false

/-!
# Reading by position

The reader is written here a second time, with a position in the source and a sequence of
open lists.  Every byte, every run of bytes and every open list is asked for by its
position, and a position that is out of range is an error.

Whatever the source is, no position is out of range, and what is read is what the reader
reads that takes a source apart from the front.
-/

namespace StackScript

/-! ## Access by position -/

namespace Checked

variable {α : Type}

/-- The element at a position. -/
def get (xs : List α) (i : Int) : Except OutOfRange α :=
  if 0 ≤ i then
    match xs[i.toNat]? with
    | some x => .ok x
    | none => .error ⟨i, xs.length⟩
  else .error ⟨i, xs.length⟩

/-- The elements from one position up to another. -/
def slice (xs : List α) (start stop : Int) : Except OutOfRange (List α) :=
  if 0 ≤ start ∧ start ≤ stop ∧ stop ≤ xs.length then
    .ok ((xs.take stop.toNat).drop start.toNat)
  else .error ⟨stop, xs.length⟩

/-- The sequence with another element at a position. -/
def set (xs : List α) (i : Int) (x : α) : Except OutOfRange (List α) :=
  if 0 ≤ i ∧ i < xs.length then .ok (xs.set i.toNat x) else .error ⟨i, xs.length⟩

theorem get_of_getElem? {xs : List α} {i : Nat} {x : α} (h : xs[i]? = some x) :
    get xs i = .ok x := by
  unfold get
  rw [if_pos (Int.natCast_nonneg i), Int.toNat_natCast, h]

theorem get_append (pre : List α) (x : α) (rest : List α) :
    get (pre ++ x :: rest) pre.length = .ok x :=
  get_of_getElem? (by simp)

theorem slice_append (pre mid rest : List α) :
    slice (pre ++ (mid ++ rest)) pre.length ((pre.length + mid.length : Nat) : Int) = .ok mid := by
  have hrange : (0 : Int) ≤ pre.length ∧
      (pre.length : Int) ≤ ((pre.length + mid.length : Nat) : Int) ∧
      ((pre.length + mid.length : Nat) : Int) ≤ (pre ++ (mid ++ rest)).length := by
    simp only [List.length_append]
    omega
  unfold slice
  rw [if_pos hrange, Int.toNat_natCast, Int.toNat_natCast, ← List.append_assoc,
    ← List.length_append, List.take_left, List.drop_left]

theorem set_append (pre : List α) (x y : α) (rest : List α) :
    set (pre ++ x :: rest) pre.length y = .ok (pre ++ y :: rest) := by
  have hrange : (0 : Int) ≤ pre.length ∧ (pre.length : Int) < (pre ++ x :: rest).length := by
    simp only [List.length_append, List.length_cons]
    omega
  unfold set
  rw [if_pos hrange, Int.toNat_natCast]
  simp

end Checked

/-! ## Tokens -/

namespace Token

/-- The position after the bytes of a class that stand from a position on. -/
def skip (p : UInt8 → Bool) (src : Bytes) (i : Nat) : Except OutOfRange Nat :=
  if i < src.length then
    match Checked.get src i with
    | .error e => .error e
    | .ok b => if p b then skip p src (i + 1) else .ok i
  else .ok i
termination_by src.length - i

/-- The bytes from `start` on, up to where those of a class end that stand from `i` on,
and that position. -/
def run (p : UInt8 → Bool) (src : Bytes) (start i : Nat) : Except OutOfRange (Bytes × Nat) := do
  let stop ← skip p src i
  let lexeme ← Checked.slice src start stop
  pure (lexeme, stop)

/-- Whether a number starts at a position that holds `b`. -/
def numberAt (b : UInt8) (src : Bytes) (i : Nat) : Except OutOfRange Bool :=
  if isDigit b then pure true
  else if b = 45 ∧ i + 1 < src.length then do
    let c ← Checked.get src ((i + 1 : Nat) : Int)
    pure (isDigit c)
  else pure false

/-- What starts at a position that holds `b`: a token or none, and the position after it. -/
def startingWith (b : UInt8) (src : Bytes) (i : Nat) : Except OutOfRange (Option Token × Nat) :=
  if isSpace b then pure (none, i + 1)
  else if b = StackScript.newline then pure (some .newline, i + 1)
  else if b = backtick then do
    let (s, stop) ← run (· != backtick) src (i + 1) (i + 1)
    pure (some (.quoted s), if stop < src.length then stop + 1 else stop)
  else if b = 35 then do
    let stop ← skip (· != StackScript.newline) src i
    pure (none, stop)
  else if b = 40 then pure (some .opening, i + 1)
  else if b = 41 then pure (some .closing, i + 1)
  else if b = 46 then do
    let (s, stop) ← run continuesSymbol src i (i + 1)
    pure (some (.dotted s), stop)
  else do
    let isNumber ← numberAt b src i
    if isNumber then do
      let (s, stop) ← run isNumeralByte src i (i + 1)
      pure (some (.numeral s), stop)
    else if startsSymbol b then do
      let (s, stop) ← run continuesSymbol src i (i + 1)
      pure (some (.symbol s), stop)
    else do
      let (s, stop) ← run continuesOperator src i (i + 1)
      pure (some (.operator s), stop)

/-- What starts at a position: a token or none, and the position after it. -/
def atPosition (src : Bytes) (i : Nat) : Except OutOfRange (Option Token × Nat) := do
  let b ← Checked.get src i
  startingWith b src i

theorem skip_append (p : UInt8 → Bool) (pre text : Bytes) :
    skip p (pre ++ text) pre.length = .ok (pre.length + (text.takeWhile p).length) := by
  induction text generalizing pre with
  | nil =>
    unfold skip
    rw [if_neg (by simp)]
    rfl
  | cons b rest ih =>
    have hlt : pre.length < (pre ++ b :: rest).length := by
      simp
    unfold skip
    rw [if_pos hlt, Checked.get_append]
    simp only [List.takeWhile_cons]
    cases p b with
    | false => rfl
    | true =>
      have hnext := ih (pre ++ [b])
      rw [List.append_assoc, List.length_append] at hnext
      simp only [List.singleton_append, List.length_singleton] at hnext
      simp only [if_true, hnext, List.length_cons]
      congr 1
      omega

/-- A run of bytes, with some bytes before it, is what the text starts with. -/
theorem run_append (p : UInt8 → Bool) (pre first text : Bytes) :
    run p (pre ++ (first ++ text)) pre.length (pre.length + first.length) =
      .ok (first ++ text.takeWhile p, pre.length + (first ++ text.takeWhile p).length) := by
  have hskip : skip p (pre ++ (first ++ text)) (pre.length + first.length) =
      .ok (pre.length + (first ++ text.takeWhile p).length) := by
    rw [← List.append_assoc, ← List.length_append, skip_append]
    simp only [List.length_append, Nat.add_assoc]
  have hslice := Checked.slice_append pre (first ++ text.takeWhile p) (text.dropWhile p)
  rw [List.append_assoc first, List.takeWhile_append_dropWhile] at hslice
  unfold run
  rw [hskip]
  change (Checked.slice _ _ _ >>= fun lexeme => _) = _
  rw [hslice]
  rfl

theorem numberAt_append (pre : Bytes) (b : UInt8) (rest : Bytes) :
    numberAt b (pre ++ b :: rest) pre.length = .ok (startsNumber (b :: rest)) := by
  by_cases hminus : b = 45
  · subst hminus
    have hdigit : isDigit 45 = false := by decide
    cases rest with
    | nil =>
      have hlast : ¬ pre.length + 1 < (pre ++ [45]).length := by simp
      simp only [numberAt, startsNumber, hdigit, hlast, and_false, Bool.false_eq_true, if_false,
        if_true]
      rfl
    | cons c rest =>
      have hmore : pre.length + 1 < (pre ++ 45 :: c :: rest).length := by simp
      have hget : Checked.get (pre ++ 45 :: c :: rest) ((pre.length + 1 : Nat) : Int) = .ok c := by
        have happend := Checked.get_append (pre ++ [45]) c rest
        rwa [List.append_assoc, List.length_append] at happend
      simp only [numberAt, startsNumber, hdigit, hmore, and_self, Bool.false_eq_true, if_false,
        if_true, hget]
      rfl
  · cases hdigit : isDigit b with
    | true =>
      simp only [numberAt, startsNumber, hdigit, hminus, if_true, if_false]
      rfl
    | false =>
      simp only [numberAt, startsNumber, hdigit, hminus, false_and, Bool.false_eq_true, if_false]
      rfl

/-- What is read from the front of `text` is what is found where it stands, behind `pre`:
the same token, and a position after the same bytes. -/
def FoundAt (pre text : Bytes) (front : Option Token × Bytes)
    (found : Except OutOfRange (Option Token × Nat)) : Prop :=
  ∃ lexeme, lexeme ≠ [] ∧ lexeme ++ front.2 = text ∧
    found = .ok (front.1, pre.length + lexeme.length)

theorem FoundAt.ite {pre text : Bytes} {front front' : Option Token × Bytes}
    {found found' : Except OutOfRange (Option Token × Nat)} {c : Prop} [Decidable c]
    (h : c → FoundAt pre text front found) (h' : ¬ c → FoundAt pre text front' found') :
    FoundAt pre text (if c then front else front') (if c then found else found') := by
  by_cases hc : c
  · rw [if_pos hc, if_pos hc]
    exact h hc
  · rw [if_neg hc, if_neg hc]
    exact h' hc

theorem foundAt_byte (pre : Bytes) (b : UInt8) (rest : Bytes) (t : Option Token) :
    FoundAt pre (b :: rest) (t, rest) (pure (t, pre.length + 1)) :=
  ⟨[b], by simp, rfl, rfl⟩

theorem foundAt_run (pre : Bytes) (b : UInt8) (rest : Bytes) (p : UInt8 → Bool)
    (t : Bytes → Token) :
    FoundAt pre (b :: rest) (some (t (b :: rest.takeWhile p)), rest.dropWhile p) (do
      let (s, stop) ← run p (pre ++ b :: rest) pre.length (pre.length + 1)
      pure (some (t s), stop)) := by
  have hrun : run p (pre ++ b :: rest) pre.length (pre.length + 1) =
      .ok (b :: rest.takeWhile p, pre.length + (b :: rest.takeWhile p).length) :=
    run_append p pre [b] rest
  refine ⟨b :: rest.takeWhile p, by simp, ?_, ?_⟩
  · rw [List.cons_append, List.takeWhile_append_dropWhile]
  · rw [hrun]
    rfl

/-- A closing backtick is taken up too, if there is one. -/
theorem foundAt_quoted (pre : Bytes) (b : UInt8) (rest : Bytes) :
    FoundAt pre (b :: rest)
      (some (.quoted (rest.takeWhile (· != backtick))), (rest.dropWhile (· != backtick)).drop 1) (do
        let (s, stop) ← run (· != backtick) (pre ++ b :: rest) (pre.length + 1) (pre.length + 1)
        pure (some (.quoted s), if stop < (pre ++ b :: rest).length then stop + 1 else stop)) := by
  have hrun : run (· != backtick) (pre ++ b :: rest) (pre.length + 1) (pre.length + 1) =
      .ok (rest.takeWhile (· != backtick),
        pre.length + 1 + (rest.takeWhile (· != backtick)).length) := by
    have happend := run_append (· != backtick) (pre ++ [b]) [] rest
    rwa [List.append_assoc, List.length_append] at happend
  have hsplit : rest.takeWhile (· != backtick) ++ rest.dropWhile (· != backtick) = rest :=
    List.takeWhile_append_dropWhile
  rw [hrun]
  generalize rest.takeWhile (· != backtick) = inside at hsplit ⊢
  generalize rest.dropWhile (· != backtick) = after at hsplit ⊢
  subst hsplit
  cases after with
  | nil =>
    have hend : ¬ pre.length + 1 + inside.length < (pre ++ b :: (inside ++ [])).length := by
      simp only [List.length_append, List.length_cons, List.length_nil]
      omega
    refine ⟨b :: inside, by simp, rfl, ?_⟩
    change Except.ok (_, if _ then _ else _) = _
    rw [if_neg hend, List.length_cons, Nat.add_assoc, Nat.add_comm 1]
  | cons c after =>
    have hmore : pre.length + 1 + inside.length < (pre ++ b :: (inside ++ c :: after)).length := by
      simp only [List.length_append, List.length_cons]
      omega
    refine ⟨b :: (inside ++ [c]), by simp, by simp, ?_⟩
    change Except.ok (_, if _ then _ else _) = _
    rw [if_pos hmore, List.length_cons, List.length_append, List.length_singleton]
    simp only [Nat.add_comm, Nat.add_left_comm]

theorem foundAt_comment (pre : Bytes) {b : UInt8} (hb : (b != StackScript.newline) = true)
    (rest : Bytes) :
    FoundAt pre (b :: rest) (none, rest.dropWhile (· != StackScript.newline)) (do
      let stop ← skip (· != StackScript.newline) (pre ++ b :: rest) pre.length
      pure (none, stop)) := by
  have hskip := skip_append (· != StackScript.newline) pre (b :: rest)
  simp only [List.takeWhile_cons, hb, if_true] at hskip
  refine ⟨b :: rest.takeWhile (· != StackScript.newline), by simp, ?_, ?_⟩
  · rw [List.cons_append, List.takeWhile_append_dropWhile]
  · rw [hskip]
    rfl

/-- The first token of a text is found where the text stands. -/
theorem foundAt_first (pre : Bytes) (b : UInt8) (rest : Bytes) :
    FoundAt pre (b :: rest) (first b rest) (atPosition (pre ++ b :: rest) pre.length) := by
  have hat : atPosition (pre ++ b :: rest) pre.length =
      startingWith b (pre ++ b :: rest) pre.length := by
    unfold atPosition
    rw [Checked.get_append]
    rfl
  rw [hat]
  unfold startingWith first
  refine FoundAt.ite (fun _ => foundAt_byte pre b rest none) fun _ => ?_
  refine FoundAt.ite (fun _ => foundAt_byte pre b rest _) fun hnewline => ?_
  refine FoundAt.ite (fun _ => foundAt_quoted pre b rest) fun _ => ?_
  refine FoundAt.ite (fun _ => foundAt_comment pre (by simpa using hnewline) rest) fun _ => ?_
  refine FoundAt.ite (fun _ => foundAt_byte pre b rest _) fun _ => ?_
  refine FoundAt.ite (fun _ => foundAt_byte pre b rest _) fun _ => ?_
  refine FoundAt.ite (fun _ => foundAt_run pre b rest continuesSymbol .dotted) fun _ => ?_
  rw [numberAt_append]
  refine FoundAt.ite (fun _ => foundAt_run pre b rest isNumeralByte .numeral) fun _ => ?_
  refine FoundAt.ite (fun _ => foundAt_run pre b rest continuesSymbol .symbol) fun _ => ?_
  exact foundAt_run pre b rest continuesOperator .operator

end Token

/-! ## Lists -/

namespace Tree

/-- Adds a tree to the innermost open list. -/
def emit (frames : List (List Tree)) (t : Tree) : Except OutOfRange (List (List Tree)) := do
  let top : Int := frames.length - 1
  let items ← Checked.get frames top
  Checked.set frames top (items ++ [t])

/-- The tree of a token that stands for one. -/
def ofToken : Token → Tree
  | .numeral s => ofNumeral s
  | .quoted s => .text s
  | .symbol s => .text s
  | .dotted s => .text s
  | .operator s => .text s
  | _ => .list []

/-- What a token makes of the line count and the open lists, outermost first. -/
def accept (line : Nat) (frames : List (List Tree)) :
    Token → Except OutOfRange (Except SyntaxError (Nat × List (List Tree)))
  | .newline => do
    let frames ← emit frames (.number (Double.ofNat (line + 1)))
    let frames ← emit frames (.text lineMark)
    pure (.ok (line + 1, frames))
  | .opening => pure (.ok (line, frames ++ [[]]))
  | .closing => do
    let top : Int := frames.length - 1
    if top = 0 then pure (.error ⟨line, .unexpectedClosing⟩)
    else do
      let items ← Checked.get frames top
      let frames ← Checked.slice frames 0 top
      let frames ← emit frames (.list items)
      pure (.ok (line, frames))
  | token => do
    let frames ← emit frames (ofToken token)
    pure (.ok (line, frames))

/-- Reads a source from a position on. -/
def readFrom (src : Bytes) (line : Nat) (frames : List (List Tree)) (i : Nat) :
    Except OutOfRange Reading :=
  if i < src.length then
    match Token.atPosition src i with
    | .error e => .error e
    | .ok (token, next) =>
      -- every token takes up a byte at least
      if i < next then
        match token with
        | none => readFrom src line frames next
        | some token =>
          match accept line frames token with
          | .error e => .error e
          | .ok (.error error) => .ok ⟨line, .error error⟩
          | .ok (.ok (line, frames)) => readFrom src line frames next
      else .error ⟨next, src.length⟩
  else if 1 < frames.length then .ok ⟨line, .error ⟨line, .unclosed (frames.length - 1)⟩⟩
  else do
    let items ← Checked.get frames 0
    pure ⟨line, .ok items⟩
termination_by src.length - i

/-- Reads a source by position. -/
def checkedRead (line : Nat) (src : Bytes) : Except OutOfRange Reading := readFrom src line [[]] 0

/-- The open lists, outermost first, each in order. -/
def framesOf (items : List Tree) (outer : List (List Tree)) : List (List Tree) :=
  (outer.map List.reverse).reverse ++ [items.reverse]

theorem framesOf_cons (items above : List Tree) (outer : List (List Tree)) :
    framesOf items (above :: outer) = framesOf above outer ++ [items.reverse] := by
  simp [framesOf]

theorem length_framesOf (items : List Tree) (outer : List (List Tree)) :
    (framesOf items outer).length = outer.length + 1 := by
  simp [framesOf]

theorem emit_framesOf (items : List Tree) (outer : List (List Tree)) (t : Tree) :
    emit (framesOf items outer) t = .ok (framesOf (t :: items) outer) := by
  have htop : (((framesOf items outer).length : Int) - 1) =
      (((outer.map List.reverse).reverse).length : Int) := by
    simp [framesOf]
  unfold emit
  simp only [htop]
  unfold framesOf
  rw [Checked.get_append]
  change Checked.set _ _ _ = _
  rw [Checked.set_append, List.reverse_cons]

/-- A token makes of the open lists what `build` does with it, whatever comes after it. -/
theorem accept_framesOf (line : Nat) (items : List Tree) (outer : List (List Tree))
    (token : Token) :
    (∃ error, accept line (framesOf items outer) token = .ok (.error error) ∧
      ∀ rest, build line items outer (token :: rest) = ⟨line, .error error⟩) ∨
    ∃ line' items' outer',
      accept line (framesOf items outer) token = .ok (.ok (line', framesOf items' outer')) ∧
      ∀ rest, build line items outer (token :: rest) = build line' items' outer' rest := by
  have hword (t : Tree) : (do
      let frames ← emit (framesOf items outer) t
      pure (.ok (line, frames)) : Except OutOfRange (Except SyntaxError _)) =
        .ok (.ok (line, framesOf (t :: items) outer)) := by
    rw [emit_framesOf]
    rfl
  cases token with
  | newline =>
    refine .inr ⟨line + 1, _, outer, ?_, fun _ => rfl⟩
    simp only [accept, emit_framesOf, bind, Except.bind]
    rfl
  | opening =>
    refine .inr ⟨line, [], items :: outer, ?_, fun _ => rfl⟩
    simp [accept, framesOf]
    rfl
  | closing =>
    cases outer with
    | nil => exact .inl ⟨_, rfl, fun _ => rfl⟩
    | cons above outer =>
      refine .inr ⟨line, .list items.reverse :: above, outer, ?_, fun _ => rfl⟩
      have htop : ((framesOf above outer ++ [items.reverse]).length : Int) - 1 =
          ((framesOf above outer).length : Int) := by
        rw [List.length_append, List.length_singleton]
        omega
      have hopen : ((framesOf above outer).length : Int) ≠ 0 := by
        simp only [length_framesOf]
        omega
      have hslice : Checked.slice (framesOf above outer ++ [items.reverse]) 0
          ((framesOf above outer).length : Int) = .ok (framesOf above outer) := by
        have happend := Checked.slice_append [] (framesOf above outer) [items.reverse]
        rwa [List.length_nil, Nat.zero_add] at happend
      simp only [accept, framesOf_cons, htop, if_neg hopen, Checked.get_append, hslice,
        emit_framesOf, bind, Except.bind]
      rfl
  | numeral s => exact .inr ⟨line, _, outer, hword _, fun _ => rfl⟩
  | quoted s => exact .inr ⟨line, _, outer, hword _, fun _ => rfl⟩
  | symbol s => exact .inr ⟨line, _, outer, hword _, fun _ => rfl⟩
  | dotted s => exact .inr ⟨line, _, outer, hword _, fun _ => rfl⟩
  | operator s => exact .inr ⟨line, _, outer, hword _, fun _ => rfl⟩

/-- Reading on from a position is reading the text that stands there. -/
theorem readFrom_append (pre text : Bytes) (line : Nat) (items : List Tree)
    (outer : List (List Tree)) :
    readFrom (pre ++ text) line (framesOf items outer) pre.length =
      .ok (build line items outer (Token.scan text)) := by
  -- on the length of the text, since a token can take up many bytes of it
  induction hlength : text.length using Nat.strongRecOn generalizing pre text line items outer with
  | ind n ih =>
    subst hlength
    cases text with
    | nil =>
      have hend : ¬ pre.length < (pre ++ []).length := by simp
      have hscan : Token.scan [] = [] := by rw [Token.scan]
      unfold readFrom
      rw [if_neg hend, length_framesOf, hscan]
      cases outer with
      | nil => rfl
      | cons above outer =>
        rw [if_pos (by simp)]
        rfl
    | cons b rest =>
      obtain ⟨lexeme, hne, hsplit, hfound⟩ := Token.foundAt_first pre b rest
      have hpos : 0 < lexeme.length := List.length_pos_iff.2 hne
      have hnext : pre.length < pre.length + lexeme.length := by omega
      have hmore : pre.length < (pre ++ b :: rest).length := by simp
      have hshort : (Token.first b rest).2.length < (b :: rest).length := by
        have hlengths := congrArg List.length hsplit
        rw [List.length_append] at hlengths
        omega
      have hrest (line : Nat) (items : List Tree) (outer : List (List Tree)) :
          readFrom (pre ++ b :: rest) line (framesOf items outer) (pre.length + lexeme.length) =
            .ok (build line items outer (Token.scan (Token.first b rest).2)) := by
        rw [← hsplit, ← List.append_assoc, ← List.length_append]
        exact ih _ hshort (pre ++ lexeme) _ line items outer rfl
      unfold readFrom
      rw [if_pos hmore, hfound, Token.scan]
      simp only [if_pos hnext]
      cases (Token.first b rest).1 with
      | none => exact hrest line items outer
      | some token =>
        rcases accept_framesOf line items outer token with ⟨error, haccept, hbuild⟩ |
          ⟨line', items', outer', haccept, hbuild⟩
        · simp only [haccept, Option.toList_some, List.singleton_append, hbuild]
        · simp only [haccept, Option.toList_some, List.singleton_append, hbuild]
          exact hrest line' items' outer'

/-- Reading a source by position is never out of range. -/
theorem checkedRead_eq (line : Nat) (src : Bytes) : checkedRead line src = .ok (read line src) :=
  readFrom_append [] src line [] []

end Tree

end StackScript
