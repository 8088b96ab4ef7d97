import StackScript.Proofs.Grammar
set_option autoImplicit false

/-!
# The outermost pieces of a source

Outside all lists a source is a sequence of newlines, single elements and whole lists.  The
program that it is read as has one element for each of the latter, and two for a newline: the
number of the line that it starts and the instruction that makes that line current.
-/

namespace StackScript

/-- A piece of a source outside all lists. -/
inductive Piece where
  | newline
  /-- a token that stands for a number or a text -/
  | element (token : Token)
  /-- a list, with what stands between its parentheses -/
  | list (inner : List Token)
  deriving DecidableEq, Repr, Inhabited

namespace Piece

/-- The tokens of a piece. -/
def tokens : Piece → List Token
  | .newline => [.newline]
  | .element token => [token]
  | .list inner => .opening :: (inner ++ [.closing])

/-- A piece is neither more nor less than one newline, element or list. -/
def IsWhole : Piece → Prop
  | .newline => True
  | .element token => token ≠ .newline ∧ token ≠ .opening ∧ token ≠ .closing
  | .list inner => Token.Balanced inner

/-- How many elements of a program a piece is read as. -/
def size : Piece → Nat
  | .newline => 2
  | .element _ => 1
  | .list _ => 1

/-- The tokens of several pieces. -/
def allTokens (pieces : List Piece) : List Token := pieces.flatMap tokens

/-- How many elements of a program several pieces are read as. -/
def allSizes : List Piece → Nat
  | [] => 0
  | p :: rest => p.size + allSizes rest

/-- How many newlines there are in several pieces, those inside lists included. -/
def newlines (pieces : List Piece) : Nat := Token.newlines (allTokens pieces)

theorem newlines_append (a b : List Piece) : newlines (a ++ b) = newlines a + newlines b := by
  simp only [newlines, allTokens, Token.newlines, List.flatMap_append, List.count_append]

theorem newlines_cons (p : Piece) (rest : List Piece) :
    newlines (p :: rest) = Token.newlines p.tokens + newlines rest := by
  simp only [newlines, allTokens, Token.newlines, List.flatMap_cons, List.count_append]

theorem allSizes_append (a b : List Piece) : allSizes (a ++ b) = allSizes a + allSizes b := by
  induction a with
  | nil => exact (Nat.zero_add _).symm
  | cons p a ih => simp only [List.cons_append, allSizes, ih, Nat.add_assoc]

/-- The trees that pieces are read as, from line `line` on. -/
inductive Reads : Nat → List Piece → List Tree → Prop where
  | nil (line : Nat) : Reads line [] []
  | newline {line : Nat} {rest : List Piece} {trees : List Tree}
      (reads : Reads (line + 1) rest trees) :
      Reads line (.newline :: rest)
        (.number (Double.ofNat (line + 1)) :: .text Tree.lineMark :: trees)
  | element {line : Nat} {token : Token} {t : Tree} {rest : List Piece} {trees : List Tree}
      (element : Tree.Element token t) (reads : Reads line rest trees) :
      Reads line (.element token :: rest) (t :: trees)
  | list {line : Nat} {inner : List Token} {items : List Tree} {rest : List Piece}
      {trees : List Tree} (balanced : Token.Balanced inner)
      (reads : Reads (line + Token.newlines inner) rest trees) :
      Reads line (.list inner :: rest) (.list items :: trees)

theorem Reads.isWhole {line : Nat} {pieces : List Piece} {trees : List Tree}
    (h : Reads line pieces trees) : ∀ p ∈ pieces, p.IsWhole := by
  induction h with
  | nil line => exact fun p hp => absurd hp List.not_mem_nil
  | newline reads ih => exact List.forall_mem_cons.2 ⟨trivial, ih⟩
  | element element reads ih =>
    exact List.forall_mem_cons.2 ⟨⟨element.ne_newline, element.ne_opening, element.ne_closing⟩, ih⟩
  | list balanced reads ih => exact List.forall_mem_cons.2 ⟨balanced, ih⟩

end Piece

/-! ## Cutting tokens into pieces -/

namespace Token

/-- What tokens stand for part by part: the second part starts where the first one ends. -/
theorem marks_append (a b : List Token) : ∀ line,
    marks line (a ++ b) = marks line a ++ marks (line + newlines a) b := by
  induction a with
  | nil => exact fun line => rfl
  | cons t a ih =>
    intro line
    rw [List.cons_append]
    rcases Tree.token_cases t with rfl | rfl | rfl | ⟨u, hu⟩
    · simp only [marks, ih, newlines_newline, List.cons_append, Nat.add_assoc, Nat.add_comm 1]
    · simp only [marks, ih, newlines_of_ne (show Token.opening ≠ .newline by decide),
        List.cons_append]
    · simp only [marks, ih, newlines_of_ne (show Token.closing ≠ .newline by decide),
        List.cons_append]
    · rw [hu.marks_eq, hu.marks_eq, ih, newlines_of_ne hu.ne_newline, List.append_assoc]

theorem closings_list (inner back : List Token) :
    closings (.opening :: (inner ++ .closing :: back)) = closings inner + (closings back + 1) := by
  rw [closings_of_ne (by decide), ← closings_closing]
  exact List.count_append

theorem openings_list (inner back : List Token) :
    openings (.opening :: (inner ++ .closing :: back)) = openings inner + openings back + 1 := by
  rw [openings_opening, ← openings_of_ne (show Token.closing ≠ .opening by decide) back]
  exact congrArg (· + 1) List.count_append

theorem newlines_list (inner : List Token) :
    newlines (.opening :: (inner ++ [.closing])) = newlines inner := by
  rw [newlines_of_ne (by decide)]
  exact List.count_append

namespace Balanced

theorem of_cons {t : Token} {ts : List Token} (hopening : t ≠ .opening) (hclosing : t ≠ .closing)
    (h : Balanced (t :: ts)) : Balanced ts := by
  refine ⟨(fits_of_ne hopening hclosing).1 h.fits, ?_⟩
  have heven := h.even
  rwa [closings_of_ne hclosing, openings_of_ne hopening] at heven

/-- A list in front of balanced tokens ends where all its parentheses are closed, and what
follows it is balanced. -/
theorem exists_list {ts : List Token} (h : Balanced (.opening :: ts)) :
    ∃ inner back, ts = inner ++ .closing :: back ∧ Balanced inner ∧ Balanced back := by
  rcases fits_or_stray ts 0 with hfits | ⟨inner, back, rfl, hfits, hinner⟩
  · have hle := hfits ts (List.prefix_refl ts)
    have heven := h.even
    rw [openings_opening, closings_of_ne (by decide)] at heven
    omega
  · rw [Nat.zero_add] at hinner
    refine ⟨inner, back, rfl, ⟨hfits, hinner⟩, ?_, ?_⟩
    · rintro front ⟨more, rfl⟩
      have hlonger : .opening :: (inner ++ .closing :: front) <+:
          .opening :: (inner ++ .closing :: (front ++ more)) := ⟨more, by simp⟩
      have hle := h.fits _ hlonger
      rw [closings_list, openings_list] at hle
      omega
    · have heven := h.even
      rw [closings_list, openings_list] at heven
      omega

end Balanced

/-- Balanced tokens are cut into pieces, which are read as the trees that the tokens are. -/
theorem Balanced.exists_pieces : ∀ (n : Nat) (ts : List Token), ts.length ≤ n → Balanced ts →
    ∀ line, ∃ pieces trees, ts = Piece.allTokens pieces ∧ Piece.Reads line pieces trees ∧
      Tree.flattenAll trees = marks line ts := by
  intro n
  induction n with
  | zero =>
    intro ts hlength _ line
    cases List.length_eq_zero_iff.1 (Nat.le_zero.1 hlength)
    exact ⟨[], [], rfl, .nil line, rfl⟩
  | succ n ih =>
    intro ts hlength hbalanced line
    cases ts with
    | nil => exact ⟨[], [], rfl, .nil line, rfl⟩
    | cons t ts =>
      have hshorter : ts.length ≤ n := Nat.le_of_succ_le_succ hlength
      rcases Tree.token_cases t with rfl | rfl | rfl | ⟨u, hu⟩
      · obtain ⟨pieces, trees, rfl, hreads, hflat⟩ :=
          ih ts hshorter (hbalanced.of_cons (by decide) (by decide)) (line + 1)
        refine ⟨.newline :: pieces, _, rfl, .newline hreads, ?_⟩
        simp [Tree.flattenAll, Tree.flatten, marks, hflat, Tree.lineMark]
      · obtain ⟨inner, back, rfl, hinner, hback⟩ := hbalanced.exists_list
        have hless : back.length ≤ n := by
          simp only [List.length_append, List.length_cons] at hshorter
          omega
        obtain ⟨pieces, trees, rfl, hreads, hflat⟩ :=
          ih back hless hback (line + newlines inner)
        obtain ⟨items, _, hitems⟩ := Tree.build_of_balanced hinner line
        refine ⟨.list inner :: pieces, .list items :: trees, ?_, .list hinner hreads, ?_⟩
        · simp [Piece.allTokens, Piece.tokens]
        · simp [Tree.flattenAll, Tree.flatten, marks, marks_append, hflat, hitems]
      · exact absurd hbalanced.fits (not_fits_zero_closing ts)
      · obtain ⟨pieces, trees, rfl, hreads, hflat⟩ :=
          ih ts hshorter (hbalanced.of_cons hu.ne_opening hu.ne_closing) line
        refine ⟨.element t :: pieces, u :: trees, rfl, .element hu hreads, ?_⟩
        rw [hu.marks_eq, ← hflat]
        rfl

end Token

/-- A source that is read falls into pieces, which are read as the trees of the source. -/
theorem Reader.exists_pieces {src : Bytes} {trees : List Tree}
    (h : (Reader.start.parse src).2 = .ok trees) :
    ∃ pieces, Token.scan src = Piece.allTokens pieces ∧ Piece.Reads 1 pieces trees := by
  obtain ⟨hbalanced, hflat⟩ := Tree.build_eq_ok_iff.1 h
  obtain ⟨pieces, others, hpieces, hreads, hothers⟩ :=
    Token.Balanced.exists_pieces _ (Token.scan src) (Nat.le_refl _) hbalanced 1
  rw [Tree.flattenAll_inj (hflat.trans hothers.symm)]
  exact ⟨pieces, hpieces, hreads⟩

end StackScript
