import StackScript.Proofs.Lexical
import StackScript.Session.Run
set_option autoImplicit false

/-!
# The grammar of sources

A source is well formed if its parentheses are balanced: no closing one comes
before its partner, and there are as many of one sort as of the other.  A tree is
compared with the tokens it was read from by writing it out again (`Tree.flatten`):
what each token stands for, in order, and a mark for each parenthesis.

`Tree.build` reads the tokens in one pass with a stack of open lists.  Its lemmas
are about any state of that pass: `items` and `outer` hold what has been read, and
`depth` parentheses are open.
-/

namespace StackScript

namespace Token

/-! ## Parentheses -/

/-- How many parentheses tokens open. -/
def openings (ts : List Token) : Nat := ts.count .opening

/-- How many parentheses tokens close. -/
def closings (ts : List Token) : Nat := ts.count .closing

/-- How many newlines there are among tokens. -/
def newlines (ts : List Token) : Nat := ts.count .newline

/-- Every closing parenthesis has a partner, with `depth` parentheses open in
front of the tokens. -/
def Fits (depth : Nat) (ts : List Token) : Prop :=
  ∀ front, front <+: ts → closings front ≤ depth + openings front

/-- Every parenthesis has a partner. -/
structure Balanced (ts : List Token) : Prop where
  fits : Fits 0 ts
  even : closings ts = openings ts

theorem fits_nil (depth : Nat) : Fits depth [] := by
  intro front hfront
  rw [List.prefix_nil.1 hfront]
  exact Nat.zero_le _

theorem fits_cons {depth : Nat} {t : Token} {ts : List Token} :
    Fits depth (t :: ts) ↔
      ∀ front, front <+: ts → closings (t :: front) ≤ depth + openings (t :: front) := by
  constructor
  · intro h front hfront
    exact h _ ((List.prefix_cons_inj t).2 hfront)
  · intro h front hfront
    rcases List.prefix_cons_iff.1 hfront with rfl | ⟨rest, rfl, hrest⟩
    · exact Nat.zero_le _
    · exact h rest hrest

theorem openings_opening (ts : List Token) : openings (.opening :: ts) = openings ts + 1 :=
  List.count_cons_self

theorem closings_closing (ts : List Token) : closings (.closing :: ts) = closings ts + 1 :=
  List.count_cons_self

theorem newlines_newline (ts : List Token) : newlines (.newline :: ts) = newlines ts + 1 :=
  List.count_cons_self

theorem openings_of_ne {t : Token} (h : t ≠ .opening) (ts : List Token) :
    openings (t :: ts) = openings ts :=
  List.count_cons_of_ne h

theorem closings_of_ne {t : Token} (h : t ≠ .closing) (ts : List Token) :
    closings (t :: ts) = closings ts :=
  List.count_cons_of_ne h

theorem newlines_of_ne {t : Token} (h : t ≠ .newline) (ts : List Token) :
    newlines (t :: ts) = newlines ts :=
  List.count_cons_of_ne h

theorem fits_opening {depth : Nat} {ts : List Token} :
    Fits depth (.opening :: ts) ↔ Fits (depth + 1) ts := by
  rw [fits_cons]
  apply forall_congr'
  intro front
  rw [openings_opening, closings_of_ne (by decide)]
  constructor
  · intro h hfront
    have := h hfront
    omega
  · intro h hfront
    have := h hfront
    omega

theorem fits_closing {depth : Nat} {ts : List Token} :
    Fits (depth + 1) (.closing :: ts) ↔ Fits depth ts := by
  rw [fits_cons]
  apply forall_congr'
  intro front
  rw [closings_closing, openings_of_ne (by decide)]
  constructor
  · intro h hfront
    have := h hfront
    omega
  · intro h hfront
    have := h hfront
    omega

theorem not_fits_zero_closing (ts : List Token) : ¬ Fits 0 (.closing :: ts) := by
  intro h
  have := h [.closing] ⟨ts, rfl⟩
  simp [closings, openings] at this

theorem fits_of_ne {depth : Nat} {t : Token} {ts : List Token} (hopening : t ≠ .opening)
    (hclosing : t ≠ .closing) : Fits depth (t :: ts) ↔ Fits depth ts := by
  rw [fits_cons]
  apply forall_congr'
  intro front
  rw [closings_of_ne hclosing, openings_of_ne hopening]

/-- Unless every closing parenthesis has a partner, there is a first one that has
none: those in front of it close all that was open. -/
theorem fits_or_stray (ts : List Token) : ∀ depth, Fits depth ts ∨
    ∃ front back, ts = front ++ .closing :: back ∧ Fits depth front ∧
      closings front = depth + openings front := by
  induction ts with
  | nil => exact fun depth => .inl (fits_nil depth)
  | cons t ts ih =>
    intro depth
    by_cases hopening : t = .opening
    · subst hopening
      rcases ih (depth + 1) with h | ⟨front, back, rfl, hfits, heven⟩
      · exact .inl (fits_opening.2 h)
      · refine .inr ⟨.opening :: front, back, rfl, fits_opening.2 hfits, ?_⟩
        rw [openings_opening, closings_of_ne (by decide), heven]
        omega
    by_cases hclosing : t = .closing
    · subst hclosing
      cases depth with
      | zero => exact .inr ⟨[], ts, rfl, fits_nil 0, rfl⟩
      | succ depth =>
        rcases ih depth with h | ⟨front, back, rfl, hfits, heven⟩
        · exact .inl (fits_closing.2 h)
        · refine .inr ⟨.closing :: front, back, rfl, fits_closing.2 hfits, ?_⟩
          rw [closings_closing, openings_of_ne (by decide), heven]
          omega
    rcases ih depth with h | ⟨front, back, rfl, hfits, heven⟩
    · exact .inl ((fits_of_ne hopening hclosing).2 h)
    · refine .inr ⟨t :: front, back, rfl, (fits_of_ne hopening hclosing).2 hfits, ?_⟩
      rw [openings_of_ne hopening, closings_of_ne hclosing, heven]

end Token

/-! ## Trees written out -/

/-- One mark of a tree that is written out. -/
inductive Mark where
  | opening
  | closing
  | number (x : Double)
  | text (s : Bytes)
  deriving DecidableEq, Repr, Inhabited

mutual

/-- A tree written out: its numbers and texts in order, and parentheses around the
items of each list. -/
def Tree.flatten : Tree → List Mark
  | .number x => [.number x]
  | .text s => [.text s]
  | .list items => .opening :: (Tree.flattenAll items ++ [.closing])

/-- Several trees written out. -/
def Tree.flattenAll : List Tree → List Mark
  | [] => []
  | t :: rest => t.flatten ++ Tree.flattenAll rest

end

/-- What a numeral token stands for: a number, or the token itself where it is not
one. -/
def Mark.ofNumeral (s : Bytes) : Mark :=
  match Double.ofBytes? s with
  | some x => .number x
  | none => .text s

/-- What tokens stand for, from line `line` on.  A newline stands for the number of
the line it starts and the instruction that makes that line current. -/
def Token.marks (line : Nat) : List Token → List Mark
  | [] => []
  | .newline :: ts =>
    .number (Double.ofNat (line + 1)) :: .text (ascii "@@") :: Token.marks (line + 1) ts
  | .opening :: ts => .opening :: Token.marks line ts
  | .closing :: ts => .closing :: Token.marks line ts
  | .numeral s :: ts => .ofNumeral s :: Token.marks line ts
  | .quoted s :: ts => .text s :: Token.marks line ts
  | .symbol s :: ts => .text s :: Token.marks line ts
  | .dotted s :: ts => .text s :: Token.marks line ts
  | .operator s :: ts => .text s :: Token.marks line ts

namespace Tree

theorem flattenAll_append (a b : List Tree) :
    flattenAll (a ++ b) = flattenAll a ++ flattenAll b := by
  induction a with
  | nil => rfl
  | cons t a ih => simp only [List.cons_append, flattenAll, ih, List.append_assoc]

theorem flattenAll_reverse_cons (t : Tree) (items : List Tree) :
    flattenAll (t :: items).reverse = flattenAll items.reverse ++ t.flatten := by
  rw [List.reverse_cons, flattenAll_append]
  simp only [flattenAll, List.append_nil]

/-- Where a list of trees that is written out can end: before a closing mark, or with
the text. -/
def Ends (rest : List Mark) : Prop := ∀ m, rest.head? = some m → m = .closing

mutual

theorem flatten_append_inj (t : Tree) : ∀ (u : Tree) (x y : List Mark),
    t.flatten ++ x = u.flatten ++ y → t = u ∧ x = y := by
  cases t with
  | number a =>
    intro u x y h
    cases u <;> simp_all [flatten]
  | text a =>
    intro u x y h
    cases u <;> simp_all [flatten]
  | list items =>
    intro u x y h
    cases u with
    | number b => simp [flatten] at h
    | text b => simp [flatten] at h
    | list others =>
      simp only [flatten, List.cons_append, List.append_assoc, List.nil_append,
        List.cons.injEq, true_and] at h
      obtain ⟨hitems, hrest⟩ := flattenAll_append_inj items others _ _ (by simp [Ends])
        (by simp [Ends]) h
      exact ⟨hitems ▸ rfl, (List.cons.inj hrest).2⟩

theorem flattenAll_append_inj (a : List Tree) : ∀ (b : List Tree) (x y : List Mark),
    Ends x → Ends y → flattenAll a ++ x = flattenAll b ++ y → a = b ∧ x = y := by
  cases a with
  | nil =>
    intro b x y hx _ h
    cases b with
    | nil => exact ⟨rfl, h⟩
    | cons u b =>
      -- what is left over would have to start like a tree
      cases u <;> simp [flattenAll, flatten] at h <;> simp [h, Ends] at hx
  | cons t a =>
    intro b x y hx hy h
    cases b with
    | nil => cases t <;> simp [flattenAll, flatten] at h <;> simp [← h, Ends] at hy
    | cons u b =>
      simp only [flattenAll, List.append_assoc] at h
      obtain ⟨rfl, hrest⟩ := flatten_append_inj t u _ _ h
      obtain ⟨rfl, rfl⟩ := flattenAll_append_inj a b x y hx hy hrest
      exact ⟨rfl, rfl⟩

end

/-- Trees are determined by what they look like written out. -/
theorem flattenAll_inj {a b : List Tree} (h : flattenAll a = flattenAll b) : a = b := by
  have hends : Ends [] := by simp [Ends]
  exact (flattenAll_append_inj a b [] [] hends hends (by rw [h])).1

/-! ## One pass over the tokens -/

/-- A token that stands for one number or text. -/
structure Element (token : Token) (t : Tree) : Prop where
  ne_newline : token ≠ .newline
  ne_opening : token ≠ .opening
  ne_closing : token ≠ .closing
  build_eq : ∀ line items outer ts,
    build line items outer (token :: ts) = build line (t :: items) outer ts
  marks_eq : ∀ line ts, Token.marks line (token :: ts) = t.flatten ++ Token.marks line ts

theorem flatten_ofNumeral (s : Bytes) : (ofNumeral s).flatten = [.ofNumeral s] := by
  unfold ofNumeral Mark.ofNumeral
  cases Double.ofBytes? s with
  | none => rfl
  | some x => rfl

/-- The four sorts of token, for a pass that keeps a stack of open lists. -/
theorem token_cases (token : Token) :
    token = .newline ∨ token = .opening ∨ token = .closing ∨ ∃ t, Element token t := by
  cases token with
  | newline => exact .inl rfl
  | opening => exact .inr (.inl rfl)
  | closing => exact .inr (.inr (.inl rfl))
  | numeral s =>
    refine .inr (.inr (.inr ⟨ofNumeral s, nofun, nofun, nofun, fun _ _ _ _ => rfl, ?_⟩))
    intro line ts
    rw [flatten_ofNumeral]
    rfl
  | quoted s =>
    exact .inr (.inr (.inr ⟨.text s, nofun, nofun, nofun, fun _ _ _ _ => rfl, fun _ _ => rfl⟩))
  | symbol s =>
    exact .inr (.inr (.inr ⟨.text s, nofun, nofun, nofun, fun _ _ _ _ => rfl, fun _ _ => rfl⟩))
  | dotted s =>
    exact .inr (.inr (.inr ⟨.text s, nofun, nofun, nofun, fun _ _ _ _ => rfl, fun _ _ => rfl⟩))
  | operator s =>
    exact .inr (.inr (.inr ⟨.text s, nofun, nofun, nofun, fun _ _ _ _ => rfl, fun _ _ => rfl⟩))

/-- What has been read so far, written out: the open lists from the outermost in. -/
def openMarks (items : List Tree) : List (List Tree) → List Mark
  | [] => flattenAll items.reverse
  | above :: outer => openMarks above outer ++ .opening :: flattenAll items.reverse

theorem openMarks_cons (t : Tree) (items : List Tree) (outer : List (List Tree)) :
    openMarks (t :: items) outer = openMarks items outer ++ t.flatten := by
  cases outer with
  | nil => exact flattenAll_reverse_cons t items
  | cons above outer =>
    simp only [openMarks, flattenAll_reverse_cons, List.append_assoc, List.cons_append]

/-- Tokens that close exactly what is open are read, and the trees written out are
what was read before and what the tokens stand for. -/
theorem build_of_even (ts : List Token) : ∀ (line : Nat) (items : List Tree)
    (outer : List (List Tree)), Token.Fits outer.length ts →
    Token.closings ts = outer.length + Token.openings ts →
    ∃ trees, build line items outer ts = ⟨line + Token.newlines ts, .ok trees⟩ ∧
      flattenAll trees = openMarks items outer ++ Token.marks line ts := by
  induction ts with
  | nil =>
    intro line items outer _ heven
    cases outer with
    | nil => exact ⟨items.reverse, rfl, by simp [openMarks, Token.marks]⟩
    | cons above outer => simp [Token.closings, Token.openings] at heven
  | cons t ts ih =>
    intro line items outer hfits heven
    rcases token_cases t with rfl | rfl | rfl | ⟨u, hu⟩
    · rw [Token.fits_of_ne (by decide) (by decide)] at hfits
      rw [Token.closings_of_ne (by decide), Token.openings_of_ne (by decide)] at heven
      obtain ⟨trees, hbuild, hflat⟩ := ih (line + 1)
        (.text lineMark :: .number (Double.ofNat (line + 1)) :: items) outer hfits heven
      refine ⟨trees, ?_, ?_⟩
      · rw [Token.newlines_newline, build, hbuild, Nat.add_assoc, Nat.add_comm 1]
      · rw [hflat, openMarks_cons, openMarks_cons]
        simp [flatten, Token.marks, lineMark]
    · rw [Token.fits_opening] at hfits
      rw [Token.openings_opening, Token.closings_of_ne (by decide)] at heven
      obtain ⟨trees, hbuild, hflat⟩ := ih line [] (items :: outer) hfits
        (by rw [List.length_cons]; omega)
      refine ⟨trees, ?_, ?_⟩
      · rw [Token.newlines_of_ne (by decide), build, hbuild]
      · rw [hflat]
        simp [openMarks, flattenAll, Token.marks]
    · cases outer with
      | nil => exact absurd hfits (Token.not_fits_zero_closing ts)
      | cons above outer =>
        rw [List.length_cons, Token.fits_closing] at hfits
        rw [Token.closings_closing, Token.openings_of_ne (by decide), List.length_cons] at heven
        obtain ⟨trees, hbuild, hflat⟩ := ih line (.list items.reverse :: above) outer hfits
          (by omega)
        refine ⟨trees, ?_, ?_⟩
        · rw [Token.newlines_of_ne (by decide), build, hbuild]
        · rw [hflat, openMarks_cons]
          simp [openMarks, flatten, Token.marks]
    · rw [Token.fits_of_ne hu.ne_opening hu.ne_closing] at hfits
      rw [Token.closings_of_ne hu.ne_closing, Token.openings_of_ne hu.ne_opening] at heven
      obtain ⟨trees, hbuild, hflat⟩ := ih line (u :: items) outer hfits heven
      refine ⟨trees, ?_, ?_⟩
      · rw [Token.newlines_of_ne hu.ne_newline, hu.build_eq, hbuild]
      · rw [hflat, openMarks_cons, hu.marks_eq, List.append_assoc]

/-- Tokens that leave parentheses open are refused at their end. -/
theorem build_of_unclosed (ts : List Token) : ∀ (line : Nat) (items : List Tree)
    (outer : List (List Tree)), Token.Fits outer.length ts →
    Token.closings ts < outer.length + Token.openings ts →
    build line items outer ts = ⟨line + Token.newlines ts, .error ⟨line + Token.newlines ts,
      .unclosed (outer.length + Token.openings ts - Token.closings ts)⟩⟩ := by
  induction ts with
  | nil =>
    intro line items outer _ hlt
    cases outer with
    | nil => exact absurd hlt (Nat.lt_irrefl 0)
    | cons above outer => simp [build, Token.newlines, Token.openings, Token.closings]
  | cons t ts ih =>
    intro line items outer hfits hlt
    rcases token_cases t with rfl | rfl | rfl | ⟨u, hu⟩
    · rw [Token.fits_of_ne (by decide) (by decide)] at hfits
      rw [Token.closings_of_ne (by decide), Token.openings_of_ne (by decide)] at hlt ⊢
      rw [build, ih _ _ _ hfits hlt, Token.newlines_newline, Nat.add_assoc, Nat.add_comm 1]
    · rw [Token.fits_opening] at hfits
      rw [Token.openings_opening, Token.closings_of_ne (by decide)] at hlt ⊢
      rw [build, ih line [] (items :: outer) hfits (by rw [List.length_cons]; omega),
        Token.newlines_of_ne (by decide), List.length_cons, Nat.add_right_comm,
        Nat.add_assoc outer.length]
    · cases outer with
      | nil => exact absurd hfits (Token.not_fits_zero_closing ts)
      | cons above outer =>
        rw [List.length_cons, Token.fits_closing] at hfits
        rw [Token.closings_closing, Token.openings_of_ne (by decide), List.length_cons] at hlt ⊢
        rw [build, ih _ _ _ hfits (by omega), Token.newlines_of_ne (by decide),
          Nat.add_right_comm, Nat.add_sub_add_right]
    · rw [Token.fits_of_ne hu.ne_opening hu.ne_closing] at hfits
      rw [Token.closings_of_ne hu.ne_closing, Token.openings_of_ne hu.ne_opening] at hlt ⊢
      rw [hu.build_eq, ih _ _ _ hfits hlt, Token.newlines_of_ne hu.ne_newline]

/-- A closing parenthesis that has no partner is refused where it stands. -/
theorem build_of_stray (front : List Token) (back : List Token) : ∀ (line : Nat)
    (items : List Tree) (outer : List (List Tree)), Token.Fits outer.length front →
    Token.closings front = outer.length + Token.openings front →
    build line items outer (front ++ .closing :: back) = ⟨line + Token.newlines front,
      .error ⟨line + Token.newlines front, .unexpectedClosing⟩⟩ := by
  induction front with
  | nil =>
    intro line items outer _ heven
    cases outer with
    | nil => rfl
    | cons above outer => simp [Token.closings, Token.openings] at heven
  | cons t front ih =>
    intro line items outer hfits heven
    rw [List.cons_append]
    rcases token_cases t with rfl | rfl | rfl | ⟨u, hu⟩
    · rw [Token.fits_of_ne (by decide) (by decide)] at hfits
      rw [Token.closings_of_ne (by decide), Token.openings_of_ne (by decide)] at heven
      rw [build, ih _ _ _ hfits heven, Token.newlines_newline, Nat.add_assoc, Nat.add_comm 1]
    · rw [Token.fits_opening] at hfits
      rw [Token.openings_opening, Token.closings_of_ne (by decide)] at heven
      rw [build, ih line [] (items :: outer) hfits (by rw [List.length_cons]; omega),
        Token.newlines_of_ne (by decide)]
    · cases outer with
      | nil => exact absurd hfits (Token.not_fits_zero_closing front)
      | cons above outer =>
        rw [List.length_cons, Token.fits_closing] at hfits
        rw [Token.closings_closing, Token.openings_of_ne (by decide), List.length_cons] at heven
        rw [build, ih _ _ _ hfits (by omega), Token.newlines_of_ne (by decide)]
    · rw [Token.fits_of_ne hu.ne_opening hu.ne_closing] at hfits
      rw [Token.closings_of_ne hu.ne_closing, Token.openings_of_ne hu.ne_opening] at heven
      rw [hu.build_eq, ih _ _ _ hfits heven, Token.newlines_of_ne hu.ne_newline]

end Tree

/-! ## What the reader accepts and refuses -/

/-- The error for tokens that start on line `line` and are not balanced: at the first
closing parenthesis without a partner, or else at the end. -/
inductive Token.Refusal (line : Nat) (ts : List Token) : SyntaxError → Prop where
  | stray {front back : List Token} (split : ts = front ++ .closing :: back)
      (balanced : Token.Balanced front) :
      Token.Refusal line ts ⟨line + Token.newlines front, .unexpectedClosing⟩
  | unclosed (fits : Token.Fits 0 ts) (short : Token.closings ts < Token.openings ts) :
      Token.Refusal line ts ⟨line + Token.newlines ts,
        .unclosed (Token.openings ts - Token.closings ts)⟩

theorem Token.balanced_or_refusal (line : Nat) (ts : List Token) :
    Token.Balanced ts ∨ ∃ error, Token.Refusal line ts error := by
  rcases Token.fits_or_stray ts 0 with hfits | ⟨front, back, hsplit, hfits, heven⟩
  · by_cases heven : Token.closings ts = Token.openings ts
    · exact .inl ⟨hfits, heven⟩
    · have hle := hfits ts (List.prefix_refl ts)
      exact .inr ⟨_, .unclosed hfits (by omega)⟩
  · exact .inr ⟨_, .stray hsplit ⟨hfits, by omega⟩⟩

namespace Tree

/-- Balanced tokens are read as the trees that look like them written out. -/
theorem build_of_balanced {ts : List Token} (h : Token.Balanced ts) (line : Nat) :
    ∃ trees, build line [] [] ts = ⟨line + Token.newlines ts, .ok trees⟩ ∧
      flattenAll trees = Token.marks line ts := by
  obtain ⟨trees, hbuild, hflat⟩ := build_of_even ts line [] [] h.fits
    (by rw [h.even, List.length_nil, Nat.zero_add])
  exact ⟨trees, hbuild, by simpa [openMarks, flattenAll] using hflat⟩

/-- Other tokens are refused with their error, on the line of the error. -/
theorem build_of_refusal {line : Nat} {ts : List Token} {error : SyntaxError}
    (h : Token.Refusal line ts error) : build line [] [] ts = ⟨error.line, .error error⟩ := by
  cases h with
  | stray hsplit hfront =>
    rw [hsplit]
    exact build_of_stray _ _ line [] [] hfront.fits
      (by rw [hfront.even, List.length_nil, Nat.zero_add])
  | unclosed hfits hshort =>
    have hbuild := build_of_unclosed ts line [] [] hfits
      (by rw [List.length_nil, Nat.zero_add]; exact hshort)
    rw [List.length_nil, Nat.zero_add] at hbuild
    exact hbuild

theorem build_eq_ok_iff {line : Nat} {ts : List Token} {trees : List Tree} :
    (build line [] [] ts).result = .ok trees ↔
      Token.Balanced ts ∧ flattenAll trees = Token.marks line ts := by
  constructor
  · intro hok
    rcases Token.balanced_or_refusal line ts with hbalanced | ⟨error, hrefusal⟩
    · obtain ⟨others, hbuild, hflat⟩ := build_of_balanced hbalanced line
      rw [hbuild] at hok
      cases hok
      exact ⟨hbalanced, hflat⟩
    · rw [build_of_refusal hrefusal] at hok
      cases hok
  · rintro ⟨hbalanced, hflat⟩
    obtain ⟨others, hbuild, hothers⟩ := build_of_balanced hbalanced line
    rw [hbuild, flattenAll_inj (hothers.trans hflat.symm)]

theorem build_eq_error_iff {line : Nat} {ts : List Token} {error : SyntaxError} :
    (build line [] [] ts).result = .error error ↔ Token.Refusal line ts error := by
  constructor
  · intro herror
    rcases Token.balanced_or_refusal line ts with hbalanced | ⟨other, hrefusal⟩
    · obtain ⟨trees, hbuild, _⟩ := build_of_balanced hbalanced line
      rw [hbuild] at herror
      cases herror
    · rw [build_of_refusal hrefusal] at herror
      cases herror
      exact hrefusal
  · intro hrefusal
    rw [build_of_refusal hrefusal]

end Tree

namespace Session

variable {W : Type}

/-- A source that cannot be read is told of, and changes nothing else. -/
theorem eval_of_error [FileSystem W] (s : Session W) (rounds : Nat) {src : Bytes}
    {error : SyntaxError} (h : (Reader.start.parse src).2 = .error error) :
    ∃ journal, s.eval rounds src =
      ({ s.flushAnyway with depth := 0, line := 1, journal := journal },
        .fault ((Cause.unreadable error.problem).report error.line)) := by
  have hparse : ∃ journal, ({ s.atRest with line := 1 } : Session W).parse src =
      ({ s.atRest with line := 1, journal := journal }, .error error) := by
    unfold parse
    rw [h]
    split
    · exact ⟨_, rfl⟩
    · exact ⟨_, rfl⟩
  obtain ⟨journal, hparse⟩ := hparse
  unfold eval
  rw [hparse]
  simp only [settleFault, reportFault, diagnose]
  split
  · exact ⟨_, rfl⟩
  · exact ⟨_, rfl⟩

end Session

/-- The reader accepts the sources whose tokens are balanced and reads them as the
one list of trees that looks like the tokens written out; every other source it
refuses with its error.  A session that evaluates such a source reports that error
and is left as it was. -/
theorem Reader.parse_eq_grammar {W : Type} [FileSystem W] (r : Reader) (s : Session W)
    (rounds : Nat) (src : Bytes) :
    ∃ ts, (∀ us, Token.Lexes src us ↔ us = ts) ∧
      ((∃ trees, (r.parse src).2 = .ok trees) ↔ Token.Balanced ts) ∧
      (∀ trees, (r.parse src).2 = .ok trees ↔
        Token.Balanced ts ∧ Tree.flattenAll trees = Token.marks r.firstLine ts) ∧
      (∀ error, (r.parse src).2 = .error error ↔ Token.Refusal r.firstLine ts error) ∧
      (¬ Token.Balanced ts → ∃ error journal, Token.Refusal 1 ts error ∧
        s.eval rounds src =
          ({ s.flushAnyway with depth := 0, line := 1, journal := journal },
            .fault
              ⟨.unbalancedParenthesis, error.line, .absent, error.problem.message, none⟩)) := by
  refine ⟨Token.scan src, fun us => Token.lexes_iff, ?_, fun trees => Tree.build_eq_ok_iff,
    fun error => Tree.build_eq_error_iff, ?_⟩
  · constructor
    · rintro ⟨trees, hok⟩
      exact (Tree.build_eq_ok_iff.1 hok).1
    · intro hbalanced
      obtain ⟨trees, hbuild, _⟩ := Tree.build_of_balanced hbalanced r.firstLine
      refine ⟨trees, ?_⟩
      unfold parse Tree.read
      rw [hbuild]
  · intro hunbalanced
    rcases Token.balanced_or_refusal 1 (Token.scan src) with hbalanced | ⟨error, hrefusal⟩
    · exact absurd hbalanced hunbalanced
    · have herror : (Reader.start.parse src).2 = .error error :=
        Tree.build_eq_error_iff.2 hrefusal
      obtain ⟨journal, heval⟩ := s.eval_of_error rounds herror
      exact ⟨error, journal, hrefusal, heval⟩

end StackScript
