import StackScript.Token
set_option autoImplicit false

/-!
# The lexical table

`Spelling` is the lexical table of the language: which byte strings are blanks,
comments or tokens, and which token each spells.  It says nothing about scanning.
A text is cut by maximal munch (`Lexes`): at each point the longest byte string of
the table that the text goes on with is cut off.

The scanner does exactly that: `lexes_iff` says that `Token.scan` gives the one
sequence of tokens that a text is cut into.
-/

namespace StackScript

namespace Token

/-! ## The table -/

/-- The bytes an operator starts with: those it goes on with, but for the ones that
open a comment or a dotted name. -/
def startsOperator (b : UInt8) : Bool := continuesOperator b && b != 35 && b != 46

/-- What a byte string spells: a token, or nothing for blanks and comments. -/
inductive Spelling : Bytes → Option Token → Prop where
  | blank {b : UInt8} (h : isSpace b = true) : Spelling [b] none
  /-- a comment reaches up to a newline -/
  | comment {s : Bytes} (h : StackScript.newline ∉ s) : Spelling (35 :: s) none
  | newline : Spelling [StackScript.newline] (some .newline)
  | opening : Spelling [40] (some .opening)
  | closing : Spelling [41] (some .closing)
  | quoted {s : Bytes} (h : backtick ∉ s) :
      Spelling (backtick :: (s ++ [backtick])) (some (.quoted s))
  /-- a text that no backtick closes -/
  | unclosed {s : Bytes} (h : backtick ∉ s) : Spelling (backtick :: s) (some (.quoted s))
  | numeral {b : UInt8} {s : Bytes} (hb : startsNumber (b :: s) = true)
      (hs : ∀ c ∈ s, isNumeralByte c = true) : Spelling (b :: s) (some (.numeral (b :: s)))
  | symbol {b : UInt8} {s : Bytes} (hb : startsSymbol b = true)
      (hs : ∀ c ∈ s, continuesSymbol c = true) : Spelling (b :: s) (some (.symbol (b :: s)))
  | dotted {s : Bytes} (hs : ∀ c ∈ s, continuesSymbol c = true) :
      Spelling (46 :: s) (some (.dotted (46 :: s)))
  | operator {b : UInt8} {s : Bytes} (hb : startsOperator b = true)
      (hs : ∀ c ∈ s, continuesOperator c = true) : Spelling (b :: s) (some (.operator (b :: s)))

/-- The longest byte string of the table that a text starts with, what it spells,
and what follows it. -/
structure Munch (text lexeme : Bytes) (t : Option Token) (rest : Bytes) : Prop where
  split : text = lexeme ++ rest
  spelled : Spelling lexeme t
  longest : ∀ longer u, longer <+: text → Spelling longer u → longer.length ≤ lexeme.length

/-- The tokens that a text is cut into by maximal munch. -/
inductive Lexes : Bytes → List Token → Prop where
  | nil : Lexes [] []
  | cons {text lexeme rest : Bytes} {t : Option Token} {ts : List Token}
      (head : Munch text lexeme t rest) (tail : Lexes rest ts) : Lexes text (t.toList ++ ts)

/-! ## Classes of bytes -/

theorem forall_byte {p : UInt8 → Bool} (h : ∀ n : Fin 256, p (UInt8.ofFin n) = true) (b : UInt8) :
    p b = true := by
  simpa using h b.toFin

/-- The bytes that open no row of the table by themselves. -/
def isOrdinary (b : UInt8) : Bool :=
  !(isSpace b || b == StackScript.newline || b == backtick || b == 35 || b == 40 || b == 41 ||
    b == 46)

theorem first_of_isOrdinary {b : UInt8} (h : isOrdinary b = true) (rest : Bytes) :
    first b rest =
      if startsNumber (b :: rest) then
        (some (.numeral (b :: rest.takeWhile isNumeralByte)), rest.dropWhile isNumeralByte)
      else if startsSymbol b then
        (some (.symbol (b :: rest.takeWhile continuesSymbol)), rest.dropWhile continuesSymbol)
      else
        (some (.operator (b :: rest.takeWhile continuesOperator)),
          rest.dropWhile continuesOperator) := by
  simp only [isOrdinary, Bool.not_eq_true', Bool.or_eq_false_iff, beq_eq_false_iff_ne] at h
  obtain ⟨⟨⟨⟨⟨⟨hspace, hnewline⟩, hbacktick⟩, hhash⟩, hopen⟩, hclose⟩, hpoint⟩ := h
  simp [first, hspace, hnewline, hbacktick, hhash, hopen, hclose, hpoint]

theorem isOrdinary_of_isDigit {b : UInt8} (h : isDigit b = true) : isOrdinary b = true := by
  have all := forall_byte (p := fun b => !isDigit b || isOrdinary b) (by decide +kernel) b
  simpa [h] using all

theorem startsSymbol_class {b : UInt8} (h : startsSymbol b = true) :
    isOrdinary b = true ∧ isDigit b = false ∧ b ≠ 45 := by
  have all := forall_byte
    (p := fun b => !startsSymbol b || (isOrdinary b && !isDigit b && b != 45))
    (by decide +kernel) b
  simpa [h, and_assoc] using all

theorem startsOperator_class {b : UInt8} (h : startsOperator b = true) :
    isOrdinary b = true ∧ isDigit b = false ∧ startsSymbol b = false := by
  have all := forall_byte
    (p := fun b => !startsOperator b || (isOrdinary b && !isDigit b && !startsSymbol b))
    (by decide +kernel) b
  simpa [h, and_assoc] using all

theorem isDigit_eq_false_of_continuesOperator {b : UInt8} (h : continuesOperator b = true) :
    isDigit b = false := by
  have all := forall_byte (p := fun b => !continuesOperator b || !isDigit b)
    (by decide +kernel) b
  simpa [h] using all

/-- A byte that falls under no other row starts an operator. -/
theorem startsOperator_of_rest {b : UInt8} (hb : isOrdinary b = true) (hdigit : isDigit b = false)
    (hsymbol : startsSymbol b = false) : startsOperator b = true := by
  have all := forall_byte
    (p := fun b => !isOrdinary b || isDigit b || startsSymbol b || startsOperator b)
    (by decide +kernel) b
  simpa [hb, hdigit, hsymbol] using all

/-! ## What is cut off first -/

/-- Nothing can be added to the longest byte string. -/
theorem Munch.eq_nil_of_spelling {text lexeme rest more tail : Bytes} {t u : Option Token}
    (h : Munch text lexeme t rest) (hrest : rest = more ++ tail)
    (hmore : Spelling (lexeme ++ more) u) : more = [] := by
  have hlonger : lexeme ++ more <+: text := by
    rw [h.split, hrest, ← List.append_assoc]
    exact List.prefix_append _ _
  have hlength := h.longest _ _ hlonger hmore
  rw [List.length_append] at hlength
  exact List.length_eq_zero_iff.1 (by omega)

/-- A row that goes on with the bytes of a class is cut off up to the first byte
outside the class. -/
theorem Munch.stops {text lexeme rest : Bytes} {t : Option Token} {p : UInt8 → Bool}
    (h : Munch text lexeme t rest)
    (hgrow : ∀ c, p c = true → ∃ u, Spelling (lexeme ++ [c]) u) :
    ∀ c, rest.head? = some c → p c = false := by
  intro c hc
  obtain ⟨tail, htail⟩ := List.head?_eq_some_iff.1 hc
  cases hp : p c with
  | false => rfl
  | true =>
    obtain ⟨u, hu⟩ := hgrow c hp
    have hnil : [c] = [] := h.eq_nil_of_spelling htail hu
    cases hnil

theorem forall_mem_snoc {p : UInt8 → Bool} {s : Bytes} {c : UInt8} (hs : ∀ b ∈ s, p b = true)
    (hc : p c = true) : ∀ b ∈ s ++ [c], p b = true := by
  intro b hb
  rcases List.mem_append.1 hb with hb | hb
  · exact hs b hb
  · rw [List.mem_singleton] at hb
    exact hb ▸ hc

theorem bne_of_not_mem {x : UInt8} {s : Bytes} (h : x ∉ s) : ∀ b ∈ s, (b != x) = true := by
  intro b hb
  have hne : b ≠ x := fun heq => h (heq ▸ hb)
  simpa using hne

theorem not_mem_snoc {x c : UInt8} {s : Bytes} (h : x ∉ s) (hc : c ≠ x) : x ∉ s ++ [c] := by
  rw [List.mem_append, List.mem_singleton, not_or]
  exact ⟨h, fun heq => hc heq.symm⟩

theorem startsNumber_append {s : Bytes} (h : startsNumber s = true) (rest : Bytes) :
    startsNumber (s ++ rest) = true := by
  cases s with
  | nil => cases h
  | cons b s =>
    simp only [startsNumber, List.cons_append] at h ⊢
    split
    · rename_i hb
      rw [if_pos hb] at h
      cases s with
      | nil => cases h
      | cons c s => exact h
    · rename_i hb
      rw [if_neg hb] at h
      exact h

theorem isOrdinary_of_startsNumber {b : UInt8} {s : Bytes} (h : startsNumber (b :: s) = true) :
    isOrdinary b = true := by
  simp only [startsNumber] at h
  split at h
  · rename_i hb
    subst hb
    decide
  · exact isOrdinary_of_isDigit h

/-- A text in backticks is taken up to the backtick that closes it. -/
theorem first_quoted {s : Bytes} (h : backtick ∉ s) (rest : Bytes) :
    first backtick (s ++ backtick :: rest) = (some (.quoted s), rest) := by
  have hspan := @Bytes.span_run (· != backtick) s (backtick :: rest)
    (bne_of_not_mem h) (by simp)
  have hspace : isSpace backtick = false := by decide
  have hnewline : backtick ≠ StackScript.newline := by decide
  simp [first, hspace, hnewline, hspan.1, hspan.2]

/-- A text that no backtick closes is taken up to the end. -/
theorem first_unclosed {s : Bytes} (h : backtick ∉ s) :
    first backtick s = (some (.quoted s), []) := by
  have hspan := @Bytes.span_run (· != backtick) s [] (bne_of_not_mem h) (by simp)
  rw [List.append_nil] at hspan
  have hspace : isSpace backtick = false := by decide
  have hnewline : backtick ≠ StackScript.newline := by decide
  simp [first, hspace, hnewline, hspan.1, hspan.2]

/-- A comment is taken up to the newline that follows it. -/
theorem first_comment {s rest : Bytes} (h : StackScript.newline ∉ s)
    (hrest : ∀ c, rest.head? = some c → (c != StackScript.newline) = false) :
    first 35 (s ++ rest) = (none, rest) := by
  have hspan := Bytes.span_run (bne_of_not_mem h) hrest
  have hspace : isSpace 35 = false := by decide
  have hnewline : (35 : UInt8) ≠ StackScript.newline := by decide
  have hbacktick : (35 : UInt8) ≠ backtick := by decide
  simp [first, hspace, hnewline, hbacktick, hspan.2]

theorem first_dotted {s rest : Bytes} (hs : ∀ c ∈ s, continuesSymbol c = true)
    (hrest : ∀ c, rest.head? = some c → continuesSymbol c = false) :
    first 46 (s ++ rest) = (some (.dotted (46 :: s)), rest) := by
  have hspan := Bytes.span_run hs hrest
  have hspace : isSpace 46 = false := by decide
  have hnewline : (46 : UInt8) ≠ StackScript.newline := by decide
  have hbacktick : (46 : UInt8) ≠ backtick := by decide
  simp [first, hspace, hnewline, hbacktick, hspan.1, hspan.2]

theorem first_numeral {b : UInt8} {s rest : Bytes} (hb : startsNumber (b :: s) = true)
    (hs : ∀ c ∈ s, isNumeralByte c = true)
    (hrest : ∀ c, rest.head? = some c → isNumeralByte c = false) :
    first b (s ++ rest) = (some (.numeral (b :: s)), rest) := by
  have hspan := Bytes.span_run hs hrest
  have hstart : startsNumber (b :: (s ++ rest)) = true := startsNumber_append hb rest
  rw [first_of_isOrdinary (isOrdinary_of_startsNumber hb), if_pos hstart, hspan.1, hspan.2]

theorem first_symbol {b : UInt8} {s rest : Bytes} (hb : startsSymbol b = true)
    (hs : ∀ c ∈ s, continuesSymbol c = true)
    (hrest : ∀ c, rest.head? = some c → continuesSymbol c = false) :
    first b (s ++ rest) = (some (.symbol (b :: s)), rest) := by
  obtain ⟨hordinary, hdigit, hminus⟩ := startsSymbol_class hb
  have hspan := Bytes.span_run hs hrest
  have hstart : startsNumber (b :: (s ++ rest)) = false := by
    simp [startsNumber, hminus, hdigit]
  rw [first_of_isOrdinary hordinary, hstart, if_neg Bool.false_ne_true, if_pos hb, hspan.1,
    hspan.2]

theorem first_operator {b : UInt8} {s rest : Bytes} (hb : startsOperator b = true)
    (hs : ∀ c ∈ s, continuesOperator c = true)
    (hrest : ∀ c, rest.head? = some c → continuesOperator c = false)
    (hstart : startsNumber (b :: (s ++ rest)) = false) :
    first b (s ++ rest) = (some (.operator (b :: s)), rest) := by
  obtain ⟨hordinary, _, hsymbol⟩ := startsOperator_class hb
  have hspan := Bytes.span_run hs hrest
  rw [first_of_isOrdinary hordinary, hstart, if_neg Bool.false_ne_true, hsymbol,
    if_neg Bool.false_ne_true, hspan.1, hspan.2]

/-- A text that no backtick closes is cut off up to the end: whatever follows, the text would
go on with it. -/
theorem Munch.eq_nil_of_unclosed {s rest : Bytes} {t : Option Token}
    (h : Munch (backtick :: (s ++ rest)) (backtick :: s) t rest) (hs : backtick ∉ s) :
    rest = [] := by
  have hstops := h.stops (p := fun _ => true) fun c _ => by
    by_cases hc : c = backtick
    · subst hc
      exact ⟨_, .quoted hs⟩
    · exact ⟨_, .unclosed (not_mem_snoc hs hc)⟩
  cases rest with
  | nil => rfl
  | cons c rest => simpa using hstops c rfl

/-- An operator that is cut off is not the start of a numeral: the numeral would be
longer. -/
theorem Munch.startsNumber_eq_false {b : UInt8} {s rest : Bytes} {t : Option Token}
    (h : Munch (b :: (s ++ rest)) (b :: s) t rest) (hb : startsOperator b = true)
    (hs : ∀ c ∈ s, continuesOperator c = true) : startsNumber (b :: (s ++ rest)) = false := by
  obtain ⟨_, hdigit, _⟩ := startsOperator_class hb
  by_cases hminus : b = 45
  · subst hminus
    cases s with
    | cons c s =>
      simp [startsNumber, isDigit_eq_false_of_continuesOperator (hs c List.mem_cons_self)]
    | nil =>
      -- the sign stands alone, so a digit after it would make a numeral of two bytes
      cases rest with
      | nil => rfl
      | cons c rest =>
        have hstops := h.stops (p := isDigit) fun d hd =>
          ⟨_, .numeral (by simpa [startsNumber] using hd) (by simp [isNumeralByte, hd])⟩
        simpa [startsNumber] using hstops c rfl
  · simp [startsNumber, hminus, hdigit]

/-- What the scanner cuts off is what maximal munch cuts off. -/
theorem Munch.first_eq {b : UInt8} {text lexeme rest : Bytes} {t : Option Token}
    (h : Munch (b :: text) lexeme t rest) : first b text = (t, rest) := by
  have hsplit := h.split
  cases h.spelled with
  | blank hspace =>
    simp only [List.cons_append, List.cons.injEq] at hsplit
    obtain ⟨rfl, rfl⟩ := hsplit
    simp [first, hspace]
  | newline =>
    simp only [List.cons_append, List.cons.injEq] at hsplit
    obtain ⟨rfl, rfl⟩ := hsplit
    rfl
  | opening =>
    simp only [List.cons_append, List.cons.injEq] at hsplit
    obtain ⟨rfl, rfl⟩ := hsplit
    rfl
  | closing =>
    simp only [List.cons_append, List.cons.injEq] at hsplit
    obtain ⟨rfl, rfl⟩ := hsplit
    rfl
  | comment hs =>
    simp only [List.cons_append, List.cons.injEq] at hsplit
    obtain ⟨rfl, rfl⟩ := hsplit
    exact first_comment hs (h.stops fun c hc =>
      ⟨_, .comment (not_mem_snoc hs (by simpa using hc))⟩)
  | @quoted s hs =>
    simp only [List.cons_append, List.append_assoc, List.cons.injEq] at hsplit
    obtain ⟨rfl, rfl⟩ := hsplit
    exact first_quoted hs rest
  | @unclosed s hs =>
    simp only [List.cons_append, List.cons.injEq] at hsplit
    obtain ⟨rfl, rfl⟩ := hsplit
    rw [h.eq_nil_of_unclosed hs, List.append_nil]
    exact first_unclosed hs
  | numeral hb hs =>
    simp only [List.cons_append, List.cons.injEq] at hsplit
    obtain ⟨rfl, rfl⟩ := hsplit
    exact first_numeral hb hs (h.stops fun c hc =>
      ⟨_, .numeral (startsNumber_append hb [c]) (forall_mem_snoc hs hc)⟩)
  | symbol hb hs =>
    simp only [List.cons_append, List.cons.injEq] at hsplit
    obtain ⟨rfl, rfl⟩ := hsplit
    exact first_symbol hb hs (h.stops fun c hc => ⟨_, .symbol hb (forall_mem_snoc hs hc)⟩)
  | dotted hs =>
    simp only [List.cons_append, List.cons.injEq] at hsplit
    obtain ⟨rfl, rfl⟩ := hsplit
    exact first_dotted hs (h.stops fun c hc => ⟨_, .dotted (forall_mem_snoc hs hc)⟩)
  | operator hb hs =>
    simp only [List.cons_append, List.cons.injEq] at hsplit
    obtain ⟨rfl, rfl⟩ := hsplit
    exact first_operator hb hs
      (h.stops fun c hc => ⟨_, .operator hb (forall_mem_snoc hs hc)⟩)
      (h.startsNumber_eq_false hb hs)

/-! ## Every text is cut in one way -/

/-- Every byte is a spelling by itself, so there is always something to cut off. -/
theorem exists_spelling_singleton (b : UInt8) : ∃ t, Spelling [b] t := by
  by_cases hspace : isSpace b = true
  · exact ⟨_, .blank hspace⟩
  by_cases hnewline : b = StackScript.newline
  · subst hnewline
    exact ⟨_, .newline⟩
  by_cases hbacktick : b = backtick
  · subst hbacktick
    exact ⟨_, .unclosed List.not_mem_nil⟩
  by_cases hhash : b = 35
  · subst hhash
    exact ⟨_, .comment List.not_mem_nil⟩
  by_cases hopen : b = 40
  · subst hopen
    exact ⟨_, .opening⟩
  by_cases hclose : b = 41
  · subst hclose
    exact ⟨_, .closing⟩
  by_cases hpoint : b = 46
  · subst hpoint
    exact ⟨_, .dotted (by simp)⟩
  have hordinary : isOrdinary b = true := by
    simp [isOrdinary, hspace, hnewline, hbacktick, hhash, hopen, hclose, hpoint]
  by_cases hdigit : isDigit b = true
  · have hminus : b ≠ 45 := by
      rintro rfl
      exact absurd hdigit (by decide)
    exact ⟨_, .numeral (by simp [startsNumber, hminus, hdigit]) (by simp)⟩
  by_cases hsymbol : startsSymbol b = true
  · exact ⟨_, .symbol hsymbol (by simp)⟩
  have hoperator :=
    startsOperator_of_rest hordinary (by simpa using hdigit) (by simpa using hsymbol)
  exact ⟨_, .operator hoperator (by simp)⟩

/-- If a text starts with some spelling, it starts with a longest one: one that is
not the longest gives way to a longer one, and none is longer than the text. -/
theorem exists_munch_of_prefix {text : Bytes} (room : Nat) :
    ∀ {lexeme : Bytes} {t : Option Token}, lexeme <+: text → Spelling lexeme t →
      text.length - lexeme.length ≤ room → ∃ longest u rest, Munch text longest u rest := by
  induction room with
  | zero =>
    intro lexeme t hprefix hspelled hroom
    obtain ⟨rest, hsplit⟩ := hprefix
    refine ⟨lexeme, t, rest, hsplit.symm, hspelled, ?_⟩
    intro longer u hlonger _
    have := hlonger.length_le
    omega
  | succ room ih =>
    intro lexeme t hprefix hspelled hroom
    by_cases hmore : ∃ longer u, longer <+: text ∧ Spelling longer u ∧ lexeme.length < longer.length
    · obtain ⟨longer, u, hlonger, hu, hlt⟩ := hmore
      exact ih hlonger hu (by omega)
    · obtain ⟨rest, hsplit⟩ := hprefix
      refine ⟨lexeme, t, rest, hsplit.symm, hspelled, ?_⟩
      intro longer u hlonger hu
      apply Nat.le_of_not_lt
      intro hlt
      exact hmore ⟨longer, u, hlonger, hu, hlt⟩

/-- The scanner cuts off a longest spelling. -/
theorem exists_munch_first (b : UInt8) (text : Bytes) :
    ∃ lexeme, Munch (b :: text) lexeme (first b text).1 (first b text).2 := by
  obtain ⟨t, ht⟩ := exists_spelling_singleton b
  have hprefix : [b] <+: b :: text := ⟨text, rfl⟩
  obtain ⟨lexeme, u, rest, hmunch⟩ := exists_munch_of_prefix _ hprefix ht (Nat.le_refl _)
  rw [hmunch.first_eq]
  exact ⟨lexeme, hmunch⟩

theorem scan_nil : scan [] = [] := by
  rw [scan]

theorem scan_cons (b : UInt8) (text : Bytes) :
    scan (b :: text) = (first b text).1.toList ++ scan (first b text).2 := by
  rw [scan]

theorem Spelling.ne_nil {lexeme : Bytes} {t : Option Token} (h : Spelling lexeme t) :
    lexeme ≠ [] := by
  cases h <;> simp

theorem Lexes.eq_scan {src : Bytes} {ts : List Token} (h : Lexes src ts) : ts = scan src := by
  induction h with
  | nil => exact scan_nil.symm
  | @cons text lexeme rest t ts head tail ih =>
    obtain ⟨b, s, hlexeme⟩ := List.exists_cons_of_ne_nil head.spelled.ne_nil
    have htext : text = b :: (s ++ rest) := by
      rw [head.split, hlexeme, List.cons_append]
    rw [htext] at head ⊢
    rw [scan_cons, head.first_eq, ih]

theorem lexes_scan (src : Bytes) : Lexes src (scan src) := by
  induction hn : src.length using Nat.strongRecOn generalizing src with
  | ind n ih =>
    cases src with
    | nil =>
      rw [scan_nil]
      exact .nil
    | cons b text =>
      obtain ⟨lexeme, hmunch⟩ := exists_munch_first b text
      have hlength : (first b text).2.length < n := by
        rw [← hn]
        exact Nat.lt_succ_of_le (length_first_le b text)
      rw [scan_cons]
      exact .cons hmunch (ih _ hlength _ rfl)

/-- The scanner cuts every text by maximal munch, and there is no other way to. -/
theorem lexes_iff {src : Bytes} {ts : List Token} : Lexes src ts ↔ ts = scan src :=
  ⟨Lexes.eq_scan, fun h => h ▸ lexes_scan src⟩

end Token

end StackScript
