import StackScript.Proofs.Lexical
set_option autoImplicit false

/-!
# Texts put together

A text is scanned up to its end, and what follows it is scanned from there, unless the text
ends inside something: a text that no backtick has closed, a comment, or a token that goes
on.  `Token.ending` tells where a text ends, and `Resumes` which texts can follow without
changing a token before them (`scan_append`).

Whatever follows, only what is cut off last can change.  A closing parenthesis never does,
nor does anything in front of it (`exists_scan_append_of_closing`).
-/

namespace StackScript

namespace Token

/-! ## Where a text ends -/

/-- Where the scan of a text ends. -/
inductive Ending where
  /-- outside texts in backticks and comments -/
  | outside
  | comment
  /-- in a text that no backtick has closed -/
  | text
  deriving DecidableEq, Repr, Inhabited

/-- Where the scan of a text ends. -/
def ending : Bytes → Ending
  | [] => .outside
  | b :: rest =>
    if b = backtick ∧ backtick ∉ rest then .text
    else if b = 35 ∧ StackScript.newline ∉ rest then .comment
    else ending (first b rest).2
termination_by text => text.length
decreasing_by exact Nat.lt_succ_of_le (length_first_le b rest)

/-- The bytes that neither a symbol nor an operator goes on with, nor any other run of
bytes. -/
def separates (b : UInt8) : Bool := !(continuesSymbol b || continuesOperator b)

/-- What can follow a text that ends so, and what of it is scanned afresh. -/
inductive Resumes : Ending → Bytes → Bytes → Prop where
  | outside {t : Bytes} (head : ∀ c, t.head? = some c → separates c = true) :
      Resumes .outside t t
  /-- a comment goes on up to a newline -/
  | comment {t : Bytes} (head : ∀ c, t.head? = some c → c = StackScript.newline) :
      Resumes .comment t t
  /-- a text goes on up to a backtick -/
  | text (t : Bytes) : Resumes .text (backtick :: t) t

theorem separates_class {b : UInt8} (h : separates b = true) :
    continuesSymbol b = false ∧ continuesOperator b = false ∧ isNumeralByte b = false ∧
      isDigit b = false := by
  have all := forall_byte (p := fun b => !separates b || (!continuesSymbol b &&
    !continuesOperator b && !isNumeralByte b && !isDigit b)) (by decide +kernel) b
  simpa [h, and_assoc] using all

/-! ## What is cut off stays the same -/

/-- A run of bytes of a class ends where it did, if it was followed by something or is now
followed by a byte that separates. -/
theorem Munch.stops_append {text lexeme rest t : Bytes} {token : Option Token} {p : UInt8 → Bool}
    (h : Munch text lexeme token rest)
    (hgrow : ∀ c, p c = true → ∃ u, Spelling (lexeme ++ [c]) u)
    (hp : ∀ c, separates c = true → p c = false)
    (hnext : rest = [] → ∀ c, t.head? = some c → separates c = true) :
    ∀ c, (rest ++ t).head? = some c → p c = false := by
  intro c hc
  cases rest with
  | nil => exact hp c (hnext rfl c hc)
  | cons d rest => exact h.stops hgrow c hc

theorem startsNumber_append_of_false {b c : UInt8} {s : Bytes}
    (h : startsNumber (b :: c :: s) = false) (t : Bytes) :
    startsNumber (b :: (c :: s ++ t)) = false := by
  simpa [startsNumber] using h

/-- An operator does not become a numeral by what follows it. -/
theorem Munch.startsNumber_append_eq_false {b : UInt8} {s rest t : Bytes} {token : Option Token}
    (h : Munch (b :: (s ++ rest)) (b :: s) token rest) (hb : startsOperator b = true)
    (hs : ∀ c ∈ s, continuesOperator c = true)
    (hnext : rest = [] → ∀ c, t.head? = some c → separates c = true) :
    startsNumber (b :: (s ++ (rest ++ t))) = false := by
  have hbefore := h.startsNumber_eq_false hb hs
  rw [← List.append_assoc]
  cases hmore : s ++ rest with
  | cons c more =>
    rw [hmore] at hbefore
    exact startsNumber_append_of_false hbefore t
  | nil =>
    -- the operator is the whole text, so the byte behind it separates
    obtain ⟨rfl, rfl⟩ := List.append_eq_nil_iff.1 hmore
    obtain ⟨_, hdigit, _⟩ := startsOperator_class hb
    cases t with
    | nil => exact hbefore
    | cons c t =>
      obtain ⟨_, _, _, hc⟩ := separates_class (hnext rfl c rfl)
      by_cases hminus : b = 45
      · simp [startsNumber, hminus, hc]
      · simp [startsNumber, hminus, hdigit]

/-- What is cut off first stays the same when more follows, unless it is a text or a comment
that goes on, or was the whole text and goes on with the next byte. -/
theorem first_append {b : UInt8} {text t : Bytes} (hquoted : b = backtick → backtick ∈ text)
    (hcomment : b = 35 → StackScript.newline ∈ text)
    (hnext : (first b text).2 = [] → ∀ c, t.head? = some c → separates c = true) :
    first b (text ++ t) = ((first b text).1, (first b text).2 ++ t) := by
  obtain ⟨lexeme, hmunch⟩ := exists_munch_first b text
  generalize hhead : (first b text).1 = token at hmunch ⊢
  generalize (first b text).2 = rest at hmunch hnext ⊢
  have hsplit := hmunch.split
  cases hmunch.spelled with
  | blank hspace =>
    simp only [List.cons_append, List.nil_append, List.cons.injEq] at hsplit
    obtain ⟨rfl, rfl⟩ := hsplit
    simp [first, hspace]
  | newline =>
    simp only [List.cons_append, List.nil_append, List.cons.injEq] at hsplit
    obtain ⟨rfl, rfl⟩ := hsplit
    rfl
  | opening =>
    simp only [List.cons_append, List.nil_append, List.cons.injEq] at hsplit
    obtain ⟨rfl, rfl⟩ := hsplit
    rfl
  | closing =>
    simp only [List.cons_append, List.nil_append, List.cons.injEq] at hsplit
    obtain ⟨rfl, rfl⟩ := hsplit
    rfl
  | comment hs =>
    simp only [List.cons_append, List.cons.injEq] at hsplit
    obtain ⟨rfl, rfl⟩ := hsplit
    have hstops := hmunch.stops (p := (· != StackScript.newline)) fun c hc =>
      ⟨_, .comment (not_mem_snoc hs (by simpa using hc))⟩
    -- there is a newline in the text, and it is not in the comment
    cases rest with
    | nil => exact absurd (hcomment rfl) (by simpa using hs)
    | cons d rest =>
      rw [List.append_assoc]
      exact first_comment hs fun c hc => hstops c hc
  | @quoted s hs =>
    simp only [List.cons_append, List.append_assoc, List.cons.injEq] at hsplit
    obtain ⟨rfl, rfl⟩ := hsplit
    simpa using first_quoted hs (rest ++ t)
  | @unclosed s hs =>
    simp only [List.cons_append, List.cons.injEq] at hsplit
    obtain ⟨rfl, rfl⟩ := hsplit
    have hbyte : backtick ∈ rest := by simpa [hs] using hquoted rfl
    rw [hmunch.eq_nil_of_unclosed hs] at hbyte
    cases hbyte
  | numeral hb hs =>
    simp only [List.cons_append, List.cons.injEq] at hsplit
    obtain ⟨rfl, rfl⟩ := hsplit
    rw [List.append_assoc]
    exact first_numeral hb hs (hmunch.stops_append (fun c hc =>
      ⟨_, .numeral (startsNumber_append hb [c]) (forall_mem_snoc hs hc)⟩)
      (fun c hc => (separates_class hc).2.2.1) hnext)
  | symbol hb hs =>
    simp only [List.cons_append, List.cons.injEq] at hsplit
    obtain ⟨rfl, rfl⟩ := hsplit
    rw [List.append_assoc]
    exact first_symbol hb hs (hmunch.stops_append
      (fun c hc => ⟨_, .symbol hb (forall_mem_snoc hs hc)⟩)
      (fun c hc => (separates_class hc).1) hnext)
  | dotted hs =>
    simp only [List.cons_append, List.cons.injEq] at hsplit
    obtain ⟨rfl, rfl⟩ := hsplit
    rw [List.append_assoc]
    exact first_dotted hs (hmunch.stops_append
      (fun c hc => ⟨_, .dotted (forall_mem_snoc hs hc)⟩)
      (fun c hc => (separates_class hc).1) hnext)
  | operator hb hs =>
    simp only [List.cons_append, List.cons.injEq] at hsplit
    obtain ⟨rfl, rfl⟩ := hsplit
    rw [List.append_assoc]
    exact first_operator hb hs (hmunch.stops_append
      (fun c hc => ⟨_, .operator hb (forall_mem_snoc hs hc)⟩)
      (fun c hc => (separates_class hc).2.1) hnext)
      (hmunch.startsNumber_append_eq_false hb hs hnext)

/-- What is followed by something stays the same whatever follows after that. -/
theorem first_append_of_ne_nil {b : UInt8} {text : Bytes} (h : (first b text).2 ≠ []) (t : Bytes) :
    first b (text ++ t) = ((first b text).1, (first b text).2 ++ t) := by
  refine first_append ?_ ?_ fun hnil => absurd hnil h
  · rintro rfl
    refine Decidable.byContradiction fun hbyte => h ?_
    rw [first_unclosed hbyte]
  · rintro rfl
    refine Decidable.byContradiction fun hbyte => h ?_
    rw [← List.append_nil text, first_comment hbyte (by simp)]

/-! ## Scanning what was put together -/

/-- What follows a text is scanned as by itself, apart from what ends a text or a comment. -/
theorem scan_append {a t u : Bytes} (h : Resumes (ending a) t u) :
    scan (a ++ t) = scan a ++ scan u := by
  fun_induction ending a with
  | case1 =>
    cases h with
    | outside head => rw [scan_nil, List.nil_append, List.nil_append]
  | case2 b rest hquoted =>
    obtain ⟨rfl, hbyte⟩ := hquoted
    cases h with
    | text => rw [List.cons_append, scan_cons, scan_cons, first_quoted hbyte, first_unclosed hbyte,
        scan_nil, List.append_nil]
  | case3 b rest hquoted hcomment =>
    obtain ⟨rfl, hbyte⟩ := hcomment
    cases h with
    | comment head =>
      have hwhole : first 35 (rest ++ []) = (none, []) := first_comment hbyte (by simp)
      rw [List.append_nil] at hwhole
      rw [List.cons_append, scan_cons, scan_cons, hwhole,
        first_comment hbyte fun c hc => by simp [head c hc], scan_nil, List.append_nil]
  | case4 b rest hquoted hcomment ih =>
    have hfirst : first b (rest ++ t) = ((first b rest).1, (first b rest).2 ++ t) := by
      refine first_append ?_ ?_ ?_
      · exact fun hb => Decidable.byContradiction fun hbyte => hquoted ⟨hb, hbyte⟩
      · exact fun hb => Decidable.byContradiction fun hbyte => hcomment ⟨hb, hbyte⟩
      · intro hnil
        rw [hnil, ending] at h
        cases h with
        | outside head => exact head
    rw [List.cons_append, scan_cons, scan_cons, hfirst, ih h, List.append_assoc]

/-- A newline ends whatever comes before it, but for a text in backticks. -/
theorem scan_append_newline {a : Bytes} (h : ending a ≠ .text) (b : Bytes) :
    scan (a ++ StackScript.newline :: b) = scan a ++ .newline :: scan b := by
  have hresumes : Resumes (ending a) (StackScript.newline :: b) (StackScript.newline :: b) := by
    cases hends : ending a with
    | outside =>
      refine .outside fun c hc => ?_
      cases hc
      decide
    | comment =>
      refine .comment fun c hc => ?_
      cases hc
      rfl
    | text => exact absurd hends h
  rw [scan_append hresumes, scan_cons StackScript.newline b]
  rfl

/-- Only a closing parenthesis is read as one. -/
theorem eq_closing_of_first {b : UInt8} {rest : Bytes} (h : (first b rest).1 = some .closing) :
    b = 41 := by
  obtain ⟨lexeme, hmunch⟩ := exists_munch_first b rest
  rw [h] at hmunch
  have hsplit := hmunch.split
  cases hmunch.spelled
  exact (List.cons.inj hsplit).1

/-- Whatever follows a text, a closing parenthesis in it is one, and the tokens in front of it
are the same. -/
theorem exists_scan_append_of_closing {src : Bytes} {front back : List Token}
    (h : scan src = front ++ .closing :: back) (t : Bytes) :
    ∃ more, scan (src ++ t) = front ++ .closing :: more := by
  fun_induction scan src generalizing front with
  | case1 => cases front <;> cases h
  | case2 b rest head =>
    rename_i ih
    by_cases hnil : head.2 = []
    · rw [hnil, scan_nil, List.append_nil] at h
      -- nothing but the parenthesis is left, so it stands alone
      have hhead : head.1 = some .closing ∧ front = [] := by
        cases hfirst : head.1 with
        | none => cases front <;> simp [hfirst] at h
        | some token => cases front <;> simp_all
      obtain ⟨hclosing, rfl⟩ := hhead
      obtain rfl := eq_closing_of_first hclosing
      exact ⟨_, scan_cons 41 _⟩
    · rw [List.cons_append, scan_cons, first_append_of_ne_nil hnil]
      change ∃ more, head.1.toList ++ scan (head.2 ++ t) = front ++ .closing :: more
      cases hhead : head.1 with
      | none =>
        rw [hhead] at h
        exact ih h
      | some token =>
        rw [hhead] at h
        cases front with
        | nil =>
          obtain ⟨rfl, _⟩ := List.cons.inj h
          exact ⟨_, rfl⟩
        | cons other front =>
          obtain ⟨rfl, hrest⟩ := List.cons.inj h
          obtain ⟨more, hmore⟩ := ih hrest
          exact ⟨more, congrArg (token :: ·) hmore⟩

end Token

end StackScript
