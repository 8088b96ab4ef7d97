import StackScript.Proofs.Reuse
set_option autoImplicit false

/-!
# Sources that can be completed

A source is unclosed if it is refused only because it ends too early.  Then it can be
completed: what is begun is ended, a text in backticks or a comment, and the parentheses that
are open are closed (`completion`).  A source that is refused for another reason has a closing
parenthesis without a partner, and no text behind it changes that.
-/

namespace StackScript

namespace Token

/-! ## Closing what is open -/

/-- What completes a source that ends so and leaves so many parentheses open. -/
def completion : Ending → Nat → Bytes
  | .outside, count => List.replicate count 41
  | .comment, count => StackScript.newline :: List.replicate count 41
  | .text, count => backtick :: List.replicate count 41

theorem scan_replicate_closing (count : Nat) :
    scan (List.replicate count 41) = List.replicate count .closing := by
  induction count with
  | zero => exact scan_nil
  | succ count ih =>
    rw [List.replicate_succ, List.replicate_succ, ← ih]
    exact scan_cons 41 _

theorem resumes_replicate_closing (count : Nat) :
    Resumes .outside (List.replicate count 41) (List.replicate count 41) := by
  refine .outside fun c hc => ?_
  rw [List.eq_of_mem_replicate (List.mem_of_mem_head? hc)]
  decide

/-- The tokens of a source are kept when it is completed. -/
theorem scan_completion (src : Bytes) (count : Nat) :
    ∃ between, scan (src ++ completion (ending src) count) =
        scan src ++ between ++ List.replicate count .closing ∧
      (between = [] ∨ between = [.newline]) := by
  rw [← scan_replicate_closing]
  cases hends : ending src with
  | outside =>
    have hresumes := resumes_replicate_closing count
    rw [← hends] at hresumes
    refine ⟨[], ?_, .inl rfl⟩
    rw [List.append_nil]
    exact scan_append hresumes
  | comment =>
    refine ⟨[.newline], ?_, .inr rfl⟩
    rw [← List.append_cons]
    exact scan_append_newline (by rw [hends]; decide) _
  | text =>
    have hresumes := Resumes.text (List.replicate count 41)
    rw [← hends] at hresumes
    refine ⟨[], ?_, .inl rfl⟩
    rw [List.append_nil]
    exact scan_append hresumes

theorem fits_replicate_closing (count : Nat) : Fits count (List.replicate count .closing) := by
  induction count with
  | zero => exact fits_nil 0
  | succ count ih => exact fits_closing.2 ih

/-- Tokens that leave parentheses open are balanced once these are closed. -/
theorem balanced_append_closing {ts : List Token} {count : Nat} (hfits : Fits 0 ts)
    (heven : openings ts = closings ts + count) :
    Balanced (ts ++ List.replicate count .closing) := by
  have hopen : 0 + openings ts - closings ts = count := by omega
  refine ⟨(fits_append hfits).2 ?_, ?_⟩
  · rw [hopen]
    exact fits_replicate_closing count
  · have hclosings : closings (List.replicate count .closing) = count :=
      List.count_replicate_self
    have hopenings : openings (List.replicate count .closing) = 0 := by
      simp [openings, List.count_replicate]
    rw [closings_append, openings_append, hclosings, hopenings, heven]
    rfl

/-- A source that leaves parentheses open is balanced when it is completed. -/
theorem balanced_completion {src : Bytes} (hfits : Fits 0 (scan src)) {count : Nat}
    (heven : openings (scan src) = closings (scan src) + count) :
    Balanced (scan (src ++ completion (ending src) count)) := by
  obtain ⟨between, hscan, hbetween⟩ := scan_completion src count
  rw [hscan]
  rcases hbetween with rfl | rfl
  · rw [List.append_nil]
    exact balanced_append_closing hfits heven
  · refine balanced_append_closing ((fits_append hfits).2 ?_) ?_
    · exact (fits_of_ne (by decide) (by decide)).2 (fits_nil _)
    · rw [openings_append, closings_append]
      exact heven

/-- A closing parenthesis without a partner has none whatever follows. -/
theorem not_balanced_append {src : Bytes} {front back : List Token}
    (hscan : scan src = front ++ .closing :: back) (hfront : Balanced front) (t : Bytes) :
    ¬ Balanced (scan (src ++ t)) := by
  intro hbalanced
  obtain ⟨more, hmore⟩ := exists_scan_append_of_closing hscan t
  have hfits := hbalanced.fits
  rw [hmore, hfront.fits_append_iff] at hfits
  exact not_fits_zero_closing more hfits

end Token

/-! ## Readers -/

theorem isUnclosed_eq_true_iff {result : Except SyntaxError (List Tree)} :
    isUnclosed result = true ↔ ∃ line count, result = .error ⟨line, .unclosed count⟩ := by
  cases result with
  | ok trees => simp [isUnclosed]
  | error error =>
    obtain ⟨line, problem⟩ := error
    cases problem with
    | unexpectedClosing => simp [isUnclosed]
    | unclosed count => exact ⟨fun _ => ⟨line, count, rfl⟩, fun _ => rfl⟩

namespace FrameReader

theorem exists_parse_ok_iff (r : FrameReader) (src : Bytes) :
    (∃ trees, (r.parse src).2 = .ok trees) ↔ Token.Balanced (Token.scan src) := by
  rw [(r.agrees_parse src).result]
  constructor
  · rintro ⟨trees, hok⟩
    exact (Tree.build_eq_ok_iff.1 hok).1
  · intro hbalanced
    obtain ⟨trees, hbuild, _⟩ := Tree.build_of_balanced hbalanced (max r.line 1)
    refine ⟨trees, ?_⟩
    rw [Tree.read, hbuild]

theorem refusal_of_error {r : FrameReader} {src : Bytes} {error : SyntaxError}
    (h : (r.parse src).2 = .error error) :
    Token.Refusal (max r.line 1) (Token.scan src) error := by
  rw [(r.agrees_parse src).result] at h
  exact Tree.build_eq_error_iff.1 h

/-- A source is unclosed if its error is that parentheses are open at its end. -/
theorem isUnclosed_iff (r : FrameReader) (src : Bytes) :
    r.isUnclosed src = true ↔
      ∃ line count, (r.parse src).2 = .error ⟨line, .unclosed count⟩ := by
  have hcount := (r.agrees_parse src).unclosed
  rw [← (r.agrees_parse src).result] at hcount
  unfold isUnclosed
  rw [hcount]
  cases hresult : (r.parse src).2 with
  | ok trees => simp [openAfter]
  | error error =>
    cases refusal_of_error hresult with
    | stray split balanced => simp [openAfter]
    | unclosed fits short =>
      exact ⟨fun _ => ⟨_, _, rfl⟩, fun _ => decide_eq_true (Nat.sub_pos_of_lt short)⟩

/-- Unclosed means completable.  A source is unclosed if and only if it is refused and can be
followed by a text with which it is read.  If it ends outside texts in backticks and comments,
as many closing parentheses as there are open ones are such a text.  And a source is unclosed
for a reader with storage if it is for one without. -/
theorem isUnclosed_iff_completable (r s : FrameReader) (src : Bytes) :
    (r.isUnclosed src = true ↔ (∃ error, (r.parse src).2 = .error error) ∧
        ∃ t trees, (s.parse (src ++ t)).2 = .ok trees) ∧
      (∀ line count, (r.parse src).2 = .error ⟨line, .unclosed count⟩ →
        Token.ending src = .outside →
          ∃ trees, (s.parse (src ++ List.replicate count 41)).2 = .ok trees) ∧
      r.isUnclosed src = StackScript.isUnclosed ((⟨r.line⟩ : Reader).parse src).2 := by
  have hcompletes : ∀ {line count}, (r.parse src).2 = .error ⟨line, .unclosed count⟩ →
      ∃ trees, (s.parse (src ++ Token.completion (Token.ending src) count)).2 = .ok trees := by
    intro line count herror
    cases refusal_of_error herror with
    | unclosed fits short =>
      exact (s.exists_parse_ok_iff _).2 (Token.balanced_completion fits (by omega))
  refine ⟨⟨?_, ?_⟩, ?_, ?_⟩
  · intro hunclosed
    obtain ⟨line, count, herror⟩ := (r.isUnclosed_iff src).1 hunclosed
    exact ⟨⟨_, herror⟩, _, hcompletes herror⟩
  · rintro ⟨⟨error, herror⟩, t, hread⟩
    cases hrefusal : refusal_of_error herror with
    | stray split balanced =>
      exact absurd ((s.exists_parse_ok_iff _).1 hread) (Token.not_balanced_append split balanced t)
    | unclosed fits short => exact (r.isUnclosed_iff src).2 ⟨_, _, herror⟩
  · intro line count herror hends
    have hread := hcompletes herror
    rwa [hends] at hread
  · have hsame : (r.parse src).2 = ((⟨r.line⟩ : Reader).parse src).2 := (r.agrees_parse src).result
    rw [Bool.eq_iff_iff, r.isUnclosed_iff, isUnclosed_eq_true_iff, hsame]

end FrameReader

end StackScript
