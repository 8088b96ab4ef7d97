import StackScript.Text.Visible
import StackScript.Proofs.Utf8
set_option autoImplicit false

/-!
# What is made visible holds no controls

A text is shown with every control character in caret form.  Up to the first control its
bytes stay as they are, cut between two scalars, and from there on encoded characters follow.
So no control forms at the seam, whatever bytes the text holds: what is shown decodes to no
control, and stays on one line.  A text of characters is shown character by character.
-/

namespace StackScript.Text

/-! ## Caret forms as characters -/

theorem isControl_iff (c : Char) :
    isControl c = true ↔ c.toNat < 0x20 ∨ c.toNat = 0x7F ∨ 0x80 ≤ c.toNat ∧ c.toNat ≤ 0x9F := by
  simp only [isControl, Bool.or_eq_true, Bool.and_eq_true, decide_eq_true_eq, beq_iff_eq, or_assoc]

theorem caretText_of_lt {n : Nat} (h : n < 0x20) :
    caretText n = ['^', Char.ofNat (n + 0x40)].flatMap encode := by
  have hcaret : ascii "^" = encode '^' := by decide +kernel
  unfold caretText
  rw [if_neg (by omega), if_pos (by omega), hcaret]
  simp only [List.flatMap_cons, List.flatMap_nil, List.append_nil, Int.toNat_natCast]

theorem caretText_delete : caretText (0x7F : Nat) = ['^', '?'].flatMap encode := by decide +kernel

theorem caretText_of_between {n : Nat} (hlow : 0x80 ≤ n) (hhigh : n ≤ 0x9F) :
    caretText n = ['^', '[', Char.ofNat (n - 0x40)].flatMap encode := by
  have hescape : ascii "^[" = encode '^' ++ encode '[' := by decide +kernel
  unfold caretText
  rw [if_neg (by omega), if_neg (by omega), if_neg (by omega), if_pos (by omega), hescape]
  simp only [List.flatMap_cons, List.flatMap_nil, List.append_nil, Int.toNat_natCast,
    List.append_assoc]

/-- The caret form of a control consists of characters that are no controls. -/
theorem exists_chars_caretText {c : Char} (h : isControl c = true) :
    ∃ chars : List Char, caretText c.toNat = chars.flatMap encode ∧ chars ≠ [] ∧
      ∀ d ∈ chars, isControl d = false := by
  have hletter : ∀ {n}, 0x40 ≤ n → n < 0x60 → isControl (Char.ofNat n) = false := by
    intro n hlow hhigh
    refine Bool.eq_false_iff.2 fun hcontrol => ?_
    rw [isControl_iff, toNat_ofNat (by omega)] at hcontrol
    omega
  rcases (isControl_iff c).1 h with hlow | hdelete | ⟨hlow, hhigh⟩
  · refine ⟨_, caretText_of_lt hlow, List.cons_ne_nil _ _, ?_⟩
    simp only [List.forall_mem_cons]
    exact ⟨by decide, hletter (by omega) (by omega), fun _ hd => by cases hd⟩
  · rw [hdelete]
    refine ⟨_, caretText_delete, List.cons_ne_nil _ _, ?_⟩
    simp only [List.forall_mem_cons]
    exact ⟨by decide, by decide, fun _ hd => by cases hd⟩
  · refine ⟨_, caretText_of_between hlow hhigh, List.cons_ne_nil _ _, ?_⟩
    simp only [List.forall_mem_cons]
    exact ⟨by decide, by decide, hletter (by omega) (by omega), fun _ hd => by cases hd⟩

/-- Exactly the controls have a caret form. -/
theorem caretText_eq_nil_iff (c : Char) : caretText c.toNat = [] ↔ isControl c = false := by
  constructor
  · intro hnil
    refine Bool.eq_false_iff.2 fun hcontrol => ?_
    obtain ⟨chars, htext, hsome, _⟩ := exists_chars_caretText hcontrol
    obtain ⟨d, rest, rfl⟩ := List.exists_cons_of_ne_nil hsome
    obtain ⟨first, more, hencode, _⟩ := exists_encode_eq_cons d
    rw [hnil, List.flatMap_cons, hencode] at htext
    cases htext
  · intro hcontrol
    have hout := mt (isControl_iff c).2 (Bool.eq_false_iff.1 hcontrol)
    unfold caretText
    rw [if_neg (by omega), if_neg (by omega), if_neg (by omega), if_neg (by omega)]

theorem visibleChar_eq (c : Char) :
    visibleChar c = if caretText c.toNat = [] then encode c else caretText c.toNat := by
  cases hcontrol : isControl c with
  | false =>
    rw [visibleChar, hcontrol, if_neg (by decide), if_pos ((caretText_eq_nil_iff c).2 hcontrol)]
  | true =>
    rw [visibleChar, hcontrol, if_pos rfl, if_neg]
    rw [caretText_eq_nil_iff, hcontrol]
    decide

/-- What stands for a character is a text of characters that are no controls. -/
theorem exists_chars_visibleChar (c : Char) :
    ∃ chars : List Char, visibleChar c = chars.flatMap encode ∧
      ∀ d ∈ chars, isControl d = false := by
  unfold visibleChar
  split
  · rename_i hcontrol
    obtain ⟨chars, htext, _, hnone⟩ := exists_chars_caretText hcontrol
    exact ⟨chars, htext, hnone⟩
  · rename_i hcontrol
    refine ⟨[c], (List.append_nil _).symm, ?_⟩
    intro d hd
    rw [List.mem_singleton.1 hd]
    exact Bool.eq_false_iff.2 hcontrol

/-! ## Shown texts as characters -/

theorem exists_chars_shown (scalars : List Scalar) :
    ∃ chars : List Char, (scalars.flatMap fun s => visibleChar s.toChar) = chars.flatMap encode ∧
      ∀ d ∈ chars, isControl d = false := by
  induction scalars with
  | nil => exact ⟨[], rfl, fun _ hd => by cases hd⟩
  | cons s scalars ih =>
    obtain ⟨front, hfront, hfrontNone⟩ := exists_chars_visibleChar s.toChar
    obtain ⟨rest, hrest, hrestNone⟩ := ih
    refine ⟨front ++ rest, ?_, ?_⟩
    · rw [List.flatMap_cons, hfront, hrest, List.flatMap_append]
    · exact List.forall_mem_append.2 ⟨hfrontNone, hrestNone⟩

/-- What is shown decodes to the scalars up to the first control, as they are, and then to
characters; none of all these is a control.  No character can form across the seam: whatever
bytes stand before it, an encoded character follows. -/
theorem isControl_of_mem_decode_visible {text : Bytes} {scalar : Scalar}
    (h : scalar ∈ decode (visible text)) : scalar.isControl = false := by
  obtain ⟨chars, hshown, hnone⟩ :=
    exists_chars_shown ((decode text).dropWhile fun s => !s.isControl)
  have hplain := decode_ofScalars_of_append
    (List.takeWhile_append_dropWhile (p := fun s : Scalar => !s.isControl) (l := decode text)).symm
  rw [visible, hshown, decode_append_chars, hplain, List.mem_append] at h
  rcases h with h | h
  · simpa using List.all_eq_true.1 List.all_takeWhile scalar h
  · obtain ⟨d, hd, rfl⟩ := List.mem_map.1 h
    exact hnone d hd

/-- A byte that is a control character by itself. -/
def isControlByte (b : UInt8) : Bool := b.toNat < 0x20 || b.toNat == 0x7F

theorem isControlByte_of_ge {b : UInt8} (h : 0x80 ≤ b.toNat) : isControlByte b = false := by
  simp only [isControlByte, Bool.or_eq_false_iff, decide_eq_false_iff_not, beq_eq_false_iff_ne]
  omega

/-- What is shown of a text holds no control bytes: such a byte is a control character, as no
other character has one in its encoding and stray bytes are above `7F`. -/
theorem isControlByte_of_mem_visible (text : Bytes) {b : UInt8} (h : b ∈ visible text) :
    isControlByte b = false := by
  rw [← ofScalars_decode (visible text)] at h
  obtain ⟨scalar, hscalar, hb⟩ := List.mem_flatMap.1 h
  cases scalar with
  | char c =>
    have hnone : isControl c = false := isControl_of_mem_decode_visible hscalar
    rcases of_mem_encode hb with hsame | hhigh
    · rw [isControlByte, hsame]
      exact (Bool.or_eq_false_iff.1 hnone).1
    · exact isControlByte_of_ge hhigh
  | stray a =>
    rw [List.mem_singleton.1 hb]
    exact isControlByte_of_ge (of_stray_mem_decode _ hscalar)

/-- A text without controls is shown as it is, byte by byte. -/
theorem visible_eq_self {text : Bytes} (h : ∀ scalar ∈ decode text, scalar.isControl = false) :
    visible text = text := by
  have hall : ∀ scalar ∈ decode text, (!scalar.isControl) = true := by
    intro scalar hscalar
    rw [h scalar hscalar]
    rfl
  have hplain : (decode text ++ []).takeWhile (fun s : Scalar => !s.isControl) =
      decode text ++ [] := List.takeWhile_append_of_pos hall
  have hrest : (decode text ++ []).dropWhile (fun s : Scalar => !s.isControl) = [] :=
    List.dropWhile_append_of_pos hall
  rw [List.append_nil] at hplain hrest
  rw [visible, hplain, hrest, ofScalars_decode, List.flatMap_nil, List.append_nil]

/-- A text of characters is shown character by character. -/
theorem visible_chars (chars : List Char) :
    visible (chars.flatMap encode) = chars.flatMap visibleChar := by
  have hplain : ∀ scalar ∈ (chars.map Scalar.char).takeWhile (fun s => !s.isControl),
      scalar.raw = visibleChar scalar.toChar := by
    intro scalar hscalar
    have hcontrol := List.all_eq_true.1 List.all_takeWhile scalar hscalar
    obtain ⟨c, _, rfl⟩ := List.mem_map.1 ((List.takeWhile_sublist _).subset hscalar)
    rw [Scalar.toChar, visibleChar, if_neg (by simpa [Scalar.isControl] using hcontrol)]
    rfl
  rw [visible, decode_chars, ofScalars, List.flatMap_def, List.map_congr_left hplain,
    ← List.flatMap_def, ← List.flatMap_append, List.takeWhile_append_dropWhile, List.flatMap_map]
  rfl

theorem isValidUTF8_iff (text : Bytes) :
    text.toByteArray.IsValidUTF8 ↔ ∃ chars : List Char, text = chars.flatMap encode := by
  have hencode : encode = String.utf8EncodeChar := funext encode_eq_utf8EncodeChar
  rw [hencode]
  constructor
  · rintro ⟨chars, h⟩
    exact ⟨chars, List.toByteArray_inj.1 h⟩
  · rintro ⟨chars, rfl⟩
    exact ⟨chars, rfl⟩

/-- A text is shown as it is exactly if no character of it has a caret form. -/
theorem visible_eq_self_iff (text : Bytes) :
    visible text = text ↔ ∀ c, .char c ∈ decode text → caretText c.toNat = [] := by
  constructor
  · intro hsame c hc
    rw [← hsame] at hc
    exact (caretText_eq_nil_iff c).2 (isControl_of_mem_decode_visible hc)
  · intro hnone
    refine visible_eq_self fun scalar hscalar => ?_
    cases scalar with
    | char c => exact (caretText_eq_nil_iff c).1 (hnone c hscalar)
    | stray b => rfl

/-- Showing a text removes its controls and nothing else.  Whatever bytes it holds, no
control is left, and showing it again changes nothing; a text without controls keeps every
byte.  A well-formed text is shown character by character, so that texts may be joined
before or after. -/
theorem visible_substitutes_controls (text : Bytes) :
    (∀ c, .char c ∈ decode (visible text) →
        ¬ (c.toNat < 0x20 ∨ c.toNat = 0x7F ∨ 0x80 ≤ c.toNat ∧ c.toNat ≤ 0x9F)) ∧
      newline ∉ visible text ∧
      visible (visible text) = visible text ∧
      (visible text = text ↔ ∀ c, .char c ∈ decode text → caretText c.toNat = []) ∧
      (∀ chars : List Char, text = chars.flatMap String.utf8EncodeChar →
        visible text = chars.flatMap fun c =>
          if caretText c.toNat = [] then String.utf8EncodeChar c else caretText c.toNat) ∧
      ∀ more : Bytes, text.toByteArray.IsValidUTF8 → more.toByteArray.IsValidUTF8 →
        visible (text ++ more) = visible text ++ visible more := by
  have hencode : encode = String.utf8EncodeChar := funext encode_eq_utf8EncodeChar
  refine ⟨?_, ?_, ?_, visible_eq_self_iff text, ?_, ?_⟩
  · intro c hc
    rw [← isControl_iff]
    exact Bool.eq_false_iff.1 (isControl_of_mem_decode_visible hc)
  · intro hline
    exact absurd (isControlByte_of_mem_visible text hline) (by decide)
  · exact visible_eq_self fun _ hscalar => isControl_of_mem_decode_visible hscalar
  · rintro chars rfl
    rw [← hencode, visible_chars, funext visibleChar_eq]
  · intro more htext hmore
    obtain ⟨front, rfl⟩ := (isValidUTF8_iff text).1 htext
    obtain ⟨rest, rfl⟩ := (isValidUTF8_iff more).1 hmore
    rw [← List.flatMap_append, visible_chars, visible_chars, visible_chars, List.flatMap_append]

/-- A letter, a newline, a letter of two bytes and a C1 control. -/
def mixedText : Bytes := ['a', '\n', 'é', Char.ofNat 0x9B].flatMap String.utf8EncodeChar

theorem visible_substitutes_controls_mixedText :
    mixedText.toByteArray.IsValidUTF8 ∧ ([9] : Bytes).toByteArray.IsValidUTF8 ∧
      visible mixedText = ascii "a^J" ++ [0xC3, 0xA9] ++ ascii "^[[" ∧
      visible (mixedText ++ [9]) = visible mixedText ++ visible [9] := by
  have hmixed : mixedText.toByteArray.IsValidUTF8 := ⟨_, rfl⟩
  have htab : ([9] : Bytes).toByteArray.IsValidUTF8 := ⟨['\t'], rfl⟩
  obtain ⟨_, _, _, _, hchars, hjoin⟩ := visible_substitutes_controls mixedText
  refine ⟨hmixed, htab, ?_, hjoin [9] hmixed htab⟩
  rw [hchars _ rfl]
  decide +kernel

end StackScript.Text
