import StackScript.Proofs.CheckedShapes
import StackScript.Proofs.Counts
import StackScript.Proofs.Patterns
set_option autoImplicit false

/-!
# The longest numeral at the start of a text

The numeral that is read at the start of a text is the longest front of the text that has the
form of one.  Each part of it is the longest that its own pattern allows, and no part can
begin where an earlier one goes on: a point and the letter of an exponent are no digits.
-/

namespace StackScript

open Computability Pattern

/-! ## Exponents -/

namespace Exponent

/-- The letters `e` and `E`. -/
def isMark (b : UInt8) : Bool := b == 101 || b == 69

/-- The signs `+` and `-`. -/
def isSign (b : UInt8) : Bool := b == 43 || b == 45

/-- The pattern `[eE][+-]?[0-9]+`. -/
def pattern : Language UInt8 := byte isMark * optional (byte isSign) * run isDigit

/-- An exponent whose parts are what they should be. -/
structure Proper (e : Exponent) : Prop where
  mark : isMark e.mark = true
  sign : ∀ b, e.sign = some b → isSign b = true
  digits_ne_nil : e.digits ≠ []
  digits : ∀ b ∈ e.digits, isDigit b = true

theorem mem_pattern {s : Bytes} : s ∈ pattern ↔ ∃ e : Exponent, e.Proper ∧ e.lexeme = s := by
  constructor
  · intro h
    obtain ⟨_, hfront, digits, hdigits, rfl⟩ := Language.mem_mul.1 h
    obtain ⟨_, ⟨mark, hmark, rfl⟩, sign, hsign, rfl⟩ := Language.mem_mul.1 hfront
    obtain ⟨hne, hdigits⟩ := mem_run.1 hdigits
    rcases mem_optional.1 hsign with rfl | ⟨b, hb, rfl⟩
    · exact ⟨⟨mark, none, digits⟩, ⟨hmark, by simp, hne, hdigits⟩, rfl⟩
    · exact ⟨⟨mark, some b, digits⟩, ⟨hmark, by simp [hb], hne, hdigits⟩, rfl⟩
  · rintro ⟨⟨mark, sign, digits⟩, he, rfl⟩
    have hmark : [mark] ∈ byte isMark := ⟨mark, he.mark, rfl⟩
    have hsign : sign.toList ∈ optional (byte isSign) := by
      cases sign with
      | none => exact .inl rfl
      | some b => exact .inr ⟨b, he.sign b rfl, rfl⟩
    exact Language.append_mem_mul (Language.append_mem_mul hmark hsign)
      (mem_run.2 ⟨he.digits_ne_nil, he.digits⟩)

/-- A sign is read where one stands, and none where a digit does. -/
theorem readSign_append {e : Exponent} (he : e.Proper) (more : Bytes) :
    readSign (e.sign.toList ++ e.digits ++ more) = (e.sign, e.digits ++ more) := by
  obtain ⟨mark, sign, digits⟩ := e
  cases sign with
  | some b =>
    have hb := he.sign b rfl
    simp only [isSign, Bool.or_eq_true, beq_iff_eq] at hb
    simp [readSign, hb]
  | none =>
    obtain ⟨d, digits, rfl⟩ := List.exists_cons_of_ne_nil he.digits_ne_nil
    have hd := he.digits d List.mem_cons_self
    have hplus : d ≠ 43 := by rintro rfl; cases hd
    have hminus : d ≠ 45 := by rintro rfl; cases hd
    simp [readSign, hplus, hminus]

/-- An exponent is read with all the digits that follow it. -/
theorem read_lexeme_append {e : Exponent} (he : e.Proper) (more : Bytes) :
    read (e.lexeme ++ more) =
      (some { e with digits := e.digits ++ more.takeWhile isDigit }, more.dropWhile isDigit) := by
  have hmark := he.mark
  simp only [isMark, Bool.or_eq_true, beq_iff_eq] at hmark
  have hne : (e.digits ++ more.takeWhile isDigit).isEmpty = false := by
    simp [he.digits_ne_nil]
  have htext : e.lexeme ++ more = e.mark :: (e.sign.toList ++ e.digits ++ more) := by
    simp [lexeme]
  rw [htext, read, if_pos hmark]
  simp only [readSign_append he, List.takeWhile_append_of_pos he.digits,
    List.dropWhile_append_of_pos he.digits, hne]
  rfl

theorem isSign_of_readSign {text : Bytes} {b : UInt8} (h : (readSign text).1 = some b) :
    isSign b = true := by
  cases text with
  | nil => cases h
  | cons c rest =>
    rw [readSign] at h
    split at h
    · rename_i hsign
      cases h
      simpa [isSign] using hsign
    · cases h

theorem proper_of_read {text : Bytes} {e : Exponent} (h : (read text).1 = some e) : e.Proper := by
  cases text with
  | nil => cases h
  | cons mark rest =>
    rw [read] at h
    split at h
    · rename_i hmark
      simp only at h
      split at h
      · cases h
      · rename_i hdigits
        cases h
        refine ⟨by simpa [isMark] using hmark, fun b hb => isSign_of_readSign hb,
          by simpa using hdigits, ?_⟩
        exact fun b hb => List.all_eq_true.1 List.all_takeWhile b hb
    · cases h

/-- The exponent that is read is the longest that stands there. -/
theorem longest_read (text : Bytes) :
    Longest (optional pattern) text (spelling (read text).1) (read text).2 := by
  refine ⟨(read_split text).symm, ?_, ?_⟩
  · cases hread : (read text).1 with
    | none => exact .inl rfl
    | some e => exact .inr (mem_pattern.2 ⟨e, proper_of_read hread, rfl⟩)
  · intro word hword hstarts
    rcases mem_optional.1 hword with rfl | hword
    · exact Nat.zero_le _
    · obtain ⟨e, he, rfl⟩ := mem_pattern.1 hword
      obtain ⟨more, rfl⟩ := hstarts
      rw [read_lexeme_append he more]
      simp only [spelling, Option.elim_some, lexeme, List.length_append, List.length_cons]
      omega

/-- An exponent starts with its letter. -/
theorem isMark_of_head {s : Bytes} (h : s ∈ optional pattern) {b : UInt8}
    (hb : s.head? = some b) : isMark b = true := by
  rcases mem_optional.1 h with rfl | h
  · cases hb
  · obtain ⟨e, he, rfl⟩ := mem_pattern.1 h
    cases hb
    exact he.mark

theorem isDigit_eq_false_of_isMark {b : UInt8} (h : isMark b = true) : isDigit b = false := by
  simp only [isMark, Bool.or_eq_true, beq_iff_eq] at h
  rcases h with rfl | rfl
  · rfl
  · rfl

end Exponent

namespace Numeral

/-! ## The parts of a numeral -/

/-- The pattern `[.][0-9]*`. -/
def fractionPattern : Language UInt8 := byte (· == 46) * (byte isDigit)∗

/-- The pattern `-?[0-9]+([.][0-9]*)?([eE][+-]?[0-9]+)?`. -/
def pattern : Language UInt8 :=
  optional (byte (· == 45)) * run isDigit * optional fractionPattern * optional Exponent.pattern

theorem mem_fractionPattern {s : Bytes} :
    s ∈ fractionPattern ↔ ∃ ds, (∀ b ∈ ds, isDigit b = true) ∧ s = 46 :: ds := by
  constructor
  · intro h
    obtain ⟨_, ⟨b, hb, rfl⟩, ds, hds, rfl⟩ := Language.mem_mul.1 h
    exact ⟨ds, mem_star_byte.1 hds, by simpa using hb⟩
  · rintro ⟨ds, hds, rfl⟩
    exact Language.append_mem_mul (mem_byte.2 ⟨46, rfl, rfl⟩) (mem_star_byte.2 hds)

theorem longest_readMinus (text : Bytes) :
    Longest (optional (byte (· == 45))) text (signSpelling (readMinus text).1)
      (readMinus text).2 := by
  refine ⟨(readMinus_split text).symm, ?_, ?_⟩
  · cases (readMinus text).1 with
    | true => exact .inr ⟨45, rfl, rfl⟩
    | false => exact .inl rfl
  · intro word hword hstarts
    rcases mem_optional.1 hword with rfl | ⟨b, hb, rfl⟩
    · exact Nat.zero_le _
    · obtain ⟨more, rfl⟩ := hstarts
      have hminus : b = 45 := by simpa using hb
      simp [readMinus, hminus, signSpelling]

theorem longest_readFraction (text : Bytes) :
    Longest (optional fractionPattern) text (fractionSpelling (readFraction text).1)
      (readFraction text).2 := by
  refine ⟨(readFraction_split text).symm, ?_, ?_⟩
  · cases text with
    | nil => exact .inl rfl
    | cons b rest =>
      have hdigits := mem_star_byte.1 (longest_star isDigit rest).mem
      rw [readFraction]
      split
      · exact .inr (mem_fractionPattern.2 ⟨_, hdigits, rfl⟩)
      · exact .inl rfl
  · intro word hword hstarts
    rcases mem_optional.1 hword with rfl | hword
    · exact Nat.zero_le _
    · obtain ⟨ds, hds, rfl⟩ := mem_fractionPattern.1 hword
      obtain ⟨more, rfl⟩ := hstarts
      have hlonger := (longest_star isDigit (ds ++ more)).longest ds (mem_star_byte.2 hds)
        (List.prefix_append ds more)
      simpa [readFraction, fractionSpelling] using hlonger

/-! ## A part ends where the next begins -/

/-- A fraction and an exponent start with no digit. -/
theorem isDigit_eq_false_of_tail {s : Bytes}
    (h : s ∈ optional fractionPattern * optional Exponent.pattern) {b : UInt8}
    (hb : s.head? = some b) : isDigit b = false := by
  obtain ⟨x, hx, y, hy, rfl⟩ := Language.mem_mul.1 h
  rcases mem_optional.1 hx with rfl | hx
  · exact Exponent.isDigit_eq_false_of_isMark (Exponent.isMark_of_head hy hb)
  · obtain ⟨ds, -, rfl⟩ := mem_fractionPattern.1 hx
    cases hb
    decide

/-- What stands in front of an exponent is all of the fraction. -/
theorem eq_fraction_of_exponent {text x y : Bytes} (hx : x ∈ optional fractionPattern)
    (hy : y ∈ optional Exponent.pattern) (hne : y ≠ []) (h : x ++ y <+: text) :
    x = fractionSpelling (readFraction text).1 := by
  have hmark : ∀ c, y.head? = some c → isDigit c = false := fun c hc =>
    Exponent.isDigit_eq_false_of_isMark (Exponent.isMark_of_head hy hc)
  rcases mem_optional.1 hx with rfl | hx
  · obtain ⟨more, rfl⟩ := h
    obtain ⟨c, y, rfl⟩ := List.exists_cons_of_ne_nil hne
    have hpoint : c ≠ 46 := by
      rintro rfl
      exact absurd (Exponent.isMark_of_head hy rfl) (by decide)
    simp [fractionSpelling, readFraction, hpoint]
  · obtain ⟨ds, hds, rfl⟩ := mem_fractionPattern.1 hx
    obtain ⟨more, rfl⟩ := h
    have hall := eq_takeWhile hds hne hmark (List.prefix_append (ds ++ y) more)
    simp only [List.cons_append, fractionSpelling, readFraction, if_true, Option.elim_some]
    rw [← hall]

/-- The sign that stands in front of a digit is the one that is read. -/
theorem eq_sign_of_digit {text x y : Bytes} (hx : x ∈ optional (byte (· == 45)))
    (hy : ∀ b, y.head? = some b → isDigit b = true) (hne : y ≠ []) (h : x ++ y <+: text) :
    x = signSpelling (readMinus text).1 := by
  obtain ⟨more, rfl⟩ := h
  obtain ⟨c, y, rfl⟩ := List.exists_cons_of_ne_nil hne
  rcases mem_optional.1 hx with rfl | ⟨b, hb, rfl⟩
  · have hminus : c ≠ 45 := by
      rintro rfl
      exact absurd (hy 45 rfl) (by decide)
    simp [readMinus, hminus, signSpelling]
  · have hminus : b = 45 := by simpa using hb
    simp [readMinus, hminus, signSpelling]

theorem takeWhile_ne_nil_of_startsNumber {text : Bytes} (h : startsNumber text = true) :
    (readMinus text).2.takeWhile isDigit ≠ [] := by
  cases text with
  | nil => cases h
  | cons b rest =>
    rw [readMinus]
    by_cases hb : b = 45
    · cases rest with
      | nil => simp [startsNumber, hb] at h
      | cons c rest =>
        have hdigit : isDigit c = true := by simpa [startsNumber, hb] using h
        simp [hb, hdigit]
    · have hdigit : isDigit b = true := by simpa [startsNumber, hb] using h
      simp [hb, hdigit]

/-! ## The numeral as a whole -/

/-- The part of a text that its number is read from. -/
def front (text : Bytes) : Bytes := (read text).1.lexeme

/-- The numeral that is read at the start of a text is the longest one there. -/
theorem longest_read {text : Bytes} (h : startsNumber text = true) :
    Longest pattern text (front text) (read text).2 := by
  have hwhole := longest_run (takeWhile_ne_nil_of_startsNumber h)
  have htail := (longest_readFraction ((readMinus text).2.dropWhile isDigit)).mul
    (Exponent.longest_read _) fun _ hx _ hy => eq_fraction_of_exponent hx hy
  have hdigits := hwhole.mul htail fun x hx y hy hne =>
    eq_takeWhile (mem_run.1 hx).2 hne fun _ => isDigit_eq_false_of_tail hy
  have hnumeral := (longest_readMinus text).mul hdigits ?_
  · rw [front, lexeme_eq, pattern, mul_assoc, mul_assoc]
    exact hnumeral
  · intro x hx y hy hne hstarts
    obtain ⟨ds, hds, more, -, rfl⟩ := Language.mem_mul.1 hy
    obtain ⟨hdsne, hds⟩ := mem_run.1 hds
    refine eq_sign_of_digit hx ?_ hne hstarts
    obtain ⟨d, ds, rfl⟩ := List.exists_cons_of_ne_nil hdsne
    rintro b hb
    cases hb
    exact hds d List.mem_cons_self

end Numeral

/-! ## Out of range -/

/-- Halfway to an even number or beyond, a ratio rounds up. -/
theorem lt_halfEven_iff {n d k : Nat} (hk : k % 2 = 1) (hn : n < (k + 1) * d) :
    k < halfEven n d ↔ (2 * k + 1) * d ≤ 2 * n := by
  have hd : 0 < d := Nat.pos_of_ne_zero (by rintro rfl; simp at hn)
  have hsplit : d * (n / d) + n % d = n := Nat.div_add_mod n d
  have hrest : n % d < d := Nat.mod_lt n hd
  have hle : n / d ≤ k := Nat.le_of_lt_succ ((Nat.div_lt_iff_lt_mul hd).2 hn)
  rcases Nat.lt_or_eq_of_le hle with hlt | heq
  · -- the whole part is too small for one more to make a difference
    have hhalf : halfEven n d ≤ n / d + 1 := by
      unfold halfEven
      grind
    have hbound : (n / d + 1) * d ≤ k * d := Nat.mul_le_mul_right d hlt
    have hwide : d * (n / d) + d = (n / d + 1) * d := by
      rw [Nat.add_mul, Nat.one_mul, Nat.mul_comm]
    have hdouble : (2 * k + 1) * d = 2 * (k * d) + d := by
      rw [Nat.add_mul, Nat.one_mul, Nat.mul_assoc]
    omega
  · have hdouble : (2 * k + 1) * d = 2 * (d * (n / d)) + d := by
      rw [heq, Nat.add_mul, Nat.one_mul, Nat.mul_assoc, Nat.mul_comm k]
    unfold halfEven
    split
    · omega
    · split
      · omega
      · rw [if_neg (by omega)]
        omega

namespace Magnitude

/-- Whether a ratio is too large for a shift of at most `top + 1`: the whole part needs a larger
one, or rounding carries into the next power of two. -/
theorem round_limit_iff (n : Nat) {d : Nat} (hd : 0 < d) (top : Nat) :
    (top + 1 < shiftFor (n / d) ∨
      shiftFor (n / d) = top + 1 ∧ 2 ^ 53 ≤ halfEven n (d * 2 ^ shiftFor (n / d))) ↔
      (2 ^ 54 - 1) * 2 ^ top * d ≤ n := by
  have hwhole : ∀ m, m ≤ n / d ↔ m * d ≤ n := fun m => Nat.le_div_iff_mul_le hd
  have hpow : ∀ k, 2 ^ k * 2 ^ top = 2 ^ (k + top) := fun k => (Nat.pow_add 2 k top).symm
  have hgrow : (2 ^ 53 * 2 ^ top) * d ≤ (2 ^ 54 - 1) * 2 ^ top * d :=
    Nat.mul_le_mul_right d (Nat.mul_le_mul_right _ (by decide))
  have hshrink : (2 ^ 54 - 1) * 2 ^ top * d ≤ (2 ^ 54 * 2 ^ top) * d :=
    Nat.mul_le_mul_right d (Nat.mul_le_mul_right _ (by decide))
  rw [hpow] at hgrow hshrink
  rcases Nat.lt_trichotomy (shiftFor (n / d)) (top + 1) with hlow | heq | hhigh
  · have hlt : n / d < 2 ^ (53 + top) := by
      rcases Nat.eq_zero_or_pos (n / d) with hzero | hpos
      · rw [hzero]
        exact Nat.two_pow_pos _
      · refine (Nat.log2_lt (Nat.ne_of_gt hpos)).1 ?_
        unfold shiftFor at hlow
        omega
    have hbelow := mt (hwhole _).2 (Nat.not_le.2 hlt)
    omega
  · have hlt : n / d < 2 ^ (54 + top) := by
      refine Nat.lt_log2_self.trans_le (Nat.pow_le_pow_right (by decide) ?_)
      unfold shiftFor at heq
      omega
    have hbelow := mt (hwhole _).2 (Nat.not_le.2 hlt)
    have hscale : d * 2 ^ (top + 1) = 2 * (2 ^ top * d) := by
      rw [Nat.pow_succ, Nat.mul_comm d, Nat.mul_comm (2 ^ top) 2, Nat.mul_assoc]
    have hassoc : (2 ^ 54 - 1) * 2 ^ top * d = (2 ^ 54 - 1) * (2 ^ top * d) := Nat.mul_assoc ..
    have hcarry : 2 ^ 53 - 1 < halfEven n (2 * (2 ^ top * d)) ↔
        (2 * (2 ^ 53 - 1) + 1) * (2 * (2 ^ top * d)) ≤ 2 * n := by
      refine lt_halfEven_iff (by decide) ?_
      rw [← hpow, Nat.mul_assoc] at hbelow
      omega
    rw [heq, hscale, hassoc]
    omega
  · have hle : 2 ^ (54 + top) ≤ n / d := by
      refine Nat.le_trans (Nat.pow_le_pow_right (by decide) ?_) (Nat.log2_self_le ?_)
      · unfold shiftFor at hhigh
        omega
      · rintro hzero
        rw [hzero] at hhigh
        cases hhigh
    have habove := (hwhole _).1 hle
    omega

/-- Rounding fails from halfway between the largest magnitude and the next power of two on. -/
theorem round_eq_none_iff (n : Nat) {d : Nat} (hd : 0 < d) :
    round n d = none ↔ (2 ^ 54 - 1) * 2 ^ 2044 * d ≤ n := by
  rw [← round_limit_iff n hd 2044]
  unfold round
  simp only
  split
  · split
    · simp only [reduceCtorEq, false_iff]
      omega
    · simp only [true_iff]
      omega
  · split
    · simp only [reduceCtorEq, false_iff]
      omega
    · simp only [true_iff]
      omega

end Magnitude

/-- A decimal at or beyond `(2 ^ 54 - 1) * 2 ^ 970`, which is halfway between the largest number
and `2 ^ 1024`. -/
def Decimal.Overflows (d : Decimal) : Prop :=
  (2 ^ 54 - 1) * 2 ^ 970 * 10 ^ (-d.exponent).toNat ≤ d.digits * 10 ^ d.exponent.toNat

theorem Decimal.round_eq_none_iff (d : Decimal) : d.round = none ↔ d.Overflows := by
  have hpow : ∀ a b c : Nat, a + b = c → (2 : Nat) ^ c = 2 ^ a * 2 ^ b := by
    rintro a b c rfl
    exact Nat.pow_add 2 a b
  have hplaces : 0 < (10 : Nat) ^ (-d.exponent).toNat := Nat.pow_pos (by decide)
  have hlimit : (2 ^ 54 - 1) * 2 ^ 2044 * 10 ^ (-d.exponent).toNat =
      (2 ^ 54 - 1) * 2 ^ 970 * 10 ^ (-d.exponent).toNat * Double.unit := by
    rw [hpow 970 1074 2044 rfl, Double.unit, ← Nat.mul_assoc, Nat.mul_right_comm]
  rw [Decimal.round, Magnitude.round_eq_none_iff _ hplaces, hlimit]
  exact Nat.mul_le_mul_right_iff Double.unit_pos

namespace Numeral

theorem hasDigits_read {text : Bytes} (h : startsNumber text = true) :
    (read text).1.hasDigits = true := by
  have hwhole : (read text).1.whole ≠ [] := takeWhile_ne_nil_of_startsNumber h
  simp [hasDigits, hwhole]

theorem value_read {text : Bytes} (h : startsNumber text = true) :
    (read text).1.value = Double.ofRounded (read text).1.neg (read text).1.decimal.round := by
  rw [value, if_pos (hasDigits_read h), Double.ofDecimal]

/-- The front of a text stands for a number unless it is out of range. -/
theorem ofBytes?_front {text : Bytes} (h : startsNumber text = true) :
    Double.ofBytes? (front text) =
      (read text).1.decimal.round.map (Double.finite (read text).1.neg) := by
  unfold Double.ofBytes? front
  rw [read_lexeme]
  simp only [hasDigits_read h, value_read h]
  cases (read text).1.decimal.round with
  | none => rfl
  | some mag => rfl

theorem neg_read (text : Bytes) : (read text).1.neg = (text.head? == some 45) := by
  change (readMinus text).1 = _
  cases text with
  | nil => rfl
  | cons b rest =>
    rw [readMinus]
    split
    · rename_i hb
      rw [hb]
      rfl
    · rename_i hb
      simpa using hb

end Numeral

/-- The number at the start of a text is read from the longest front of the text that has the
form of a numeral: there the loops over its digits end.  That front is a numeral as a whole, and
it stands for a number unless it is out of range; then the number is the infinity of its sign. -/
theorem leading_numeral_longest (text : Bytes) (h : startsNumber text = true) :
    Numeral.numberEnd text = .ok (Numeral.front text).length ∧
      Numeral.front text <+: text ∧ Numeral.front text ∈ Numeral.pattern ∧
      (∀ word ∈ Numeral.pattern, word <+: text → word <+: Numeral.front text) ∧
      Numeral.read (Numeral.front text) = ((Numeral.read text).1, []) ∧
      (Double.ofBytes? (Numeral.front text) = none ↔
        (Numeral.read (Numeral.front text)).1.decimal.Overflows) ∧
      Double.ofLeading text =
        (Double.ofBytes? (Numeral.front text)).getD (.infinite (text.head? == some 45)) := by
  have hlongest := Numeral.longest_read h
  have hread : Numeral.read (Numeral.front text) = ((Numeral.read text).1, []) :=
    Numeral.read_lexeme text
  refine ⟨Numeral.numberEnd_eq text, hlongest.isPrefix, hlongest.mem, ?_, hread, ?_, ?_⟩
  · intro word hmem hword
    exact hlongest.word_isPrefix hmem hword
  · rw [Numeral.ofBytes?_front h, hread, Option.map_eq_none_iff, Decimal.round_eq_none_iff]
  · rw [Numeral.ofBytes?_front h, Double.ofLeading, Numeral.value_read h, ← Numeral.neg_read]
    cases (Numeral.read text).1.decimal.round with
    | none => rfl
    | some mag => rfl

/-- A second exponent that lacks its digits is left out, and a numeral out of range stands for
the infinity of its sign. -/
theorem leading_numeral_longest_cut :
    (startsNumber (ascii "-12.5e+7e+") = true ∧
      Numeral.front (ascii "-12.5e+7e+") = ascii "-12.5e+7" ∧
      ∀ word ∈ Numeral.pattern, word <+: ascii "-12.5e+7e+" → word <+: ascii "-12.5e+7") ∧
    (startsNumber (ascii "-1.e400.") = true ∧
      Numeral.front (ascii "-1.e400.") = ascii "-1.e400" ∧
      Double.ofLeading (ascii "-1.e400.") = .infinite true) := by
  have hcut := leading_numeral_longest (ascii "-12.5e+7e+") (by decide)
  have hfront : Numeral.front (ascii "-12.5e+7e+") = ascii "-12.5e+7" := by decide
  rw [hfront] at hcut
  obtain ⟨-, -, -, hlongest, -⟩ := hcut
  have hlarge := leading_numeral_longest (ascii "-1.e400.") (by decide)
  have hnumeral : Numeral.front (ascii "-1.e400.") = ascii "-1.e400" := by decide
  rw [hnumeral] at hlarge
  obtain ⟨-, -, -, -, -, hnone, hvalue⟩ := hlarge
  have hdecimal : (Numeral.read (ascii "-1.e400")).1.decimal = ⟨1, 400⟩ := by decide
  have hover : (⟨1, 400⟩ : Decimal).Overflows := by
    unfold Decimal.Overflows
    decide +kernel
  rw [hdecimal] at hnone
  rw [hnone.2 hover] at hvalue
  exact ⟨⟨by decide, hfront, hlongest⟩, by decide, hnumeral, hvalue⟩

end StackScript
