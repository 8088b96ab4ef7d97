import StackScript.Number.Notation
import StackScript.Number.Numeral
set_option autoImplicit false

/-!
# Numbers read back

A finite number in plain notation is an optional minus sign, digits, and possibly
a point and more digits.  Read as a numeral, that text gives the number back, and
nothing of it is left over.

Two facts carry this.  The digits chosen for a magnitude round to it
(`Magnitude.round_shortest`): each candidate was tried against the reader, and the
full expansion behind them is exact.  And positional notation moves the decimal
point without changing what the digits round to (`Decimal.round_numeral`).
-/

namespace StackScript

/-! ## Digits -/

theorem isDigit_digit {n : Nat} (h : n < 10) : isDigit (Bytes.digit n) = true := by
  have all : ∀ k : Fin 10, isDigit (Bytes.digit k) = true := by decide
  exact all ⟨n, h⟩

theorem toNat_digit {n : Nat} (h : n < 10) : (Bytes.digit n).toNat - 48 = n := by
  have all : ∀ k : Fin 10, (Bytes.digit k).toNat - 48 = k := by decide
  exact all ⟨n, h⟩

namespace Bytes

theorem digitsOnto_append (n : Nat) (a b : Bytes) :
    digitsOnto n (a ++ b) = digitsOnto n a ++ b := by
  fun_induction digitsOnto n a with
  | case1 n a h =>
    rw [digitsOnto, if_pos h]
    rfl
  | case2 n a h ih =>
    rw [digitsOnto, if_neg h, ← List.cons_append]
    exact ih

theorem ofNat_of_lt {n : Nat} (h : n < 10) : ofNat n = [digit n] := by
  rw [ofNat, digitsOnto, if_pos h]

theorem ofNat_of_ge {n : Nat} (h : 10 ≤ n) : ofNat n = ofNat (n / 10) ++ [digit (n % 10)] := by
  rw [ofNat, digitsOnto, if_neg (Nat.not_lt.2 h)]
  exact digitsOnto_append (n / 10) [] [digit (n % 10)]

theorem ofNat_ne_nil (n : Nat) : ofNat n ≠ [] := by
  rcases Nat.lt_or_ge n 10 with h | h
  · simp [ofNat_of_lt h]
  · simp [ofNat_of_ge h]

theorem isDigit_of_mem_ofNat (n : Nat) {b : UInt8} (hb : b ∈ ofNat n) : isDigit b = true := by
  induction n using Nat.strongRecOn generalizing b with
  | ind n ih =>
    rcases Nat.lt_or_ge n 10 with h | h
    · rw [ofNat_of_lt h, List.mem_singleton] at hb
      exact hb ▸ isDigit_digit h
    · rw [ofNat_of_ge h, List.mem_append, List.mem_singleton] at hb
      rcases hb with hb | rfl
      · exact ih (n / 10) (by omega) hb
      · exact isDigit_digit (by omega)

theorem foldl_digits (n : Nat) (ds : Bytes) :
    ds.foldl (fun n b => 10 * n + (b.toNat - 48)) n = n * 10 ^ ds.length + toNat ds := by
  induction ds generalizing n with
  | nil => simp [toNat]
  | cons b ds ih =>
    have hsplit : toNat (b :: ds) = (b.toNat - 48) * 10 ^ ds.length + toNat ds := by
      simp only [toNat, List.foldl_cons, Nat.mul_zero, Nat.zero_add]
      exact ih _
    rw [List.foldl_cons, ih, hsplit, List.length_cons, Nat.pow_succ, Nat.add_mul,
      Nat.mul_comm 10 n, Nat.mul_assoc, Nat.mul_comm 10, Nat.add_assoc]

theorem toNat_append (a b : Bytes) : toNat (a ++ b) = toNat a * 10 ^ b.length + toNat b := by
  rw [toNat, List.foldl_append, foldl_digits]
  rfl

/-- Reading the digits of a natural number gives the number back. -/
theorem toNat_ofNat (n : Nat) : toNat (ofNat n) = n := by
  induction n using Nat.strongRecOn with
  | ind n ih =>
    rcases Nat.lt_or_ge n 10 with h | h
    · rw [ofNat_of_lt h]
      simp [toNat, toNat_digit h]
    · rw [ofNat_of_ge h, toNat_append, ih (n / 10) (by omega)]
      have hdigit : toNat [digit (n % 10)] = n % 10 := by
        simp [toNat, toNat_digit (Nat.mod_lt n (by decide))]
      rw [hdigit, List.length_singleton]
      omega

end Bytes

theorem isDigit_of_mem_zeros {k : Nat} {b : UInt8} (h : b ∈ zeros k) : isDigit b = true := by
  rw [List.eq_of_mem_replicate h]
  decide

theorem length_zeros (k : Nat) : (zeros k).length = k := List.length_replicate

theorem toNat_zeros (k : Nat) : Bytes.toNat (zeros k) = 0 := by
  induction k with
  | zero => rfl
  | succ k ih =>
    have hsplit : zeros (k + 1) = [48] ++ zeros k := rfl
    rw [hsplit, Bytes.toNat_append, ih]
    simp [Bytes.toNat]

/-! ## Digits that round to a magnitude -/

theorem halfEven_mul (m : Nat) {d : Nat} (hd : 0 < d) : halfEven (m * d) d = m := by
  unfold halfEven
  rw [Nat.mul_mod_left, Nat.mul_div_cancel m hd, if_pos (by omega)]

namespace Magnitude

/-- A magnitude is held with the shift that rounding would give it. -/
theorem shiftFor_units (mag : Magnitude) : shiftFor mag.units = mag.shift := by
  unfold shiftFor units
  by_cases hmant : 2 ^ 52 ≤ mag.mant
  · have hpos : 0 < mag.mant * 2 ^ mag.shift :=
      Nat.mul_pos (by omega) (Nat.two_pow_pos _)
    have hlow : 52 + mag.shift ≤ (mag.mant * 2 ^ mag.shift).log2 := by
      rw [Nat.le_log2 (by omega), Nat.pow_add]
      exact Nat.mul_le_mul_right _ hmant
    have hhigh : (mag.mant * 2 ^ mag.shift).log2 < 53 + mag.shift := by
      rw [Nat.log2_lt (by omega), Nat.pow_add]
      exact Nat.mul_lt_mul_of_pos_right mag.mant_lt (Nat.two_pow_pos _)
    omega
  · have hshift : mag.shift = 0 := mag.normal.resolve_right hmant
    rw [hshift, Nat.pow_zero, Nat.mul_one]
    by_cases hzero : mag.mant = 0
    · rw [hzero, Nat.log2_zero]
    · have hlog : mag.mant.log2 < 52 := (Nat.log2_lt hzero).2 (by omega)
      omega

/-- A magnitude rounds to itself, whatever unit it is measured in. -/
theorem round_units_mul (mag : Magnitude) {k : Nat} (hk : 0 < k) :
    round (mag.units * k) k = some mag := by
  have hdiv : mag.units * k / k = mag.units := Nat.mul_div_cancel _ hk
  have hmant : halfEven (mag.units * k) (k * 2 ^ mag.shift) = mag.mant := by
    have hswap : mag.units * k = mag.mant * (k * 2 ^ mag.shift) := by
      rw [units, Nat.mul_assoc, Nat.mul_comm k]
    rw [hswap]
    exact halfEven_mul _ (Nat.mul_pos hk (Nat.two_pow_pos _))
  unfold round
  simp only [hdiv, shiftFor_units, hmant, mag.mant_lt, mag.shift_le, dif_pos]

/-- Of two candidates, one that is taken has been tried. -/
theorem round_of_tried {mag : Magnitude} {first second d : Decimal}
    (h : (if first.round = some mag then some first
      else if second.round = some mag then some second else none) = some d) :
    d.round = some mag := by
  split at h
  · rename_i hfirst
    cases h
    exact hfirst
  · split at h
    · rename_i hsecond
      cases h
      exact hsecond
    · cases h

theorem round_of_withDigits? {mag : Magnitude} {point : Int} {count : Nat} {d : Decimal}
    (h : mag.withDigits? point count = some d) : d.round = some mag := by
  unfold withDigits? at h
  simp only at h
  split at h
  · cases h
  · split at h
    · exact round_of_tried h
    · exact round_of_tried h

theorem round_exact (mag : Magnitude) : mag.exact.round = some mag := by
  have hunits : mag.units * 5 ^ 1074 * 10 ^ (-1074 : Int).toNat * Double.unit =
      mag.units * 10 ^ 1074 := by
    have hzero : (-1074 : Int).toNat = 0 := rfl
    have hten : ∀ n : Nat, (10 : Nat) ^ n = 5 ^ n * 2 ^ n := fun n => Nat.mul_pow 5 2 n
    rw [hzero, Nat.pow_zero, Nat.mul_one, Double.unit, hten 1074, Nat.mul_assoc]
  have hplaces : (-(-1074 : Int)).toNat = 1074 := rfl
  have hpos : ∀ n : Nat, 0 < (10 : Nat) ^ n := fun n => Nat.pow_pos (by decide)
  unfold Decimal.round exact
  simp only
  rw [hunits, hplaces]
  exact round_units_mul mag (hpos 1074)

/-- The digits chosen for a magnitude round to it. -/
theorem round_shortest (mag : Magnitude) : mag.shortest.round = some mag := by
  unfold shortest
  simp only
  cases hfound : (List.range 17).findSome? fun i => mag.withDigits? mag.decimalPoint (i + 1) with
  | none => exact mag.round_exact
  | some d =>
    obtain ⟨i, _, hi⟩ := List.exists_of_findSome?_eq_some hfound
    exact round_of_withDigits? hi

end Magnitude

/-! ## Positional notation is a numeral -/

namespace Numeral

/-- A numeral of digits with possibly a point and more digits, and no exponent. -/
structure Positional (n : Numeral) : Prop where
  whole_ne_nil : n.whole ≠ []
  whole_digits : ∀ b ∈ n.whole, isDigit b = true
  fraction_ne_nil : ∀ ds, n.fraction = some ds → ds ≠ []
  fraction_digits : ∀ ds, n.fraction = some ds → ∀ b ∈ ds, isDigit b = true
  no_exponent : n.exponent = none

theorem readMinus_sign (neg : Bool) {text : Bytes}
    (h : ∀ b, text.head? = some b → isDigit b = true) (hne : text ≠ []) :
    readMinus (Double.sign neg ++ text) = (neg, text) := by
  cases neg with
  | true => simp [Double.sign, readMinus]
  | false =>
    cases text with
    | nil => exact absurd rfl hne
    | cons b rest =>
      have hb : b ≠ 45 := by
        rintro rfl
        exact absurd (h 45 rfl) (by decide)
      simp [Double.sign, readMinus, hb]

/-- The fraction of a numeral as it is written. -/
def fractionText (n : Numeral) : Bytes := n.fraction.elim [] (46 :: ·)

/-- A numeral without exponent is its sign, its digits and its fraction. -/
theorem lexeme_of_no_exponent {n : Numeral} (h : n.exponent = none) :
    n.lexeme = Double.sign n.neg ++ (n.whole ++ n.fractionText) := by
  obtain ⟨neg, whole, fraction, exponent⟩ := n
  subst h
  cases fraction with
  | none => simp [lexeme, Double.sign, fractionText]
  | some ds => simp [lexeme, Double.sign, fractionText]

/-- A text is a numeral without exponent and what is left over: nothing if the numeral has no
point, and otherwise nothing or something that starts with another point. -/
structure Heads (n : Numeral) (text more : Bytes) : Prop where
  split : text = n.lexeme ++ more
  whole_ne_nil : n.whole ≠ []
  whole_digits : ∀ b ∈ n.whole, isDigit b = true
  fraction_digits : ∀ ds, n.fraction = some ds → ∀ b ∈ ds, isDigit b = true
  no_exponent : n.exponent = none
  more_nil : n.fraction = none → more = []
  more_point : ∀ b, more.head? = some b → b = 46

namespace Heads

variable {n : Numeral} {text more : Bytes}

theorem readFraction (h : n.Heads text more) :
    readFraction (n.fractionText ++ more) = (n.fraction, more) := by
  unfold fractionText
  cases hf : n.fraction with
  | none =>
    rw [h.more_nil hf]
    rfl
  | some ds =>
    have hspan := @Bytes.span_run isDigit ds more (h.fraction_digits ds hf) (by
      intro b hb
      rw [h.more_point b hb]
      decide)
    simp [Numeral.readFraction, hspan.1, hspan.2]

theorem readExponent (h : n.Heads text more) : Exponent.read more = (none, more) := by
  cases more with
  | nil => rfl
  | cons b rest =>
    rw [h.more_point b rfl]
    rfl

/-- The digits in front stop at a point or at the end. -/
theorem isDigit_eq_false (h : n.Heads text more) {b : UInt8}
    (hb : (n.fractionText ++ more).head? = some b) : isDigit b = false := by
  unfold fractionText at hb
  cases hf : n.fraction with
  | none =>
    rw [h.more_nil hf, hf] at hb
    cases hb
  | some ds =>
    rw [hf] at hb
    cases hb
    decide

/-- Reading takes the numeral and leaves what is left over. -/
theorem read_eq (h : n.Heads text more) : read text = (n, more) := by
  obtain ⟨d, ds, hwhole⟩ := List.exists_cons_of_ne_nil h.whole_ne_nil
  have hhead : ∀ b, (n.whole ++ (n.fractionText ++ more)).head? = some b → isDigit b = true := by
    intro b hb
    rw [hwhole, List.cons_append, List.head?_cons, Option.some.injEq] at hb
    exact h.whole_digits b (by simp [hwhole, hb])
  have hne : n.whole ++ (n.fractionText ++ more) ≠ [] := by simp [hwhole]
  have hminus := readMinus_sign n.neg hhead hne
  have hspan := Bytes.span_run h.whole_digits fun _ => h.isDigit_eq_false
  have htext : text = Double.sign n.neg ++ (n.whole ++ (n.fractionText ++ more)) := by
    rw [h.split, lexeme_of_no_exponent h.no_exponent, List.append_assoc, List.append_assoc]
  rw [htext]
  unfold read
  simp only [hminus, hspan.1, hspan.2, h.readFraction, h.readExponent]
  rw [← h.no_exponent]

theorem hasDigits (h : n.Heads text more) : n.hasDigits = true := by
  have hwhole : n.whole.isEmpty = false := by simpa using h.whole_ne_nil
  simp [Numeral.hasDigits, hwhole]

theorem value_eq (h : n.Heads text more) : n.value = Double.ofDecimal n.neg n.decimal := by
  rw [value, if_pos h.hasDigits]

/-- The number at the start of the text is that of the numeral. -/
theorem ofLeading_eq (h : n.Heads text more) :
    Double.ofLeading text = Double.ofDecimal n.neg n.decimal := by
  rw [Double.ofLeading, h.read_eq, h.value_eq]

/-- The text as a whole is a number if nothing is left over and the number is in range. -/
theorem ofBytes?_eq (h : n.Heads text more) :
    Double.ofBytes? text =
      if more = [] ∧ (Double.ofDecimal n.neg n.decimal).isFinite = true
      then some (Double.ofDecimal n.neg n.decimal) else none := by
  unfold Double.ofBytes?
  rw [h.read_eq]
  cases more with
  | nil => simp [h.hasDigits, h.value_eq]
  | cons b rest => simp

end Heads

theorem Positional.heads {n : Numeral} (h : n.Positional) : n.Heads n.lexeme [] where
  split := (List.append_nil _).symm
  whole_ne_nil := h.whole_ne_nil
  whole_digits := h.whole_digits
  fraction_digits := h.fraction_digits
  no_exponent := h.no_exponent
  more_nil := fun _ => rfl
  more_point := by simp

end Numeral

namespace Decimal

/-- A decimal in positional notation, part by part. -/
def numeral (neg : Bool) (d : Decimal) : Numeral :=
  let ds := Bytes.ofNat d.digits
  if 0 ≤ d.exponent then ⟨neg, ds ++ zeros d.exponent.toNat, none, none⟩
  else
    let places := (-d.exponent).toNat
    if places < ds.length then
      ⟨neg, ds.take (ds.length - places), some (ds.drop (ds.length - places)), none⟩
    else ⟨neg, [48], some (zeros (places - ds.length) ++ ds), none⟩

theorem numeral_neg (neg : Bool) (d : Decimal) : (d.numeral neg).neg = neg := by
  unfold numeral
  simp only
  split
  · rfl
  · split <;> rfl

theorem lexeme_numeral (neg : Bool) (d : Decimal) :
    (d.numeral neg).lexeme = Double.sign neg ++ d.positional := by
  unfold numeral positional
  simp only
  split
  · simp [Numeral.lexeme, Double.sign]
  · split
    · simp [Numeral.lexeme, Double.sign]
    · have hpoint : ascii "0." = [48, 46] := by decide
      simp [Numeral.lexeme, Double.sign, hpoint]

theorem positional_numeral (neg : Bool) (d : Decimal) : (d.numeral neg).Positional := by
  have hdigits : ∀ b ∈ Bytes.ofNat d.digits, isDigit b = true :=
    fun b hb => Bytes.isDigit_of_mem_ofNat _ hb
  have hne : Bytes.ofNat d.digits ≠ [] := Bytes.ofNat_ne_nil _
  unfold numeral
  simp only
  split
  · refine ⟨by simp [hne], ?_, by simp, by simp, rfl⟩
    intro b hb
    rcases List.mem_append.1 hb with hb | hb
    · exact hdigits b hb
    · exact isDigit_of_mem_zeros hb
  · rename_i hneg
    split
    · -- the point falls among the digits, with at least one of them on either side
      rename_i hplaces
      have hpos : 0 < (-d.exponent).toNat := by omega
      refine ⟨?_, ?_, ?_, ?_, rfl⟩
      · rw [ne_eq, List.take_eq_nil_iff]
        rintro (hzero | hnil)
        · omega
        · exact hne hnil
      · intro b hb
        exact hdigits b (List.mem_of_mem_take hb)
      · intro ds hds
        cases hds
        rw [ne_eq, List.drop_eq_nil_iff]
        omega
      · intro ds hds b hb
        cases hds
        exact hdigits b (List.mem_of_mem_drop hb)
    · refine ⟨by simp, ?_, ?_, ?_, rfl⟩
      · intro b hb
        rw [List.mem_singleton] at hb
        subst hb
        decide
      · intro ds hds
        cases hds
        simp [hne]
      · intro ds hds b hb
        cases hds
        rcases List.mem_append.1 hb with hb | hb
        · exact isDigit_of_mem_zeros hb
        · exact hdigits b hb

theorem decimal_numeral_of_nonneg (neg : Bool) {d : Decimal} (h : 0 ≤ d.exponent) :
    (d.numeral neg).decimal = ⟨d.digits * 10 ^ d.exponent.toNat, 0⟩ := by
  have hdigits : Bytes.toNat (Bytes.ofNat d.digits ++ zeros d.exponent.toNat) =
      d.digits * 10 ^ d.exponent.toNat := by
    rw [Bytes.toNat_append, Bytes.toNat_ofNat, toNat_zeros, length_zeros, Nat.add_zero]
  unfold numeral
  simp [if_pos h, Numeral.decimal, hdigits]

theorem decimal_numeral_of_neg (neg : Bool) {d : Decimal} (h : ¬ 0 ≤ d.exponent) :
    (d.numeral neg).decimal = d := by
  obtain ⟨digits, exponent⟩ := d
  simp only at h
  unfold numeral
  simp only [if_neg h]
  split
  · -- the digits are cut in two and joined again
    simp only [Numeral.decimal, Option.getD_some, List.take_append_drop, Bytes.toNat_ofNat,
      List.length_drop, Option.elim_none, mk.injEq, true_and]
    omega
  · have hvalue : Bytes.toNat ([48] ++ (zeros ((-exponent).toNat -
        (Bytes.ofNat digits).length) ++ Bytes.ofNat digits)) = digits := by
      rw [Bytes.toNat_append, Bytes.toNat_append, toNat_zeros, Bytes.toNat_ofNat]
      simp [Bytes.toNat]
    simp only [Numeral.decimal, Option.getD_some, hvalue, Option.elim_none, mk.injEq,
      true_and, List.length_append, length_zeros]
    omega

/-- Positional notation does not change what a decimal rounds to. -/
theorem round_numeral (neg : Bool) (d : Decimal) : (d.numeral neg).decimal.round = d.round := by
  by_cases h : 0 ≤ d.exponent
  · have hplaces : (-d.exponent).toNat = 0 := by omega
    rw [decimal_numeral_of_nonneg neg h]
    simp [round, hplaces]
  · rw [decimal_numeral_of_neg neg h]

end Decimal

/-! ## Plain notation reads back -/

namespace Double

/-- A finite number other than zero in plain notation is a positional numeral. -/
theorem plain_eq_lexeme (neg : Bool) {mag : Magnitude} (h : mag.mant ≠ 0) :
    plain (.finite neg mag) = (mag.shortest.numeral neg).lexeme := by
  rw [Decimal.lexeme_numeral]
  simp [plain, h]

theorem ofDecimal_of_round (neg : Bool) {d : Decimal} {mag : Magnitude} (h : d.round = some mag) :
    ofDecimal neg d = .finite neg mag := by
  unfold ofDecimal
  rw [h]
  rfl

/-- A finite number other than zero is what its plain notation reads as. -/
theorem ofBytes?_plain (neg : Bool) {mag : Magnitude} (h : mag.mant ≠ 0) :
    ofBytes? (plain (.finite neg mag)) = some (.finite neg mag) := by
  have hheads := (Decimal.positional_numeral neg mag.shortest).heads
  have hround : (mag.shortest.numeral neg).decimal.round = some mag := by
    rw [Decimal.round_numeral, mag.round_shortest]
  rw [plain_eq_lexeme neg h, hheads.ofBytes?_eq, Decimal.numeral_neg, ofDecimal_of_round neg hround]
  rfl

/-- Either zero is written as a numeral that reads as positive zero. -/
theorem ofBytes?_plain_zero (neg : Bool) {mag : Magnitude} (h : mag.mant = 0) :
    ofBytes? (plain (.finite neg mag)) = some zero := by
  have hplain : plain (.finite neg mag) = [48] := by
    simp only [plain, h, if_true]
    decide
  rw [hplain]
  decide +kernel

theorem eq_of_signedUnits {a b : Bool} {x y : Magnitude} (h : signedUnits a x = signedUnits b y) :
    eq (.finite a x) (.finite b y) = true := by
  simp [eq, compare?, h]

/-- Finite numbers are equal to what their plain notation reads as. -/
theorem exists_ofBytes?_plain {x : Double} (h : x.isFinite = true) :
    ∃ y, ofBytes? x.plain = some y ∧ y.eq x = true := by
  cases x with
  | nan => cases h
  | infinite neg => cases h
  | finite neg mag =>
    by_cases hmant : mag.mant = 0
    · have hunits : mag.units = 0 := by
        rw [Magnitude.units, hmant, Nat.zero_mul]
      refine ⟨zero, ofBytes?_plain_zero neg hmant, eq_of_signedUnits ?_⟩
      have hzero : Magnitude.zero.units = 0 := rfl
      simp [signedUnits, hunits, hzero]
    · exact ⟨.finite neg mag, ofBytes?_plain neg hmant, eq_of_signedUnits rfl⟩

end Double

end StackScript
