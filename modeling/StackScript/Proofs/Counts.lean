import StackScript.Proofs.Numerals
set_option autoImplicit false

/-!
# Numbers as counts and positions

Instructions take counts and positions from numbers that may be anything: fractions, zeros
of either sign, infinities, not a number, or far beyond any integer.  They compare such a
number with the size of a sequence and convert it to an integer.  A conversion is told
only for results in range; what it gives for other numbers is left open here.

As long as sizes are exact as numbers, the integer that results stays within the size
whatever the number is, and is what the exact value of the number asks for.
-/

namespace StackScript

/-- More elements than any sequence has: 48 bits address all bytes of a host's memory.  All
natural numbers below this one are exact as numbers. -/
def sizeBound : Nat := 2 ^ 53

/-- A conversion of numbers to 64-bit integers: toward zero if the result is one, and to
whatever it gives otherwise. -/
structure Conversion where
  toInt : Double → Int
  toInt_finite : ∀ neg mag, Double.Magnitude.whole mag < 2 ^ 63 →
    toInt (.finite neg mag) =
      if neg then -(Double.Magnitude.whole mag : Int) else Double.Magnitude.whole mag

/-! ## Exact sizes -/

theorem Magnitude.exists_units_eq {k : Nat} (h : k < sizeBound) :
    ∃ mag : Magnitude, mag.units = k * Double.unit := by
  by_cases hzero : k = 0
  · exact ⟨.zero, by rw [hzero, Nat.zero_mul]; rfl⟩
  · -- shift the bits of `k` up until all 53 are used
    have hlog : k.log2 ≤ 52 := Nat.le_of_lt_succ ((Nat.log2_lt hzero).2 h)
    have hlow : 2 ^ k.log2 ≤ k := Nat.log2_self_le hzero
    have hhigh : k < 2 ^ (k.log2 + 1) := Nat.lt_log2_self
    have hmant : k * 2 ^ (52 - k.log2) < 2 ^ 53 := by
      calc k * 2 ^ (52 - k.log2)
          < 2 ^ (k.log2 + 1) * 2 ^ (52 - k.log2) :=
            Nat.mul_lt_mul_of_pos_right hhigh (Nat.two_pow_pos _)
        _ = 2 ^ 53 := by
            rw [← Nat.pow_add]
            congr 1
            omega
    have hnormal : 2 ^ 52 ≤ k * 2 ^ (52 - k.log2) := by
      calc 2 ^ 52 = 2 ^ k.log2 * 2 ^ (52 - k.log2) := by
            rw [← Nat.pow_add]
            congr 1
            omega
        _ ≤ k * 2 ^ (52 - k.log2) := Nat.mul_le_mul_right _ hlow
    refine ⟨⟨k * 2 ^ (52 - k.log2), 1022 + k.log2, hmant, by omega, .inr hnormal⟩, ?_⟩
    have hshift : 52 - k.log2 + (1022 + k.log2) = 1074 := by omega
    have hunit : Double.unit = 2 ^ (52 - k.log2 + (1022 + k.log2)) := by
      rw [hshift]
      rfl
    rw [hunit, Nat.pow_add, ← Nat.mul_assoc]
    rfl

namespace Double

theorem ofNat_exact {k : Nat} (h : k < sizeBound) :
    ∃ mag : StackScript.Magnitude, ofNat k = .finite false mag ∧ mag.units = k * unit := by
  obtain ⟨mag, hunits⟩ := StackScript.Magnitude.exists_units_eq h
  have hround := mag.round_units_mul Nat.one_pos
  rw [Nat.mul_one, hunits] at hround
  refine ⟨mag, ?_, hunits⟩
  rw [ofNat, ofRatio, hround]
  rfl

theorem ofInt_natCast (k : Nat) : ofInt (k : Int) = ofNat k := by
  have hneg : decide ((k : Int) < 0) = false := by simp
  rw [ofInt, hneg]
  rfl

theorem unit_pos : 0 < unit := by
  unfold unit
  apply Nat.pow_pos
  decide

/-! ## Comparison of exact values -/

theorem lt_finite_iff {a b : Bool} {x y : StackScript.Magnitude} :
    lt (.finite a x) (.finite b y) = true ↔ signedUnits a x < signedUnits b y := by
  simp [lt, compare?, Int.compare_eq_lt]

theorem eq_finite_iff {a b : Bool} {x y : StackScript.Magnitude} :
    eq (.finite a x) (.finite b y) = true ↔ signedUnits a x = signedUnits b y := by
  simp [eq, compare?]

theorem le_finite_iff {a b : Bool} {x y : StackScript.Magnitude} :
    le (.finite a x) (.finite b y) = true ↔ signedUnits a x ≤ signedUnits b y := by
  rw [le, Bool.or_eq_true, lt_finite_iff, eq_finite_iff]
  omega

/-- A number compares with an exact size as its units do. -/
theorem lt_ofNat_iff {k : Nat} (h : k < sizeBound) {neg : Bool} {mag : StackScript.Magnitude} :
    lt (ofNat k) (.finite neg mag) = true ↔ ((k * unit : Nat) : Int) < signedUnits neg mag := by
  obtain ⟨size, hsize, hunits⟩ := ofNat_exact h
  rw [hsize, lt_finite_iff, ← hunits]
  rfl

theorem le_ofNat_iff {k : Nat} (h : k < sizeBound) {neg : Bool} {mag : StackScript.Magnitude} :
    le (ofNat k) (.finite neg mag) = true ↔ ((k * unit : Nat) : Int) ≤ signedUnits neg mag := by
  obtain ⟨size, hsize, hunits⟩ := ofNat_exact h
  rw [hsize, le_finite_iff, ← hunits]
  rfl

theorem eq_ofNat_iff {k : Nat} (h : k < sizeBound) {neg : Bool} {mag : StackScript.Magnitude} :
    eq (ofNat k) (.finite neg mag) = true ↔ ((k * unit : Nat) : Int) = signedUnits neg mag := by
  obtain ⟨size, hsize, hunits⟩ := ofNat_exact h
  rw [hsize, eq_finite_iff, ← hunits]
  rfl

theorem zero_lt_iff {neg : Bool} {mag : StackScript.Magnitude} :
    lt zero (.finite neg mag) = true ↔ neg = false ∧ 0 < mag.units := by
  rw [zero, lt_finite_iff]
  have hzero : signedUnits false .zero = 0 := rfl
  rw [hzero]
  cases neg with
  | true => simp [signedUnits]
  | false => simp [signedUnits]

/-- Only a natural number compares equal to one. -/
theorem toNat?_of_eq {n : Double} {k : Nat} (hk : k < sizeBound)
    (heq : eq (ofNat k) n = true) : n.toNat? = some k := by
  have hpos := unit_pos
  cases n with
  | nan =>
    obtain ⟨mag, hexact, _⟩ := ofNat_exact hk
    rw [hexact] at heq
    cases heq
  | infinite neg =>
    obtain ⟨mag, hexact, _⟩ := ofNat_exact hk
    rw [hexact] at heq
    cases neg <;> cases heq
  | finite neg mag =>
    rw [eq_ofNat_iff hk] at heq
    have hunits : mag.units = k * unit ∧ (neg = false ∨ mag.units = 0) := by
      cases neg with
      | false =>
        simp only [signedUnits, Bool.false_eq_true, if_false] at heq
        exact ⟨by omega, .inl rfl⟩
      | true =>
        simp only [signedUnits, if_true] at heq
        refine ⟨by omega, .inr (by omega)⟩
    have hmod : mag.units % unit = 0 := by rw [hunits.1, Nat.mul_mod_left]
    have hwhole : Magnitude.whole mag = k := by
      rw [Magnitude.whole, hunits.1, Nat.mul_div_cancel _ hpos]
    simp only [toNat?, if_pos (And.intro hmod hunits.2), hwhole]

/-- What is positive and does not reach a size is finite, and its whole part is below the
size. -/
theorem exists_finite_of_between {k : Nat} (h : k < sizeBound) {n : Double}
    (hpos : lt zero n = true) (hle : le (ofNat k) n = false) :
    ∃ mag, n = .finite false mag ∧ Magnitude.whole mag < k := by
  cases n with
  | nan => cases hpos
  | infinite neg =>
    cases neg with
    | true => cases hpos
    | false =>
      obtain ⟨size, hsize, _⟩ := ofNat_exact h
      rw [hsize] at hle
      cases hle
  | finite neg mag =>
    obtain ⟨rfl, _⟩ := zero_lt_iff.1 hpos
    refine ⟨mag, rfl, ?_⟩
    have hlt : mag.units < k * unit := by
      have hnot := mt (le_ofNat_iff h).2 (Bool.eq_false_iff.1 hle)
      simp only [signedUnits, Bool.false_eq_true, if_false] at hnot
      omega
    exact (Nat.div_lt_iff_lt_mul unit_pos).2 hlt

theorem toInt64_finite (neg : Bool) (mag : StackScript.Magnitude)
    (h : Magnitude.whole mag < 2 ^ 63) :
    toInt64 (.finite neg mag) =
      if neg then -(Magnitude.whole mag : Int) else Magnitude.whole mag := by
  have hrange : -(2 ^ 63) ≤ (if neg then -(Magnitude.whole mag : Int) else Magnitude.whole mag) ∧
      (if neg then -(Magnitude.whole mag : Int) else Magnitude.whole mag) < 2 ^ 63 := by
    cases neg with
    | true =>
      rw [if_pos rfl]
      omega
    | false =>
      rw [if_neg (by decide)]
      omega
  simp only [toInt64, if_pos hrange]

/-- The least whole number that is not smaller. -/
def ceiling : Double → Double
  | .finite neg mag =>
    ofRatio neg ((if neg then Magnitude.whole mag else Magnitude.ceil mag) * unit) 1
  | x => x

theorem ceil_le_iff {mag : StackScript.Magnitude} {k : Nat} :
    Magnitude.ceil mag ≤ k ↔ mag.units ≤ k * unit := by
  have hpos := unit_pos
  unfold Magnitude.ceil
  rw [← Nat.lt_succ_iff, Nat.div_lt_iff_lt_mul hpos, Nat.succ_mul]
  omega

end Double

/-! ## Counts -/

namespace Conversion

variable (conv : Conversion) {size : Nat}

/-- The conversion that gives the least integer for everything out of range. -/
def truncating : Conversion := ⟨Double.toInt64, Double.toInt64_finite⟩

theorem toInt_ofNat {k : Nat} (h : k < sizeBound) : conv.toInt (.ofNat k) = k := by
  obtain ⟨mag, hexact, hunits⟩ := Double.ofNat_exact h
  have hwhole : Double.Magnitude.whole mag = k := by
    rw [Double.Magnitude.whole, hunits, Nat.mul_div_cancel _ Double.unit_pos]
  have hbound : Double.Magnitude.whole mag < 2 ^ 63 := by
    have hsmall : sizeBound ≤ 2 ^ 63 := by decide
    omega
  rw [hexact, conv.toInt_finite false mag hbound, hwhole]
  rfl

/-- How many of `size` things a number asks for, with its whole part by a conversion. -/
def countWithin (size : Nat) (n : Double) : Int :=
  if !Double.lt .zero n then 0
  else if Double.le (.ofNat size) n then size
  else conv.toInt n

/-- The count is in range, and no conversion shows in it. -/
theorem countWithin_eq (h : size < sizeBound) (n : Double) :
    conv.countWithin size n = n.countWithin size ∧
      0 ≤ n.countWithin size ∧ n.countWithin size ≤ size := by
  unfold countWithin Double.countWithin
  rw [Double.ofInt_natCast]
  cases hpos : Double.lt .zero n with
  | false =>
    simp only [Bool.not_false, if_true]
    exact ⟨trivial, Int.le_refl 0, Int.natCast_nonneg size⟩
  | true =>
    simp only [Bool.not_true, Bool.false_eq_true, if_false]
    cases hle : Double.le (.ofNat size) n with
    | true =>
      simp only [if_true]
      exact ⟨trivial, Int.natCast_nonneg size, Int.le_refl _⟩
    | false =>
      simp only [Bool.false_eq_true, if_false]
      obtain ⟨mag, rfl, hwhole⟩ := Double.exists_finite_of_between h hpos hle
      have hbound : Double.Magnitude.whole mag < 2 ^ 63 := by
        have hsmall : sizeBound ≤ 2 ^ 63 := by decide
        omega
      have hconv : conv.toInt (.finite false mag) = Double.Magnitude.whole mag :=
        conv.toInt_finite false mag hbound
      have hint : Double.toInt64 (.finite false mag) = Double.Magnitude.whole mag :=
        Double.toInt64_finite false mag hbound
      rw [hconv, hint]
      refine ⟨rfl, Int.natCast_nonneg _, ?_⟩
      exact Int.ofNat_le.2 (Nat.le_of_lt hwhole)

/-- How many things a number asks for when a fraction asks for one more, by a conversion,
or none if it asks for more than `size`. -/
def ceilCount? (size : Nat) (n : Double) : Option Int :=
  if Double.lt .zero n then
    if Double.lt (.ofNat size) n then none else some (conv.toInt n.ceiling)
  else some 0

/-- The count is in range, and no conversion shows in it. -/
theorem ceilCount?_eq (h : size < sizeBound) (n : Double) :
    conv.ceilCount? size n = (n.ceilCount? size).map Int.ofNat ∧
      ∀ count, n.ceilCount? size = some count → count ≤ size := by
  unfold ceilCount?
  cases n with
  | nan => exact ⟨rfl, fun count hcount => by cases hcount; exact Nat.zero_le _⟩
  | infinite neg =>
    cases neg with
    | true => exact ⟨rfl, fun count hcount => by cases hcount; exact Nat.zero_le _⟩
    | false =>
      obtain ⟨mag, hexact, _⟩ := Double.ofNat_exact h
      rw [hexact]
      refine ⟨rfl, ?_⟩
      intro count hcount
      cases hcount
  | finite neg mag =>
    cases hpos : Double.lt .zero (.finite neg mag) with
    | false =>
      have hnone : Double.ceilCount? size (.finite neg mag) = some 0 := by
        cases neg with
        | true => rfl
        | false =>
          have hzero : mag.units = 0 := by
            have hnot := mt Double.zero_lt_iff.2 (Bool.eq_false_iff.1 hpos)
            simpa using hnot
          have hceil : Double.Magnitude.ceil mag = 0 := by
            have hle : Double.Magnitude.ceil mag ≤ 0 := Double.ceil_le_iff.2 (by omega)
            omega
          simp only [Double.ceilCount?, hceil, Nat.zero_le, if_true]
      rw [hnone]
      simp only [Bool.false_eq_true, if_false]
      exact ⟨rfl, fun count hcount => by cases hcount; exact Nat.zero_le _⟩
    | true =>
      obtain ⟨rfl, _⟩ := Double.zero_lt_iff.1 hpos
      have hfits : Double.lt (.ofNat size) (.finite false mag) = true ↔
          ¬ Double.Magnitude.ceil mag ≤ size := by
        rw [Double.lt_ofNat_iff h, Double.ceil_le_iff]
        simp only [Double.signedUnits, Bool.false_eq_true, if_false]
        omega
      simp only [if_true, hfits, Double.ceilCount?]
      by_cases hceil : Double.Magnitude.ceil mag ≤ size
      · have hround : (Double.finite false mag).ceiling = .ofNat (Double.Magnitude.ceil mag) := by
          simp only [Double.ceiling, Double.ofNat, Bool.false_eq_true, if_false]
        simp only [hceil, not_true, if_true, if_false, hround, Option.map_some]
        rw [conv.toInt_ofNat (Nat.lt_of_le_of_lt hceil h)]
        refine ⟨rfl, ?_⟩
        intro count hcount
        cases hcount
        exact hceil
      · simp only [hceil, not_false_eq_true, if_true, if_false, Option.map_none]
        refine ⟨trivial, ?_⟩
        intro count hcount
        cases hcount

/-! ## Positions -/

/-- The position that a number is, by a conversion, if it is one of the first `size`. -/
def position? (size : Nat) (n : Double) : Option Int :=
  if !Double.eq (.ofInt (conv.toInt n)) n || conv.toInt n < 0 || (size : Int) ≤ conv.toInt n then
    none
  else some (conv.toInt n)

/-- A number that is a natural number exactly is converted to it. -/
theorem toInt_of_toNat? {n : Double} {k : Nat} (hk : k < sizeBound) (hn : n.toNat? = some k) :
    conv.toInt n = k ∧ Double.eq (.ofNat k) n = true := by
  cases n with
  | nan => cases hn
  | infinite neg => cases hn
  | finite neg mag =>
    simp only [Double.toNat?] at hn
    split at hn
    · rename_i hexact
      obtain ⟨hmod, hsign⟩ := hexact
      cases hn
      have hunits : Double.Magnitude.whole mag * Double.unit = mag.units :=
        Nat.div_mul_cancel (Nat.dvd_of_mod_eq_zero hmod)
      have hbound : Double.Magnitude.whole mag < 2 ^ 63 := by
        have hsmall : sizeBound ≤ 2 ^ 63 := by decide
        omega
      rw [conv.toInt_finite neg mag hbound, Double.eq_ofNat_iff hk, hunits]
      cases neg with
      | false => simp only [Double.signedUnits, Bool.false_eq_true, if_false, and_self]
      | true =>
        have hzero : mag.units = 0 := hsign.resolve_left (by simp)
        have hwhole : Double.Magnitude.whole mag = 0 := by
          rw [Double.Magnitude.whole, hzero, Nat.zero_div]
        simp only [Double.signedUnits, hwhole, hzero, if_true]
        decide
    · cases hn

/-- A position found is in range, and no conversion shows in it. -/
theorem position?_eq (h : size < sizeBound) (n : Double) :
    conv.position? size n = (n.toNat?.filter (· < size)).map Int.ofNat := by
  unfold position?
  split
  · rename_i houtside
    cases hn : n.toNat? with
    | none => rfl
    | some k =>
      by_cases hk : k < size
      · -- a position in range is found
        obtain ⟨hint, heq⟩ := conv.toInt_of_toNat? (Nat.lt_trans hk h) hn
        rw [hint, Double.ofInt_natCast, heq] at houtside
        simp only [Bool.not_true, Bool.false_or, Bool.or_eq_true, decide_eq_true_eq] at houtside
        omega
      · rw [Option.filter_some, decide_eq_false hk]
        rfl
  · rename_i hinside
    simp only [Bool.or_eq_true, Bool.not_eq_true', decide_eq_true_eq, not_or, Bool.not_eq_false,
      Int.not_lt, Int.not_le] at hinside
    obtain ⟨⟨heq, hnonneg⟩, hlt⟩ := hinside
    obtain ⟨k, hk⟩ := Int.eq_ofNat_of_zero_le hnonneg
    rw [hk] at heq hlt ⊢
    have hsize : k < size := Int.ofNat_lt.1 hlt
    rw [Double.ofInt_natCast] at heq
    rw [Double.toNat?_of_eq (Nat.lt_trans hsize h) heq, Option.filter_some, decide_eq_true hsize]
    rfl

end Conversion

end StackScript
