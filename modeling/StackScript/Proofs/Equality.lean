import StackScript.Proofs.Counts
import StackScript.Value
set_option autoImplicit false

/-!
# Equality of values

Equality of values looks through lists at what they hold.  It tells neither the two zeros
apart nor lists that hold the same, and a NaN is equal to nothing, itself included.

A normal form says all of this at once: `Value.canon` takes their signs from zeros and their
identities from lists.  Values are equal if they have one normal form and there is no NaN in
them (`Value.equal_iff`).  So equality is symmetric and transitive, and whatever the normal
form shows, such as the kind, the shape and the text, is the same for equal values.
-/

namespace StackScript

/-! ## Numbers -/

namespace Magnitude

/-- A magnitude is known by its units: rounding them gives it back. -/
theorem units_inj {x y : Magnitude} (h : x.units = y.units) : x = y := by
  have hround := x.round_units_mul Nat.one_pos
  rw [h, y.round_units_mul Nat.one_pos] at hround
  exact (Option.some.inj hround).symm

theorem units_eq_zero_iff {x : Magnitude} : x.units = 0 ↔ x.mant = 0 := by
  have hpos : 2 ^ x.shift ≠ 0 := Nat.ne_of_gt (Nat.two_pow_pos x.shift)
  rw [units, Nat.mul_eq_zero, or_iff_left hpos]

end Magnitude

namespace Double

/-- The number that stands for those equal to it: zero has no sign. -/
def canon : Double → Double
  | .finite neg mag => .finite (neg && mag.mant != 0) mag
  | x => x

theorem canon_eq_nan_iff {x : Double} : x.canon = .nan ↔ x = .nan := by
  cases x <;> simp [canon]

theorem natAbs_signedUnits (neg : Bool) (mag : StackScript.Magnitude) :
    (signedUnits neg mag).natAbs = mag.units := by
  cases neg <;> simp [signedUnits]

/-- Only the sign of a zero does not show in the value of a number. -/
theorem signedUnits_eq_iff {a b : Bool} {x y : StackScript.Magnitude} :
    signedUnits a x = signedUnits b y ↔ canon (.finite a x) = canon (.finite b y) := by
  simp only [canon, finite.injEq]
  constructor
  · intro h
    have hunits : x.units = y.units := by
      rw [← natAbs_signedUnits a x, h, natAbs_signedUnits b y]
    have hxy : x = y := StackScript.Magnitude.units_inj hunits
    subst hxy
    refine ⟨?_, rfl⟩
    by_cases hmant : x.mant = 0
    · simp [hmant]
    · -- units other than zero are not their own negative
      have hpos : x.units ≠ 0 := mt StackScript.Magnitude.units_eq_zero_iff.1 hmant
      have hsigns : a = b := by
        cases a <;> cases b <;> simp [signedUnits] at h ⊢ <;> omega
      rw [hsigns]
  · rintro ⟨hsigns, rfl⟩
    by_cases hmant : x.mant = 0
    · have hunits : x.units = 0 := StackScript.Magnitude.units_eq_zero_iff.2 hmant
      simp [signedUnits, hunits]
    · have hne : (x.mant != 0) = true := bne_iff_ne.2 hmant
      rw [hne, Bool.and_true, Bool.and_true] at hsigns
      rw [hsigns]

/-- Numbers are equal if they are the same but for the sign of a zero, and no NaN. -/
theorem eq_iff {x y : Double} : x.eq y = true ↔ x.canon = y.canon ∧ x ≠ .nan := by
  cases x with
  | nan => simp [eq, compare?]
  | infinite a =>
    cases y with
    | infinite b => cases a <;> cases b <;> simp [eq, compare?, canon]
    | nan => simp [eq, compare?, canon]
    | finite b y => cases a <;> simp [eq, compare?, canon]
  | finite a x =>
    cases y with
    | finite b y => rw [eq_finite_iff, signedUnits_eq_iff]; simp
    | nan => simp [eq, compare?, canon]
    | infinite b => cases b <;> simp [eq, compare?, canon]

/-- Plain notation does not show the sign of a zero. -/
theorem plain_canon (x : Double) : x.canon.plain = x.plain := by
  cases x with
  | nan => rfl
  | infinite neg => rfl
  | finite neg mag =>
    by_cases hmant : mag.mant = 0
    · simp [canon, plain, hmant]
    · have hne : (mag.mant != 0) = true := bne_iff_ne.2 hmant
      rw [canon, hne, Bool.and_true]

end Double

/-! ## The parts of a value -/

mutual

/-- The parts of a value in the order in which they are written: the value itself and, if it
is a list, the parts of its items. -/
def Value.parts : Value → List Value
  | .absent => [.absent]
  | .number x => [.number x]
  | .text s => [.text s]
  | .list id items => .list id items :: Value.partsOf items

/-- The parts of some values. -/
def Value.partsOf : List Value → List Value
  | [] => []
  | v :: rest => v.parts ++ Value.partsOf rest

end

mutual

/-- Whether there is something in a value that is not a number. -/
def Value.hasNaN : Value → Bool
  | .number .nan => true
  | .list _ items => Value.anyNaN items
  | _ => false

/-- Whether there is in any of some values. -/
def Value.anyNaN : List Value → Bool
  | [] => false
  | v :: rest => v.hasNaN || Value.anyNaN rest

end

namespace Value

theorem hasNaN_number {x : Double} : (Value.number x).hasNaN = true ↔ x = .nan := by
  cases x <;> simp [hasNaN]

mutual

theorem hasNaN_iff (v : Value) : v.hasNaN = true ↔ .number .nan ∈ v.parts := by
  cases v with
  | absent => simp [hasNaN, parts]
  | number x => rw [hasNaN_number]; simp [parts, eq_comm]
  | text s => simp [hasNaN, parts]
  | list id items => simp [hasNaN, parts, anyNaN_iff items]

theorem anyNaN_iff (values : List Value) :
    anyNaN values = true ↔ .number .nan ∈ partsOf values := by
  cases values with
  | nil => simp [anyNaN, partsOf]
  | cons v rest => simp [anyNaN, partsOf, hasNaN_iff v, anyNaN_iff rest]

end

/-! ## The normal form -/

mutual

/-- The value that stands for those equal to it: zeros have no sign and lists no identity. -/
def canon : Value → Value
  | .absent => .absent
  | .number x => .number x.canon
  | .text s => .text s
  | .list _ items => .list .bare (canonItems items)

/-- The values that stand for those equal to some values. -/
def canonItems : List Value → List Value
  | [] => []
  | v :: rest => v.canon :: canonItems rest

end

mutual

theorem hasNaN_canon (v : Value) : v.canon.hasNaN = v.hasNaN := by
  cases v with
  | absent => rfl
  | number x => rw [canon, Bool.eq_iff_iff, hasNaN_number, hasNaN_number, Double.canon_eq_nan_iff]
  | text s => rfl
  | list id items => exact anyNaN_canonItems items

theorem anyNaN_canonItems (values : List Value) : anyNaN (canonItems values) = anyNaN values := by
  cases values with
  | nil => rfl
  | cons v rest => rw [canonItems, anyNaN, anyNaN, hasNaN_canon v, anyNaN_canonItems rest]

end

mutual

/-- Values are equal if they have one normal form and there is no NaN in them. -/
theorem equal_iff (a b : Value) : a.equal b = true ↔ a.canon = b.canon ∧ a.hasNaN = false := by
  cases a with
  | absent => cases b <;> simp [equal, canon, hasNaN]
  | number x =>
    cases b with
    | number y =>
      -- here alone values with one normal form can differ: both may be a NaN
      rw [equal, Double.eq_iff, ← Bool.not_eq_true, hasNaN_number, canon, canon, number.injEq]
    | absent => simp [equal, canon]
    | text t => simp [equal, canon]
    | list j ys => simp [equal, canon]
  | text s => cases b <;> simp [equal, canon, hasNaN]
  | list i xs =>
    cases b with
    | list j ys =>
      rw [equal, equalItems_iff xs ys, canon, canon, hasNaN]
      simp
    | absent => simp [equal, canon]
    | number y => simp [equal, canon]
    | text t => simp [equal, canon]

theorem equalItems_iff (xs ys : List Value) :
    equalItems xs ys = true ↔ canonItems xs = canonItems ys ∧ anyNaN xs = false := by
  cases xs with
  | nil => cases ys <;> simp [equalItems, canonItems, anyNaN]
  | cons x xs =>
    cases ys with
    | nil => simp [equalItems, canonItems]
    | cons y ys =>
      rw [equalItems, Bool.and_eq_true, equal_iff x y, equalItems_iff xs ys, canonItems,
        canonItems, List.cons.injEq, anyNaN, Bool.or_eq_false_iff]
      exact and_and_and_comm

end

/-- Lists of values are equal if they are of one length and equal pair by pair. -/
theorem equalItems_iff_pairs {xs ys : List Value} :
    equalItems xs ys = true ↔ xs.length = ys.length ∧ ∀ p ∈ xs.zip ys, p.1.equal p.2 = true := by
  induction xs generalizing ys with
  | nil => cases ys <;> simp [equalItems]
  | cons x xs ih =>
    cases ys with
    | nil => simp [equalItems]
    | cons y ys =>
      rw [equalItems, Bool.and_eq_true, ih, List.zip_cons_cons, List.forall_mem_cons,
        List.length_cons, List.length_cons, Nat.add_right_cancel_iff]
      exact and_left_comm

theorem equal_self (v : Value) (h : v.hasNaN = false) : v.equal v = true :=
  (equal_iff v v).2 ⟨rfl, h⟩

theorem equal_symm {a b : Value} (h : a.equal b = true) : b.equal a = true := by
  obtain ⟨hcanon, hnan⟩ := (equal_iff a b).1 h
  refine (equal_iff b a).2 ⟨hcanon.symm, ?_⟩
  rw [← hasNaN_canon, ← hcanon, hasNaN_canon, hnan]

theorem equal_trans {a b c : Value} (hab : a.equal b = true) (hbc : b.equal c = true) :
    a.equal c = true := by
  obtain ⟨hcanon, hnan⟩ := (equal_iff a b).1 hab
  exact (equal_iff a c).2 ⟨hcanon.trans ((equal_iff b c).1 hbc).1, hnan⟩

/-- Whatever the normal form shows is the same for equal values. -/
theorem same_of_equal {α : Type} {f : Value → α} (hf : ∀ v : Value, f v.canon = f v) {a b : Value}
    (h : a.equal b = true) : f a = f b := by
  rw [← hf a, ((equal_iff a b).1 h).1, hf b]

/-! ## What the normal form shows -/

/-- The shape of a value: its kind and, if it is a list, the shapes of its items. -/
inductive Shape where
  | leaf (kind : Kind)
  | list (items : List Shape)
  deriving Repr, Inhabited

mutual

/-- The shape of a value. -/
def shape : Value → Shape
  | .list _ items => .list (shapes items)
  | v => .leaf v.kind

/-- The shapes of some values. -/
def shapes : List Value → List Shape
  | [] => []
  | v :: rest => v.shape :: shapes rest

end

theorem kind_canon (v : Value) : v.canon.kind = v.kind := by
  cases v <;> rfl

mutual

theorem shape_canon (v : Value) : v.canon.shape = v.shape := by
  cases v with
  | list id items => exact congrArg Shape.list (shapes_canonItems items)
  | absent => rfl
  | number x => rfl
  | text s => rfl

theorem shapes_canonItems (values : List Value) : shapes (canonItems values) = shapes values := by
  cases values with
  | nil => rfl
  | cons v rest => rw [canonItems, shapes, shapes, shape_canon v, shapes_canonItems rest]

end

mutual

theorem formatOnto_canon (v : Value) (rest : Bytes) :
    v.canon.formatOnto rest = v.formatOnto rest := by
  cases v with
  | absent => rfl
  | number x => rw [canon, formatOnto, formatOnto, x.plain_canon]
  | text s => rfl
  | list id items => rw [canon, formatOnto, formatOnto, formatItemsOnto_canonItems items]

theorem formatItemsOnto_canonItems (items : List Value) (rest : Bytes) :
    formatItemsOnto (canonItems items) rest = formatItemsOnto items rest := by
  cases items with
  | nil => rfl
  | cons v items =>
    rw [canonItems, formatItemsOnto, formatItemsOnto, formatRestOnto_canonItems items,
      formatOnto_canon v]

theorem formatRestOnto_canonItems (items : List Value) (rest : Bytes) :
    formatRestOnto (canonItems items) rest = formatRestOnto items rest := by
  cases items with
  | nil => rfl
  | cons v items =>
    rw [canonItems, formatRestOnto, formatRestOnto, formatRestOnto_canonItems items,
      formatOnto_canon v]

end

theorem format_of_equal {a b : Value} (h : a.equal b = true) : a.format = b.format :=
  same_of_equal (fun v => v.formatOnto_canon []) h

/-! ## Equality is a partial equivalence -/

/-- Equality is symmetric and transitive, and a value is equal to itself if and only if no part
of it is a NaN.  Equal values are of one kind and of one shape and have the same text.  The
list without a place of its own is equal to the lists that hold nothing. -/
theorem equal_partialEquivalence :
    (∀ a b : Value, a.equal b = true → b.equal a = true) ∧
      (∀ a b c : Value, a.equal b = true → b.equal c = true → a.equal c = true) ∧
      (∀ v : Value, v.equal v = true ↔ .number .nan ∉ v.parts) ∧
      (∀ a b : Value, a.equal b = true →
        a.kind = b.kind ∧ a.shape = b.shape ∧ a.format = b.format) ∧
      ∀ (id : ListId) (items : List Value),
        (Value.list .bare []).equal (.list id items) = true ↔ items = [] := by
  refine ⟨fun a b => equal_symm, fun a b c => equal_trans, ?_, ?_, ?_⟩
  · intro v
    rw [equal_iff, ← hasNaN_iff, Bool.not_eq_true]
    exact and_iff_right rfl
  · intro a b h
    exact ⟨same_of_equal kind_canon h, same_of_equal shape_canon h, format_of_equal h⟩
  · intro id items
    cases items <;> simp [equal, equalItems]

/-- Two lists that differ in all that equality does not see: in their identities, in the sign of
a zero, and in whether the empty list in them has a place of its own. -/
def lookalikes : Value × Value :=
  (.list (.made 1) [.number (.finite true .zero), .list .bare []],
    .list (.made 2) [.number .zero, .list (.made 3) []])

theorem equal_partialEquivalence_lookalikes :
    lookalikes.1.equal lookalikes.2 = true ∧ lookalikes.2.equal lookalikes.1 = true ∧
      lookalikes.1.shape = lookalikes.2.shape ∧ lookalikes.1.format = lookalikes.2.format ∧
      (Value.list (.made 1) [.number .nan]).equal (.list (.made 1) [.number .nan]) ≠ true := by
  obtain ⟨hsymm, _, hself, hsame, _⟩ := equal_partialEquivalence
  have hequal : lookalikes.1.equal lookalikes.2 = true := by decide
  obtain ⟨_, hshape, hformat⟩ := hsame _ _ hequal
  refine ⟨hequal, hsymm _ _ hequal, hshape, hformat, ?_⟩
  rw [ne_eq, hself]
  simp [parts, partsOf]

end Value

end StackScript
