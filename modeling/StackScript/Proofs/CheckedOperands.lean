import StackScript.Proofs.Equality
import StackScript.Proofs.CheckedReading
import StackScript.Session.Perform
set_option autoImplicit false

/-!
# Operands by position

The instructions that take lists and the stack apart are written here a second time.
Every item is asked for by its position, counts and positions come from numbers by a
conversion that is told only for results in range, and a position that is out of range
would crash the run.

None is, whatever the number: each of these actions is the action of its instruction.
-/

namespace StackScript

namespace Checked

/-- What is found in something smaller than `most`.  In anything larger nothing is looked for,
and `plain` stands for what would be found. -/
def sized {α : Type} (most size : Nat) (found : Except OutOfRange α) (plain : α) :
    Except OutOfRange α :=
  if size < most then found else .ok plain

theorem sized_eq {α : Type} {most size : Nat} (hmost : most ≤ sizeBound)
    {found : Except OutOfRange α} {plain : α} (h : size < sizeBound → found = .ok plain) :
    sized most size found plain = .ok plain := by
  unfold sized
  split
  · next hsize => exact h (Nat.lt_of_lt_of_le hsize hmost)
  · rfl

/-- A sequence of `count` equal elements, of which there may be `most`. -/
def make {α : Type} (x : α) (count : Int) (most : Nat) : Except OutOfRange (List α) :=
  if 0 ≤ count ∧ count ≤ most then .ok (List.replicate count.toNat x) else .error ⟨count, most⟩

theorem slice_zero {α : Type} {xs : List α} {stop : Int} (h : 0 ≤ stop ∧ stop ≤ xs.length) :
    slice xs 0 stop = .ok (xs.take stop.toNat) := by
  unfold slice
  rw [if_pos ⟨Int.le_refl 0, h⟩]
  rfl

theorem slice_length {α : Type} {xs : List α} {start : Int} (h : 0 ≤ start ∧ start ≤ xs.length) :
    slice xs start xs.length = .ok (xs.drop start.toNat) := by
  unfold slice
  rw [if_pos ⟨h.1, h.2, Int.le_refl _⟩, Int.toNat_natCast, List.take_length]

end Checked

/-! ## The stack -/

namespace Stack

/-- The value on top and the stack without it, by positions from the bottom. -/
def popAt (st : Stack) : Except OutOfRange (Except Cause (Value × Stack)) :=
  let top : Int := st.toList.length - 1
  if top < 0 then .ok (.error .emptyStack)
  else do
    let v ← Checked.get st.toList top
    -- the place is cleared before it is given up
    let cleared ← Checked.set st.toList top .absent
    let rest ← Checked.slice cleared 0 top
    pure (.ok (v, ⟨rest.reverse⟩))

/-- The value on top if it is of a kind, and the stack without it. -/
def popKindAt (want : Kind) (st : Stack) : Except OutOfRange (Except Cause (Value × Stack)) := do
  match ← st.popAt with
  | .error cause => pure (.error cause)
  | .ok (v, rest) => pure (if v.kind = want then .ok (v, rest) else .error (.mismatch want v))

/-- The value on top, by its position from the bottom. -/
def topAt (st : Stack) : Except OutOfRange (Except Cause Value) :=
  let top : Int := st.toList.length - 1
  if top < 0 ∨ (st.toList.length : Int) ≤ top then .ok (.error (.noValueAt top st.size))
  else do
    let v ← Checked.get st.toList top
    pure (.ok v)

theorem popAt_eq (st : Stack) : st.popAt = .ok st.pop := by
  obtain ⟨values⟩ := st
  cases values with
  | nil => rfl
  | cons v rest =>
    have htop : (((⟨v :: rest⟩ : Stack).toList.length : Int) - 1) =
        (rest.reverse.length : Int) := by
      simp [toList]
    have hget := Checked.get_append rest.reverse v []
    have hset := Checked.set_append rest.reverse v .absent []
    have hslice : Checked.slice (rest.reverse ++ [Value.absent]) 0 (rest.reverse.length : Int) =
        .ok rest.reverse := by
      rw [Checked.slice_zero ⟨Int.natCast_nonneg _, by simp only [List.length_append]; omega⟩,
        Int.toNat_natCast, List.take_left]
    unfold popAt
    simp only [htop]
    rw [if_neg (Int.not_lt.2 (Int.natCast_nonneg _)),
      show (⟨v :: rest⟩ : Stack).toList = rest.reverse ++ [v] by simp [toList]]
    simp only [hget, hset, hslice, bind, Except.bind, List.reverse_reverse]
    rfl

theorem topAt_eq (st : Stack) : st.topAt = .ok st.top := by
  obtain ⟨values⟩ := st
  cases values with
  | nil => rfl
  | cons v rest =>
    have hlist : (⟨v :: rest⟩ : Stack).toList = rest.reverse ++ [v] := by simp [toList]
    have htop : (((rest.reverse ++ [v]).length : Int) - 1) = (rest.reverse.length : Int) := by simp
    unfold topAt
    simp only [hlist, htop]
    rw [if_neg (by simp only [List.length_append, List.length_singleton]; omega),
      Checked.get_append]
    rfl

/-- A value of another kind stays on the stack. -/
theorem popKindAt_eq (st : Stack) :
    st.popKindAt .number = .ok (st.popNumber.map fun r => (.number r.1, r.2)) ∧
      st.popKindAt .text = .ok (st.popText.map fun r => (.text r.1, r.2)) ∧
      st.popKindAt .list = .ok st.popList := by
  unfold popKindAt
  rw [popAt_eq]
  obtain ⟨values⟩ := st
  cases values with
  | nil => exact ⟨rfl, rfl, rfl⟩
  | cons v rest => cases v <;> exact ⟨rfl, rfl, rfl⟩

end Stack

/-! ## Comparison -/

namespace Value

mutual

/-- Deep equality, with the items of the right list by position. -/
def equalAt : Value → Value → Except OutOfRange Bool
  | .absent, .absent => .ok true
  | .number x, .number y => .ok (x.eq y)
  | .text s, .text t => .ok (s == t)
  | .list _ xs, .list _ ys => if xs.length = ys.length then equalFrom xs ys 0 else .ok false
  | _, _ => .ok false

/-- Whether some values equal those of a sequence from a position on. -/
def equalFrom : List Value → List Value → (i : Nat) → Except OutOfRange Bool
  | [], _, _ => .ok true
  | x :: xs, ys, i =>
    match Checked.get ys i with
    | .error e => .error e
    | .ok y =>
      match equalAt x y with
      | .error e => .error e
      | .ok same => if same then equalFrom xs ys (i + 1) else .ok false

end

theorem equalItems_of_length_ne {xs ys : List Value} (h : xs.length ≠ ys.length) :
    equalItems xs ys = false := by
  rw [← Bool.not_eq_true, equalItems_iff_pairs]
  exact fun hequal => h hequal.1

mutual

theorem equalAt_eq (v w : Value) : equalAt v w = .ok (equal v w) := by
  cases v with
  | list id xs =>
    cases w with
    | list _ ys =>
      simp only [equalAt, equal]
      split
      · rename_i hlength
        exact equalFrom_append xs [] ys hlength
      · rename_i hlength
        rw [equalItems_of_length_ne hlength]
    | absent => rfl
    | number y => rfl
    | text t => rfl
  | absent => cases w <;> rfl
  | number x => cases w <;> rfl
  | text s => cases w <;> rfl

theorem equalFrom_append (xs pre ys : List Value) (h : xs.length = ys.length) :
    equalFrom xs (pre ++ ys) pre.length = .ok (equalItems xs ys) := by
  cases xs with
  | nil =>
    cases ys with
    | nil => rfl
    | cons y ys => cases h
  | cons x xs =>
    cases ys with
    | nil => cases h
    | cons y ys =>
      simp only [equalFrom, Checked.get_append, equalAt_eq x y, equalItems]
      cases equal x y with
      | false => rfl
      | true =>
        -- the item compared joins those in front of the position
        have hnext := equalFrom_append xs (pre ++ [y]) ys (Nat.succ.inj h)
        rw [List.append_assoc, List.length_append] at hnext
        exact hnext

end

end Value

/-! ## Items of lists -/

namespace Checked

/-- The value that a list of pairs has for a key, by positions in the pairs. -/
def valueForKey (key : Bytes) : List Value → Except OutOfRange (Option Value)
  | [] => .ok none
  | item :: rest =>
    match item with
    | .list _ pair =>
      if 2 ≤ pair.length then do
        match ← get pair 0 with
        | .text k =>
          if k = key then do
            let v ← get pair 1
            pure (some v)
          else valueForKey key rest
        | _ => valueForKey key rest
      else valueForKey key rest
    | _ => valueForKey key rest

theorem valueForKey_eq (key : Bytes) (items : List Value) :
    valueForKey key items = .ok (Action.valueForKey? key items) := by
  induction items with
  | nil => rfl
  | cons item rest ih =>
    unfold valueForKey
    cases item with
    | absent => exact ih
    | number x => exact ih
    | text s => exact ih
    | list id pair =>
      match pair with
      | [] => exact ih
      | [v] =>
        -- too short to be a pair
        rw [Action.valueForKey?]
        · exact ih
        · simp
      | k :: v :: more =>
        have hkey : get (k :: v :: more) 0 = .ok k := get_append [] k (v :: more)
        have hvalue : get (k :: v :: more) 1 = .ok v := get_append [k] v more
        simp only [List.length_cons, Nat.le_add_left, if_true, hkey, hvalue, bind, Except.bind]
        cases k with
        | text k =>
          simp only [Action.valueForKey?]
          split
          · rfl
          · exact ih
        | absent => exact ih
        | number x => exact ih
        | list id more => exact ih

end Checked

namespace Conversion

variable (conv : Conversion) {most : Nat}

/-- The first items of a list. -/
def firstItems (most : Nat) (items : List Value) (n : Double) : Except OutOfRange (List Value) :=
  Checked.sized most items.length (Checked.slice items 0 (conv.countWithin items.length n))
    (items.take (n.countWithin items.length).toNat)

theorem firstItems_eq (hmost : most ≤ sizeBound) (items : List Value) (n : Double) :
    conv.firstItems most items n = .ok (items.take (n.countWithin items.length).toNat) := by
  refine Checked.sized_eq hmost fun hsize => ?_
  obtain ⟨hcount, hrange⟩ := conv.countWithin_eq hsize n
  rw [hcount, Checked.slice_zero hrange]

/-- The last items of a list. -/
def lastItems (most : Nat) (items : List Value) (n : Double) : Except OutOfRange (List Value) :=
  Checked.sized most items.length
    (Checked.slice items (items.length - conv.countWithin items.length n) items.length)
    (items.drop (items.length - (n.countWithin items.length).toNat))

theorem lastItems_eq (hmost : most ≤ sizeBound) (items : List Value) (n : Double) :
    conv.lastItems most items n =
      .ok (items.drop (items.length - (n.countWithin items.length).toNat)) := by
  refine Checked.sized_eq hmost fun hsize => ?_
  obtain ⟨hcount, hrange⟩ := conv.countWithin_eq hsize n
  have hstart : (items.length - n.countWithin items.length).toNat =
      items.length - (n.countWithin items.length).toNat := by
    omega
  rw [hcount, Checked.slice_length (by omega), hstart]

/-- The item of a list at a position. -/
def itemAt (most : Nat) (items : List Value) (n : Double) :
    Except OutOfRange (Except Cause Value) :=
  Checked.sized most items.length
    (match conv.position? items.length n with
      | none => .ok (.error (.noIndex n items.length))
      | some i => do
        let v ← Checked.get items i
        pure (.ok v))
    (Action.itemAt items n)

theorem itemAt_eq (hmost : most ≤ sizeBound) (items : List Value) (n : Double) :
    conv.itemAt most items n = .ok (Action.itemAt items n) := by
  refine Checked.sized_eq hmost fun hsize => ?_
  rw [conv.position?_eq hsize, Action.itemAt]
  cases n.toNat? with
  | none => rfl
  | some i =>
    by_cases hi : i < items.length
    · have hitem := List.getElem?_eq_getElem hi
      have hget := Checked.get_of_getElem? hitem
      simp only [Option.filter_some, decide_eq_true hi, if_true, Option.map_some,
        Int.ofNat_eq_natCast, hitem, hget]
      rfl
    · have hnone := List.getElem?_eq_none (Nat.not_lt.1 hi)
      simp only [Option.filter_some, decide_eq_false hi, Bool.false_eq_true, if_false,
        Option.map_none, hnone]

/-- The places for the values that a number asks for, of which there are `size`. -/
def places (most : Nat) (size : Nat) (n : Double) : Except OutOfRange (Option (List Value)) :=
  Checked.sized most size
    (match conv.ceilCount? size n with
      | none => .ok none
      | some count => do
        let slots ← Checked.make .absent count size
        pure (some slots))
    ((n.ceilCount? size).map fun count => List.replicate count .absent)

theorem places_eq (hmost : most ≤ sizeBound) (size : Nat) (n : Double) :
    conv.places most size n =
      .ok ((n.ceilCount? size).map fun count => List.replicate count .absent) := by
  refine Checked.sized_eq hmost fun hsize => ?_
  obtain ⟨hcount, hrange⟩ := conv.ceilCount?_eq hsize n
  rw [hcount]
  cases hfits : n.ceilCount? size with
  | none => rfl
  | some count =>
    have hwithin : (0 : Int) ≤ (count : Int) ∧ (count : Int) ≤ size :=
      ⟨Int.natCast_nonneg count, Int.ofNat_le.2 (hrange count hfits)⟩
    simp only [Option.map_some, Int.ofNat_eq_natCast, Checked.make, if_pos hwithin,
      Int.toNat_natCast]
    rfl

end Conversion

end StackScript
