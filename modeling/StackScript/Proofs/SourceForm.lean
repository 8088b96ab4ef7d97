import StackScript.Proofs.Equality
import StackScript.Proofs.RoundTrip
set_option autoImplicit false

/-!
# Source form is canonical

A number that is not finite and a text with a backtick cannot be written in source form.
Writing a value stops at the first part of that sort, in the order in which the parts are
written, and tells what is wrong with it.  A value without such parts, and without absent
ones, is written as people read it.

What is written is read as something equal, and equal values have one text.  So two values
that can be written are equal if and only if their source forms are the same.
-/

namespace StackScript

namespace Value

/-! ## Flaws -/

/-- A value that cannot be written, whatever it is part of, and the reason. -/
inductive Flawed : Value → Unwritable → Prop where
  | notFinite {x : Double} (h : x.isFinite = false) : Flawed (.number x) .notFinite
  | backtick {s : Bytes} (h : StackScript.backtick ∈ s) : Flawed (.text s) .backtick

/-- Why a value cannot be written, leaving its items aside. -/
def flaw? : Value → Option Unwritable
  | .absent => none
  | .number x => if x.isFinite then none else some .notFinite
  | .text s => if s.contains StackScript.backtick then some .backtick else none
  | .list _ _ => none

theorem flaw?_eq_some_iff {v : Value} {why : Unwritable} : v.flaw? = some why ↔ v.Flawed why := by
  constructor
  · intro h
    cases v with
    | absent => cases h
    | number x =>
      simp only [flaw?] at h
      split at h
      · cases h
      · rename_i hx
        cases h
        exact .notFinite (Bool.not_eq_true _ ▸ hx)
    | text s =>
      simp only [flaw?] at h
      split at h
      · rename_i hs
        cases h
        exact .backtick (by simpa using hs)
      · cases h
    | list id items => cases h
  · intro h
    cases h with
    | notFinite h => simp [flaw?, h]
    | backtick h => simp [flaw?, h]

theorem flaw?_eq_none_iff {v : Value} : v.flaw? = none ↔ ∀ why, ¬ v.Flawed why := by
  rw [Option.eq_none_iff_forall_ne_some]
  exact forall_congr' fun why => not_congr flaw?_eq_some_iff

/-- The first of some values that is flawed, with its flaw. -/
def firstFlaw? (values : List Value) : Option (Value × Unwritable) :=
  values.findSome? fun v => v.flaw?.map (v, ·)

theorem firstFlaw?_singleton (v : Value) : firstFlaw? [v] = v.flaw?.map (v, ·) := by
  simp [firstFlaw?]

theorem firstFlaw?_append (front back : List Value) :
    firstFlaw? (front ++ back) = (firstFlaw? front).or (firstFlaw? back) :=
  List.findSome?_append

theorem firstFlaw?_eq_none_iff {values : List Value} :
    firstFlaw? values = none ↔ ∀ v ∈ values, ∀ why, ¬ v.Flawed why := by
  rw [firstFlaw?, List.findSome?_eq_none_iff]
  apply forall_congr'
  intro v
  rw [Option.map_eq_none_iff, flaw?_eq_none_iff]

theorem firstFlaw?_eq_some_iff {values : List Value} {bad : Value} {why : Unwritable} :
    firstFlaw? values = some (bad, why) ↔
      bad.Flawed why ∧ ∃ before after, values = before ++ bad :: after ∧
        ∀ v ∈ before, ∀ why, ¬ v.Flawed why := by
  rw [firstFlaw?, List.findSome?_eq_some_iff]
  constructor
  · rintro ⟨before, v, after, hsplit, hv, hbefore⟩
    obtain ⟨_, hflaw, hpair⟩ := Option.map_eq_some_iff.1 hv
    cases hpair
    refine ⟨flaw?_eq_some_iff.1 hflaw, before, after, hsplit, ?_⟩
    intro w hw
    exact flaw?_eq_none_iff.1 (Option.map_eq_none_iff.1 (hbefore w hw))
  · rintro ⟨hflaw, before, after, hsplit, hbefore⟩
    refine ⟨before, bad, after, hsplit, ?_, ?_⟩
    · rw [flaw?_eq_some_iff.2 hflaw]
      rfl
    · intro w hw
      rw [flaw?_eq_none_iff.2 (hbefore w hw)]
      rfl

/-! ## Where writing stops -/

mutual

/-- Writing stops at the first flaw of a value, and without one where what follows stops. -/
theorem stopped_renderOnto (v : Value) (r : Rendering) :
    (v.renderOnto r).stopped = (firstFlaw? v.parts).or r.stopped := by
  cases v with
  | absent => rfl
  | number x =>
    rw [parts, firstFlaw?_singleton, renderOnto, flaw?]
    split
    · rfl
    · rfl
  | text s =>
    rw [parts, firstFlaw?_singleton, renderOnto, flaw?]
    split
    · rfl
    · rfl
  | list id items => exact stopped_renderItemsOnto items (r.after [41])

theorem stopped_renderItemsOnto (items : List Value) (r : Rendering) :
    (renderItemsOnto items r).stopped = (firstFlaw? (partsOf items)).or r.stopped := by
  cases items with
  | nil => rfl
  | cons v items =>
    rw [renderItemsOnto, partsOf, firstFlaw?_append, Option.or_assoc,
      ← stopped_renderRestOnto items r]
    exact stopped_renderOnto v _

theorem stopped_renderRestOnto (items : List Value) (r : Rendering) :
    (renderRestOnto items r).stopped = (firstFlaw? (partsOf items)).or r.stopped := by
  cases items with
  | nil => rfl
  | cons v items =>
    rw [renderRestOnto, partsOf, firstFlaw?_append, Option.or_assoc,
      ← stopped_renderRestOnto items r]
    exact stopped_renderOnto v _

end

theorem stopped_render (v : Value) : v.render.stopped = firstFlaw? v.parts :=
  (stopped_renderOnto v .empty).trans Option.or_none

mutual

/-- A value has a source form if no part of it is absent or flawed. -/
theorem writable_iff (v : Value) :
    v.writable = true ↔ .absent ∉ v.parts ∧ firstFlaw? v.parts = none := by
  cases v with
  | absent => simp [writable, parts]
  | number x => simp [writable, parts, firstFlaw?, flaw?]
  | text s => simp [writable, parts, firstFlaw?, flaw?]
  | list id items =>
    have hself : firstFlaw? (parts (.list id items)) = firstFlaw? (partsOf items) := rfl
    rw [writable, writableItems_iff items, hself, parts]
    simp

theorem writableItems_iff (values : List Value) :
    writableItems values = true ↔
      .absent ∉ partsOf values ∧ firstFlaw? (partsOf values) = none := by
  cases values with
  | nil => simp [writableItems, partsOf, firstFlaw?]
  | cons v rest =>
    rw [writableItems, Bool.and_eq_true, writable_iff v, writableItems_iff rest, partsOf,
      firstFlaw?_append, Option.or_eq_none_iff, List.mem_append, not_or]
    exact and_and_and_comm

end

/-- A value that is written to its end, and no part of which is absent, has a source form. -/
theorem writable_of_render {v : Value} (habsent : .absent ∉ v.parts)
    (hrender : v.render.stopped = none) : v.writable = true :=
  (writable_iff v).2 ⟨habsent, v.stopped_render ▸ hrender⟩

/-- Writing a value stops if and only if some part of it is a number that is not finite or a
text with a backtick.  It stops at the first of these, in the order in which the parts are
written, with the reason for it.  If it does not stop and no part is absent, what is written is
the text of the value. -/
theorem render_stops_at_first_flaw (v : Value) :
    ((∃ bad why, v.render.stopped = some (bad, why)) ↔ ∃ w ∈ v.parts, ∃ why, w.Flawed why) ∧
      (∀ bad why, v.render.stopped = some (bad, why) ↔
        bad.Flawed why ∧ ∃ before after, v.parts = before ++ bad :: after ∧
          ∀ w ∈ before, ∀ why, ¬ w.Flawed why) ∧
      (v.render.stopped = none → .absent ∉ v.parts → v.render.text = v.format) := by
  refine ⟨?_, ?_, ?_⟩
  · rw [stopped_render]
    constructor
    · rintro ⟨bad, why, hstop⟩
      obtain ⟨hflaw, before, after, hsplit, _⟩ := firstFlaw?_eq_some_iff.1 hstop
      exact ⟨bad, by simp [hsplit], why, hflaw⟩
    · rintro ⟨w, hw, why, hflaw⟩
      cases hstop : firstFlaw? v.parts with
      | none => exact absurd hflaw (firstFlaw?_eq_none_iff.1 hstop w hw why)
      | some stop => exact ⟨stop.1, stop.2, rfl⟩
  · intro bad why
    rw [stopped_render]
    exact firstFlaw?_eq_some_iff
  · intro hrender habsent
    rw [render_of_writable (writable_of_render habsent hrender)]

/-- A list with two flaws, of which the deeper one comes first. -/
def twiceFlawed : Value :=
  .list (.made 1) [.absent, .list (.made 2) [.text [], .number (.infinite true)],
    .text [StackScript.backtick]]

theorem render_stops_at_first_flaw_twiceFlawed :
    twiceFlawed.render.stopped = some (.number (.infinite true), .notFinite) := by
  obtain ⟨_, hstops, _⟩ := render_stops_at_first_flaw twiceFlawed
  refine (hstops _ _).2 ⟨.notFinite rfl, [twiceFlawed, .absent,
    .list (.made 2) [.text [], .number (.infinite true)], .text []],
    [.text [StackScript.backtick]], rfl, ?_⟩
  intro w hw
  rw [← flaw?_eq_none_iff]
  simp only [List.mem_cons, List.not_mem_nil, or_false] at hw
  rcases hw with rfl | rfl | rfl | rfl <;> rfl

/-! ## One source form for equal values -/

mutual

theorem writable_canon (v : Value) : v.canon.writable = v.writable := by
  cases v with
  | absent => rfl
  | number x => cases x <;> rfl
  | text s => rfl
  | list id items => exact writableItems_canonItems items

theorem writableItems_canonItems (values : List Value) :
    writableItems (canonItems values) = writableItems values := by
  cases values with
  | nil => rfl
  | cons v rest =>
    rw [canonItems, writableItems, writableItems, writable_canon v, writableItems_canonItems rest]

end

theorem render_of_equal {a b : Value} (h : a.equal b = true) (hb : b.writable = true) :
    a.render = b.render := by
  have ha : a.writable = true := (same_of_equal writable_canon h).trans hb
  rw [render_of_writable ha, render_of_writable hb, format_of_equal h]

/-- Texts that are the same are read as the same, which is equal to both values. -/
theorem equal_of_format {a b : Value} (ha : a.writable = true) (hb : b.writable = true)
    (h : a.format = b.format) : a.equal b = true := by
  obtain ⟨t, ht⟩ := exists_readsAs a ha
  obtain ⟨u, hu⟩ := exists_readsAs b hb
  have hparse := ht.parse_format .start
  rw [h, hu.parse_format .start] at hparse
  cases hparse
  exact equal_trans (equal_symm (ht.equal 0)) (hu.equal 0)

/-- Two values that can be written, no part of which is absent, are equal if and only if they
are written in the same way. -/
theorem equal_iff_same_render {a b : Value} (ha : .absent ∉ a.parts) (hb : .absent ∉ b.parts)
    (hrenderA : a.render.stopped = none) (hrenderB : b.render.stopped = none) :
    a.equal b = true ↔ a.render.text = b.render.text := by
  have hwritableA := writable_of_render ha hrenderA
  have hwritableB := writable_of_render hb hrenderB
  rw [render_of_writable hwritableA, render_of_writable hwritableB]
  exact ⟨format_of_equal, equal_of_format hwritableA hwritableB⟩

theorem equal_iff_same_render_lookalikes :
    .absent ∉ lookalikes.1.parts ∧ .absent ∉ lookalikes.2.parts ∧
      lookalikes.1.render.stopped = none ∧ lookalikes.2.render.stopped = none ∧
      lookalikes.1.render.text = lookalikes.2.render.text := by
  have hfirst : .absent ∉ lookalikes.1.parts := by simp [lookalikes, parts, partsOf]
  have hsecond : .absent ∉ lookalikes.2.parts := by simp [lookalikes, parts, partsOf]
  have hequal : lookalikes.1.equal lookalikes.2 = true := by decide
  exact ⟨hfirst, hsecond, rfl, rfl, (equal_iff_same_render hfirst hsecond rfl rfl).1 hequal⟩

end Value

end StackScript
