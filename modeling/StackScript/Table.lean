import StackScript.Bytes
set_option autoImplicit false

/-!
# Tables

A finite map from names to things, kept in the order of the names' bytes, which
is the order in which every listing shows it.  A name occurs at most once, so
the listing shows each name with the thing it was bound to last.
-/

namespace StackScript

/-- Named things in a row. -/
abbrev Entries (α : Type) : Type := List (Bytes × α)

namespace Entries

variable {α : Type}

/-- Names in strictly ascending order. -/
def Sorted (entries : Entries α) : Prop := entries.Pairwise fun a b => a.1 < b.1

/-- The entries with `name` bound to `x`, in place of any earlier binding. -/
def bind (name : Bytes) (x : α) : Entries α → Entries α
  | [] => [(name, x)]
  | e :: rest =>
    if name < e.1 then (name, x) :: e :: rest
    else if name = e.1 then (name, x) :: rest
    else e :: bind name x rest

theorem mem_bind {name : Bytes} {x : α} {entries : Entries α} {e : Bytes × α}
    (h : e ∈ bind name x entries) : e = (name, x) ∨ e ∈ entries := by
  induction entries with
  | nil => exact .inl (List.mem_singleton.1 h)
  | cons a rest ih =>
    unfold bind at h
    split at h
    · rcases List.mem_cons.1 h with h | h
      · exact .inl h
      · exact .inr h
    · split at h
      · rcases List.mem_cons.1 h with h | h
        · exact .inl h
        · exact .inr (List.mem_cons_of_mem _ h)
      · rcases List.mem_cons.1 h with h | h
        · exact .inr (h ▸ List.mem_cons_self ..)
        · exact (ih h).imp id (List.mem_cons_of_mem _)

theorem Sorted.bind {entries : Entries α} (h : entries.Sorted) (name : Bytes) (x : α) :
    (entries.bind name x).Sorted := by
  induction entries with
  | nil => exact List.pairwise_singleton _ _
  | cons a rest ih =>
    obtain ⟨ha, hrest⟩ := List.pairwise_cons.1 h
    unfold Entries.bind
    split
    · rename_i hlt
      refine List.pairwise_cons.2 ⟨?_, h⟩
      intro b hb
      rcases List.mem_cons.1 hb with rfl | hb
      · exact hlt
      · exact List.lt_trans hlt (ha b hb)
    · rename_i hge
      split
      · rename_i heq
        exact List.pairwise_cons.2 ⟨fun b hb => heq ▸ ha b hb, hrest⟩
      · rename_i hne
        refine List.pairwise_cons.2 ⟨?_, ih hrest⟩
        intro b hb
        rcases mem_bind hb with rfl | hb
        · exact Std.lt_of_le_of_ne hge (Ne.symm hne)
        · exact ha b hb

end Entries

/-- A finite map from names to things. -/
structure Table (α : Type) where
  entries : Entries α
  sorted : entries.Sorted

namespace Table

variable {α : Type}

/-- The table without names. -/
def empty : Table α := ⟨[], List.Pairwise.nil⟩

instance : Inhabited (Table α) := ⟨empty⟩

/-- How many names are bound. -/
def size (t : Table α) : Nat := t.entries.length

/-- The bound names, in order. -/
def names (t : Table α) : List Bytes := t.entries.map (·.1)

/-- What a name is bound to, if it is bound. -/
def find? (t : Table α) (name : Bytes) : Option α :=
  (t.entries.find? fun e => e.1 == name).map (·.2)

/-- The table with a name bound to a thing. -/
def bind (t : Table α) (name : Bytes) (x : α) : Table α :=
  ⟨t.entries.bind name x, t.sorted.bind name x⟩

/-- A name is bound to what it was bound to last. -/
theorem find?_bind_self (t : Table α) (name : Bytes) (x : α) :
    (t.bind name x).find? name = some x := by
  obtain ⟨entries, sorted⟩ := t
  simp only [find?, bind]
  clear sorted
  induction entries with
  | nil => simp [Entries.bind]
  | cons e rest ih =>
    unfold Entries.bind
    split
    · simp
    · split
      · simp
      · rename_i hne
        have he : (e.1 == name) = false := beq_false_of_ne (Ne.symm hne)
        simpa [List.find?_cons, he] using ih

/-- Binding a name leaves what the other names are bound to. -/
theorem find?_bind_of_ne (t : Table α) {name other : Bytes} (h : other ≠ name) (x : α) :
    (t.bind name x).find? other = t.find? other := by
  obtain ⟨entries, sorted⟩ := t
  have hn : (name == other) = false := beq_false_of_ne (Ne.symm h)
  simp only [find?, bind]
  clear sorted
  induction entries with
  | nil => simp [Entries.bind, hn]
  | cons e rest ih =>
    unfold Entries.bind
    split
    · simp [List.find?_cons, hn]
    · split
      · rename_i heq
        simp [hn, ← heq]
      · by_cases he : (e.1 == other) = true
        · simp [he]
        · simpa [List.find?_cons, he] using ih

/-- The table of some entries, a later one winning over an earlier one. -/
def ofEntries (entries : Entries α) : Table α :=
  entries.foldl (fun t e => t.bind e.1 e.2) empty

end Table

end StackScript
