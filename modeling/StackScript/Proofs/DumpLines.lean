import StackScript.Proofs.ExtraNames
import StackScript.Proofs.Lines
import StackScript.Proofs.Numerals
import StackScript.Proofs.Visibility
set_option autoImplicit false

/-!
# A dump is one line a datum

A dump shows the current line, every value of the stack and every binding, each on a line of
its own.  What it shows of a datum is made visible first, so that no datum breaks its line,
and the positions of the values are as wide as the depth of the stack, which no position
exceeds.
-/

namespace StackScript

/-! ## Positions -/

namespace Bytes

/-- A larger number has no fewer digits. -/
theorem length_ofNat_le (n : Nat) : ∀ {i : Nat}, i ≤ n → (ofNat i).length ≤ (ofNat n).length := by
  induction n using Nat.strongRecOn with
  | ind n ih =>
    intro i hi
    by_cases hn : n < 10
    · rw [ofNat_of_lt hn, ofNat_of_lt (by omega)]
      exact Nat.le_refl 1
    · by_cases hsmall : i < 10
      · rw [ofNat_of_lt hsmall]
        exact List.length_pos_iff.2 (ofNat_ne_nil n)
      · have hdiv := ih (n / 10) (by omega) (show i / 10 ≤ n / 10 by omega)
        rw [ofNat_of_ge (by omega : 10 ≤ n), ofNat_of_ge (by omega : 10 ≤ i), List.length_append,
          List.length_append]
        exact Nat.add_le_add_right hdiv 1

theorem newline_not_mem_ofNat (n : Nat) : newline ∉ ofNat n := by
  intro h
  exact absurd (isDigit_of_mem_ofNat n h) (by decide)

theorem newline_not_mem_ofInt (i : Int) : newline ∉ ofInt i := by
  cases i with
  | ofNat n => exact newline_not_mem_ofNat n
  | negSucc n =>
    intro h
    rcases List.mem_cons.1 h with h | h
    · exact absurd h (by decide)
    · exact newline_not_mem_ofNat (n + 1) h

theorem newline_not_mem_padLeft {width : Nat} {text : Bytes} (h : newline ∉ text) :
    newline ∉ padLeft width text := by
  intro hmem
  rcases List.mem_append.1 hmem with hmem | hmem
  · exact absurd (List.eq_of_mem_replicate hmem) (by decide)
  · exact h hmem

end Bytes

/-- What is shown of a text stays on its line. -/
theorem Text.newline_not_mem_visible (text : Bytes) : newline ∉ Text.visible text := by
  intro h
  exact absurd (Text.isControlByte_of_mem_visible text h) (by decide)

/-! ## The lines of a dump -/

namespace Session

variable {W : Type}

/-- How wide the positions of the values are shown. -/
def indexWidth (s : Session W) : Nat := (Bytes.ofNat s.stack.size).length

/-- The line for a value at a position of the stack. -/
def valueLine (width index : Nat) (v : Value) : Bytes :=
  ascii "  [" ++ Bytes.padLeft width (Bytes.ofNat index) ++ ascii "] " ++ Text.visible v.format

/-- The line for a binding. -/
def bindingLine (binding : Bytes × Value) : Bytes :=
  ascii "  " ++ Text.visible binding.1 ++ ascii " = " ++ Text.visible binding.2.format

/-- The lines of a dump. -/
def dumpLines (s : Session W) : List Bytes :=
  [ascii "# Session Dump", ascii "  line: " ++ Bytes.ofInt s.line,
    ascii "# Stack depth:" ++ Bytes.ofNat s.stack.size] ++
  s.stack.toList.mapIdx (valueLine s.indexWidth) ++
  [ascii "# Symbols count:" ++ Bytes.ofNat s.symbols.size] ++
  s.symbols.entries.map bindingLine

theorem dumpValues_eq (width : Nat) (values : List Value) (index : Nat) :
    dumpValues width index values =
      Bytes.ended (values.mapIdx fun i => valueLine width (index + i)) := by
  induction values generalizing index with
  | nil => rfl
  | cons v rest ih =>
    have hindex : (fun i => valueLine width (index + (i + 1))) =
        fun i => valueLine width (index + 1 + i) := by
      funext i
      rw [Nat.add_assoc, Nat.add_comm 1 i]
    rw [dumpValues, ih, List.mapIdx_cons, hindex, Bytes.ended_cons]
    rfl

theorem dumpEntries_eq (entries : Entries Value) :
    dumpEntries entries = Bytes.ended (entries.map bindingLine) := by
  induction entries with
  | nil => rfl
  | cons e rest ih =>
    obtain ⟨name, v⟩ := e
    rw [dumpEntries, ih, List.map_cons, Bytes.ended_cons]
    rfl

/-- A dump is its lines, each ended by a newline. -/
theorem dump_eq_ended (s : Session W) : s.dump = Bytes.ended s.dumpLines := by
  have hvalues := dumpValues_eq s.indexWidth s.stack.toList 0
  simp only [Nat.zero_add] at hvalues
  have hheader : ascii "# Session Dump\n" = ascii "# Session Dump" ++ [newline] := by decide
  have hend : ascii "\n" = [newline] := by decide
  have hnil : Bytes.ended [] = [] := rfl
  unfold dump dumpLines
  simp only [Bytes.ended_append, Bytes.ended_cons, hnil, ← hvalues, ← dumpEntries_eq, hheader,
    hend, List.append_assoc, List.append_nil]
  rfl

theorem newline_not_mem_valueLine (width index : Nat) (v : Value) :
    newline ∉ valueLine width index v := by
  have hindex : newline ∉ ascii "  [" ++ Bytes.padLeft width (Bytes.ofNat index) :=
    List.not_mem_append (by decide)
      (Bytes.newline_not_mem_padLeft (Bytes.newline_not_mem_ofNat index))
  exact List.not_mem_append (List.not_mem_append hindex (by decide))
    (Text.newline_not_mem_visible v.format)

theorem newline_not_mem_bindingLine (binding : Bytes × Value) :
    newline ∉ bindingLine binding := by
  have hname : newline ∉ ascii "  " ++ Text.visible binding.1 :=
    List.not_mem_append (by decide) (Text.newline_not_mem_visible binding.1)
  exact List.not_mem_append (List.not_mem_append hname (by decide))
    (Text.newline_not_mem_visible binding.2.format)

/-- No datum breaks its line. -/
theorem newline_not_mem_dumpLines (s : Session W) : ∀ line ∈ s.dumpLines, newline ∉ line := by
  intro line hline
  simp only [dumpLines, List.mem_append, List.mem_cons, List.not_mem_nil, or_false] at hline
  rcases hline with (((rfl | rfl | rfl) | hvalue) | rfl) | hbinding
  · decide
  · exact List.not_mem_append (by decide) (Bytes.newline_not_mem_ofInt s.line)
  · exact List.not_mem_append (by decide) (Bytes.newline_not_mem_ofNat s.stack.size)
  · obtain ⟨index, hindex, rfl⟩ := List.mem_mapIdx.1 hvalue
    exact newline_not_mem_valueLine _ _ _
  · exact List.not_mem_append (by decide) (Bytes.newline_not_mem_ofNat s.symbols.size)
  · obtain ⟨binding, _, rfl⟩ := List.mem_map.1 hbinding
    exact newline_not_mem_bindingLine binding

theorem length_dumpLines (s : Session W) :
    s.dumpLines.length = 4 + s.stack.size + s.symbols.size := by
  simp only [dumpLines, List.length_append, List.length_cons, List.length_nil, List.length_mapIdx,
    List.length_map, Stack.toList, List.length_reverse, Stack.size, Table.size]
  omega

end Session

/-! ## The names of a table -/

namespace Table

variable {α : Type} (t : Table α)

theorem pairwise_names : t.names.Pairwise (· < ·) := List.pairwise_map.2 t.sorted

theorem mem_names_iff {name : Bytes} : name ∈ t.names ↔ (t.find? name).isSome = true := by
  rw [names, List.mem_map, Option.isSome_iff_exists]
  constructor
  · rintro ⟨⟨_, x⟩, hmem, rfl⟩
    exact ⟨x, t.mem_entries_iff.1 hmem⟩
  · rintro ⟨x, hfind⟩
    exact ⟨(name, x), t.mem_entries_iff.2 hfind, rfl⟩

/-- Every bound name is listed once, and no other. -/
theorem count_names (name : Bytes) :
    t.names.count name = if (t.find? name).isSome then 1 else 0 := by
  have hnodup : t.names.Nodup := by
    refine t.pairwise_names.imp ?_
    rintro a _ hlt rfl
    exact List.lt_irrefl a hlt
  rw [hnodup.count]
  simp only [t.mem_names_iff]

end Table

/-! ## The dump as a whole -/

namespace Session

variable {W : Type}

/-- A dump is one line a datum, complete and sorted.  It consists of its lines, each ended by a
newline and without a newline of its own: the four that are always there, one for each value,
bottom first, with its position aligned to the right in a field of one width, and one for each
binding, every bound name once and in ascending order, with what it is bound to. -/
theorem dump_line_per_datum (s : Session W) :
    s.dump = Bytes.ended s.dumpLines ∧
    (∀ line ∈ s.dumpLines, newline ∉ line) ∧
    s.dumpLines.length = 4 + s.stack.size + s.symbols.size ∧
    s.dump.count newline = 4 + s.stack.size + s.symbols.size ∧
    (∀ index < s.stack.size, ∃ spaces,
      Bytes.padLeft s.indexWidth (Bytes.ofNat index) =
        List.replicate spaces 32 ++ Bytes.ofNat index ∧
      spaces + (Bytes.ofNat index).length = s.indexWidth) ∧
    s.symbols.names.Pairwise (· < ·) ∧
    (∀ name, s.symbols.names.count name = if (s.symbols.find? name).isSome then 1 else 0) ∧
    ∀ name v, (name, v) ∈ s.symbols.entries ↔ s.symbols.find? name = some v := by
  have hlines := s.newline_not_mem_dumpLines
  have hlength := s.length_dumpLines
  refine ⟨s.dump_eq_ended, hlines, hlength, ?_, ?_, s.symbols.pairwise_names, s.symbols.count_names,
    fun _ _ => s.symbols.mem_entries_iff⟩
  · rw [s.dump_eq_ended, Bytes.count_ended hlines, hlength]
  · intro index hindex
    have hwidth : (Bytes.ofNat index).length ≤ s.indexWidth :=
      Bytes.length_ofNat_le s.stack.size (Nat.le_of_lt hindex)
    exact ⟨s.indexWidth - (Bytes.ofNat index).length, rfl, Nat.sub_add_cancel hwidth⟩

/-- Ten texts that are a newline each, and a name and a value with newlines, a control of two
bytes and a byte that is part of no character. -/
def oddTexts : Session MemoryFiles :=
  { Session.overNoFiles with
    stack := ⟨List.replicate 10 (.text [10])⟩
    symbols := Table.empty.bind [98, 10, 0xC2, 0x9B] (.text [0xFF, 10, 0xFF]) }

/-- None of that breaks a line: the dump has four lines, ten for the values and one for the
binding. -/
theorem dump_line_per_datum_oddTexts :
    oddTexts.dump = Bytes.ended oddTexts.dumpLines ∧
      oddTexts.dump.count newline = 15 ∧
      ascii "  [ 3] `^J`" ∈ oddTexts.dumpLines ∧ newline ∉ ascii "  [ 3] `^J`" ∧
      3 < oddTexts.stack.size ∧
      (∃ spaces, Bytes.padLeft 2 (Bytes.ofNat 3) = List.replicate spaces 32 ++ Bytes.ofNat 3 ∧
        spaces + (Bytes.ofNat 3).length = 2) ∧
      oddTexts.symbols.names = [[98, 10, 0xC2, 0x9B]] := by
  have hline : ascii "  [ 3] `^J`" ∈ oddTexts.dumpLines := by decide +kernel
  have hindex : 3 < oddTexts.stack.size := by decide
  have hfield : oddTexts.indexWidth = 2 := by decide +kernel
  obtain ⟨hdump, hlines, _, hcount, hwidth, _, _, _⟩ := dump_line_per_datum oddTexts
  rw [hfield] at hwidth
  exact ⟨hdump, hcount, hline, hlines _ hline, hindex, hwidth 3 hindex, rfl⟩

end Session

end StackScript
