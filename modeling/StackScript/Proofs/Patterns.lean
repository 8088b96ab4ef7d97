import Mathlib.Computability.Language
import StackScript.Bytes
set_option autoImplicit false

/-!
# Patterns of bytes

A pattern is a language of byte strings, put together from single bytes by sequence, choice
and repetition.  A reader that takes as much of a text as a pattern allows takes its longest
front in the language; the longest front for a sequence of patterns is that for the first and
then that for the second, if a word of the second can only follow where the first ends.
-/

namespace StackScript.Pattern

open Computability

/-- One byte of a class. -/
def byte (p : UInt8 → Bool) : Language UInt8 := fun s => ∃ b, p b = true ∧ s = [b]

/-- Bytes of a class, one or more. -/
def run (p : UInt8 → Bool) : Language UInt8 := byte p * (byte p)∗

/-- A word of a language, or nothing. -/
def optional (L : Language UInt8) : Language UInt8 := 1 + L

variable {p : UInt8 → Bool} {L M : Language UInt8} {s text front rest : Bytes}

theorem mem_byte : s ∈ byte p ↔ ∃ b, p b = true ∧ s = [b] := Iff.rfl

theorem mem_optional : s ∈ optional L ↔ s = [] ∨ s ∈ L := Iff.rfl

theorem mem_star_byte : s ∈ (byte p)∗ ↔ ∀ b ∈ s, p b = true := by
  constructor
  · intro h b hb
    obtain ⟨words, rfl, hwords⟩ := Language.mem_kstar.1 h
    obtain ⟨word, hword, hb⟩ := List.mem_flatten.1 hb
    obtain ⟨c, hc, rfl⟩ := hwords word hword
    rwa [List.mem_singleton.1 hb]
  · intro h
    refine Language.mem_kstar.2 ⟨s.map fun b => [b], ?_, ?_⟩
    · rw [← List.flatMap_def, List.flatMap_singleton']
    · intro word hword
      obtain ⟨b, hb, rfl⟩ := List.mem_map.1 hword
      exact ⟨b, h b hb, rfl⟩

theorem mem_run : s ∈ run p ↔ s ≠ [] ∧ ∀ b ∈ s, p b = true := by
  constructor
  · intro h
    obtain ⟨_, ⟨b, hb, rfl⟩, more, hmore, rfl⟩ := Language.mem_mul.1 h
    exact ⟨by simp, List.forall_mem_cons.2 ⟨hb, mem_star_byte.1 hmore⟩⟩
  · rintro ⟨hne, h⟩
    obtain ⟨b, more, rfl⟩ := List.exists_cons_of_ne_nil hne
    obtain ⟨hb, hmore⟩ := List.forall_mem_cons.1 h
    exact Language.append_mem_mul (mem_byte.2 ⟨b, hb, rfl⟩) (mem_star_byte.2 hmore)

/-! ## Longest fronts -/

/-- A text starts with a word of a language and with no longer one. -/
structure Longest (L : Language UInt8) (text front rest : Bytes) : Prop where
  split : text = front ++ rest
  mem : front ∈ L
  longest : ∀ word ∈ L, word <+: text → word.length ≤ front.length

namespace Longest

theorem isPrefix (h : Longest L text front rest) : front <+: text := ⟨rest, h.split.symm⟩

/-- Every other word that the text starts with is a front of the longest one. -/
theorem word_isPrefix (h : Longest L text front rest) {word : Bytes} (hmem : word ∈ L)
    (hword : word <+: text) : word <+: front :=
  List.prefix_of_prefix_length_le hword h.isPrefix (h.longest word hmem hword)

/-- Longest fronts one after the other, where a word of the second language follows only the
longest word of the first. -/
theorem mul {middle after : Bytes} (hfront : Longest L text front middle)
    (hafter : Longest M middle after rest)
    (hcut : ∀ x ∈ L, ∀ y ∈ M, y ≠ [] → x ++ y <+: text → x = front) :
    Longest (L * M) text (front ++ after) rest := by
  refine ⟨?_, Language.append_mem_mul hfront.mem hafter.mem, ?_⟩
  · rw [hfront.split, hafter.split, List.append_assoc]
  · intro word hword hstarts
    obtain ⟨x, hx, y, hy, rfl⟩ := Language.mem_mul.1 hword
    rw [List.length_append, List.length_append]
    by_cases hempty : y = []
    · have hfirst := hfront.longest x hx ((List.prefix_append x y).trans hstarts)
      rw [hempty, List.length_nil]
      omega
    · obtain rfl := hcut x hx y hy hempty hstarts
      rw [hfront.split, List.prefix_append_right_inj] at hstarts
      have hsecond := hafter.longest y hy hstarts
      omega

end Longest

/-- Bytes of a class that another byte follows are all that stand there. -/
theorem eq_takeWhile {x y : Bytes} (hx : ∀ b ∈ x, p b = true) (hy : y ≠ [])
    (hstop : ∀ c, y.head? = some c → p c = false) (h : x ++ y <+: text) :
    x = text.takeWhile p := by
  obtain ⟨more, rfl⟩ := h
  obtain ⟨c, y, rfl⟩ := List.exists_cons_of_ne_nil hy
  rw [List.append_assoc]
  refine (Bytes.span_run hx ?_).1.symm
  intro b hb
  rw [List.cons_append, List.head?_cons] at hb
  exact hstop b hb

theorem longest_star (p : UInt8 → Bool) (text : Bytes) :
    Longest (byte p)∗ text (text.takeWhile p) (text.dropWhile p) := by
  refine ⟨List.takeWhile_append_dropWhile.symm, ?_, ?_⟩
  · exact mem_star_byte.2 fun b hb => List.all_eq_true.1 List.all_takeWhile b hb
  · rintro word hword ⟨more, rfl⟩
    rw [List.takeWhile_append_of_pos (mem_star_byte.1 hword), List.length_append]
    exact Nat.le_add_right _ _

theorem longest_run (h : text.takeWhile p ≠ []) :
    Longest (run p) text (text.takeWhile p) (text.dropWhile p) := by
  have hstar := longest_star p text
  refine ⟨hstar.split, mem_run.2 ⟨h, mem_star_byte.1 hstar.mem⟩, ?_⟩
  intro word hword hstarts
  exact hstar.longest word (mem_star_byte.2 (mem_run.1 hword).2) hstarts

end StackScript.Pattern
