import StackScript.Bytes
set_option autoImplicit false

/-!
# Lines

A text is made of lines, each ended by a newline, and of what follows the last newline.
There is one way to read a text so.
-/

namespace StackScript.Bytes

/-- Lines, each ended by a newline. -/
def ended (lines : List Bytes) : Bytes := lines.flatMap (· ++ [newline])

theorem ended_cons (line : Bytes) (rest : List Bytes) :
    ended (line :: rest) = line ++ [newline] ++ ended rest := by
  rw [ended, List.flatMap_cons, ended]

theorem ended_append (lines rest : List Bytes) :
    ended (lines ++ rest) = ended lines ++ ended rest := by
  rw [ended, List.flatMap_append, ended, ended]

/-- Lines without newlines of their own are as many as there are newlines. -/
theorem count_ended {lines : List Bytes} (h : ∀ line ∈ lines, newline ∉ line) :
    (ended lines).count newline = lines.length := by
  induction lines with
  | nil => rfl
  | cons line rest ih =>
    obtain ⟨hline, hrest⟩ := List.forall_mem_cons.1 h
    rw [ended_cons, List.count_append, List.count_append, ih hrest, List.count_eq_zero.2 hline,
      List.count_singleton_self, List.length_cons]
    omega

/-- A text with its complete lines, without their newlines, and what follows the last
newline. -/
structure Lines (text : Bytes) (lines : List Bytes) (last : Bytes) : Prop where
  whole : text = ended lines ++ last
  lines_unbroken : ∀ line ∈ lines, newline ∉ line
  last_unbroken : newline ∉ last

namespace Lines

variable {text more last rest : Bytes} {lines others : List Bytes}

/-- More text completes the line begun, and maybe others. -/
theorem append (h : Lines text lines last) (hmore : Lines (last ++ more) others rest) :
    Lines (text ++ more) (lines ++ others) rest where
  whole := by rw [h.whole, List.append_assoc, hmore.whole, ended_append, List.append_assoc]
  lines_unbroken := List.forall_mem_append.2 ⟨h.lines_unbroken, hmore.lines_unbroken⟩
  last_unbroken := hmore.last_unbroken

end Lines

end StackScript.Bytes
