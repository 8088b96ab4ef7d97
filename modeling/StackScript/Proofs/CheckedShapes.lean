import StackScript.Proofs.CheckedReading
import StackScript.Session.Run
set_option autoImplicit false

/-!
# Shapes of texts by position

What an element of a list stands for is decided by its bytes: a symbol by the first one, a
number by the first two, and then the end of the number is searched for part by part.
Here all these bytes are asked for by position, and so is the instruction with a code.

No position is out of range, and the shapes found are those of the text.
-/

namespace StackScript

/-- Whether a position of a text holds a byte of a class. -/
def Checked.holds (p : UInt8 → Bool) (text : Bytes) (i : Nat) : Except OutOfRange Bool :=
  if i < text.length then do
    let b ← Checked.get text i
    pure (p b)
  else pure false

theorem Checked.holds_append (p : UInt8 → Bool) (pre text : Bytes) :
    Checked.holds p (pre ++ text) pre.length = .ok (text.head?.any p) := by
  unfold Checked.holds
  cases text with
  | nil =>
    rw [if_neg (by simp)]
    rfl
  | cons b rest =>
    rw [if_pos (by simp), Checked.get_append]
    rfl

/-! ## The end of a number -/

theorem head?_of_append {a b t : Bytes} {c : UInt8} (h : a ++ b = t) (hc : a.head? = some c) :
    t.head? = some c := by
  rw [← h, List.head?_append, hc]
  rfl

/-- Bytes of a class end in front of what follows them in a text, if some of that is left. -/
theorem span_takeWhile {p : UInt8 → Bool} {t kept cut : Bytes} (h : kept ++ cut = t.dropWhile p) :
    (t.takeWhile p ++ kept).takeWhile p = t.takeWhile p ∧
      (t.takeWhile p ++ kept).dropWhile p = kept := by
  refine Bytes.span_run (fun b hb => List.all_eq_true.1 List.all_takeWhile b hb) fun b hb => ?_
  have hfirst := List.head?_dropWhile_not p t
  rw [head?_of_append h hb] at hfirst
  simpa using hfirst

namespace Exponent

/-- The position after the exponent that stands at a position, if one does. -/
def endFrom (text : Bytes) (i : Nat) : Except OutOfRange Nat := do
  let marked ← Checked.holds (fun b => b == 101 || b == 69) text i
  if marked then do
    let signed ← Checked.holds (fun b => b == 43 || b == 45) text (i + 1)
    let start := if signed then i + 2 else i + 1
    let stop ← Token.skip isDigit text start
    pure (if start < stop then stop else i)
  else pure i

/-- The bytes of an exponent that may be missing. -/
def spelling (e : Option Exponent) : Bytes := e.elim [] lexeme

theorem readSign_split (t : Bytes) : (readSign t).1.toList ++ (readSign t).2 = t := by
  cases t with
  | nil => rfl
  | cons b rest =>
    simp only [readSign]
    split <;> rfl

theorem readSign_isSome (t : Bytes) :
    t.head?.any (fun b => b == 43 || b == 45) = (readSign t).1.isSome := by
  cases t with
  | nil => rfl
  | cons b rest =>
    simp only [readSign, List.head?_cons, Option.any_some]
    split
    · rename_i hsign
      rcases hsign with rfl | rfl <;> rfl
    · rename_i hsign
      simpa using hsign

/-- A sign is read again in front of digits. -/
theorem readSign_digits (t digits : Bytes) {c : UInt8} (hc : isDigit c = true) :
    readSign ((readSign t).1.toList ++ c :: digits) = ((readSign t).1, c :: digits) := by
  have hplain : readSign (c :: digits) = (none, c :: digits) := by
    simp only [readSign]
    rw [if_neg]
    rintro (rfl | rfl) <;> exact absurd hc (by decide)
  cases t with
  | nil => exact hplain
  | cons b rest =>
    by_cases hsign : b = 43 ∨ b = 45
    · have hread (text : Bytes) : readSign (b :: text) = (some b, text) := by
        simp only [readSign, if_pos hsign]
      rw [hread]
      exact hread _
    · have hread : readSign (b :: rest) = (none, b :: rest) := by
        simp only [readSign, if_neg hsign]
      rw [hread]
      exact hplain

theorem read_split (t : Bytes) : spelling (read t).1 ++ (read t).2 = t := by
  cases t with
  | nil => rfl
  | cons mark rest =>
    have hsign := readSign_split rest
    simp only [read]
    generalize readSign rest = r at hsign ⊢
    split
    · split
      · rfl
      · simp only [spelling, Option.elim_some, lexeme, List.cons_append, List.append_assoc,
          List.takeWhile_append_dropWhile, hsign]
    · rfl

/-- An exponent is read again from its own bytes. -/
theorem read_spelling (t : Bytes) : read (spelling (read t).1) = ((read t).1, []) := by
  cases t with
  | nil => rfl
  | cons mark rest =>
    simp only [read]
    by_cases hmark : mark = 101 ∨ mark = 69
    · rw [if_pos hmark]
      obtain ⟨htake, hdrop⟩ := span_takeWhile (p := isDigit)
        (List.nil_append ((readSign rest).2.dropWhile isDigit))
      rw [List.append_nil] at htake hdrop
      have hall : ∀ b ∈ (readSign rest).2.takeWhile isDigit, isDigit b = true :=
        fun b hb => List.all_eq_true.1 List.all_takeWhile b hb
      cases hdigits : (readSign rest).2.takeWhile isDigit with
      | nil => rfl
      | cons c digits =>
        have hagain := readSign_digits rest digits
          (hall c (by rw [hdigits]; exact List.mem_cons_self))
        rw [hdigits] at htake hdrop
        simp only [List.isEmpty_cons, Bool.false_eq_true, if_false, spelling, Option.elim_some,
          lexeme, List.cons_append, if_pos hmark, hagain, htake, hdrop]
    · rw [if_neg hmark]
      rfl

theorem endFrom_append (pre t : Bytes) :
    endFrom (pre ++ t) pre.length = .ok (pre.length + (spelling (read t).1).length) := by
  have hmarked := Checked.holds_append (fun b => b == 101 || b == 69) pre t
  cases t with
  | nil =>
    unfold endFrom
    rw [hmarked]
    rfl
  | cons mark rest =>
    by_cases hmark : mark = 101 ∨ mark = 69
    · have hyes : (mark == 101 || mark == 69) = true := by simpa using hmark
      have hsigned : Checked.holds (fun b => b == 43 || b == 45) (pre ++ mark :: rest)
          (pre.length + 1) = .ok (readSign rest).1.isSome := by
        have happend := Checked.holds_append (fun b => b == 43 || b == 45) (pre ++ [mark]) rest
        rwa [List.append_assoc, List.length_append, readSign_isSome] at happend
      -- the digits start behind the mark and the sign, if there is one
      have hstart : (if (readSign rest).1.isSome then pre.length + 2 else pre.length + 1) =
          (pre ++ mark :: (readSign rest).1.toList).length := by
        rw [List.length_append, List.length_cons]
        cases (readSign rest).1 <;> rfl
      have hskip := Token.skip_append isDigit (pre ++ mark :: (readSign rest).1.toList)
        (readSign rest).2
      rw [List.append_assoc, List.cons_append, readSign_split] at hskip
      unfold endFrom
      rw [hmarked]
      simp only [List.head?_cons, Option.any_some, hyes, bind, Except.bind, if_true, hsigned,
        hstart, hskip, read, if_pos hmark]
      cases hdigits : (readSign rest).2.takeWhile isDigit with
      | nil =>
        -- a mark without digits is not taken up
        rw [if_neg (by simp)]
        rfl
      | cons c digits =>
        rw [if_pos (by simp)]
        refine congrArg Except.ok ?_
        simp only [spelling, List.isEmpty_cons, Bool.false_eq_true, if_false, Option.elim_some,
          lexeme, List.length_append, List.length_cons, List.cons_append]
        omega
    · have hother : (mark == 101 || mark == 69) = false := by simpa using hmark
      unfold endFrom
      rw [hmarked]
      simp only [List.head?_cons, Option.any_some, hother, read, if_neg hmark]
      rfl

end Exponent

namespace Numeral

/-- The position after the fraction that stands at a position, if one does. -/
def fractionEnd (text : Bytes) (i : Nat) : Except OutOfRange Nat := do
  let pointed ← Checked.holds (· == 46) text i
  if pointed then Token.skip isDigit text (i + 1) else pure i

/-- The position after the number at the start of a text. -/
def numberEnd (text : Bytes) : Except OutOfRange Nat := do
  let minus ← Checked.holds (· == 45) text 0
  let i ← Token.skip isDigit text (if minus then 1 else 0)
  let i ← fractionEnd text i
  Exponent.endFrom text i

/-- The bytes of a sign that may be missing. -/
def signSpelling (neg : Bool) : Bytes := if neg then [45] else []

/-- The bytes of a fraction that may be missing. -/
def fractionSpelling (fraction : Option Bytes) : Bytes := fraction.elim [] (46 :: ·)

theorem lexeme_eq (n : Numeral) :
    n.lexeme = signSpelling n.neg ++
      (n.whole ++ (fractionSpelling n.fraction ++ Exponent.spelling n.exponent)) := by
  obtain ⟨neg, whole, fraction, exponent⟩ := n
  unfold lexeme
  rw [List.append_assoc, List.append_assoc]
  cases fraction <;> cases exponent <;> rfl

theorem readMinus_split (t : Bytes) : signSpelling (readMinus t).1 ++ (readMinus t).2 = t := by
  cases t with
  | nil => rfl
  | cons b rest =>
    by_cases hminus : b = 45
    · subst hminus
      rfl
    · simp only [readMinus, if_neg hminus]
      rfl

theorem holds_minus (t : Bytes) : Checked.holds (· == 45) t 0 = .ok (readMinus t).1 := by
  have hholds := Checked.holds_append (· == 45) [] t
  cases t with
  | nil => exact hholds
  | cons b rest =>
    simp only [readMinus]
    split
    · rename_i hminus
      subst hminus
      exact hholds
    · rename_i hminus
      rw [List.head?_cons, Option.any_some, beq_eq_false_iff_ne.2 hminus] at hholds
      exact hholds

theorem readFraction_split (t : Bytes) :
    fractionSpelling (readFraction t).1 ++ (readFraction t).2 = t := by
  cases t with
  | nil => rfl
  | cons b rest =>
    simp only [readFraction]
    split
    · rename_i hpoint
      simp only [fractionSpelling, Option.elim_some, List.cons_append,
        List.takeWhile_append_dropWhile, hpoint]
    · rfl

theorem fractionEnd_append (pre t : Bytes) :
    fractionEnd (pre ++ t) pre.length =
      .ok (pre.length + (fractionSpelling (readFraction t).1).length) := by
  have hholds := Checked.holds_append (· == 46) pre t
  cases t with
  | nil =>
    unfold fractionEnd
    rw [hholds]
    rfl
  | cons b rest =>
    by_cases hpoint : b = 46
    · subst hpoint
      have hskip := Token.skip_append isDigit (pre ++ [46]) rest
      rw [List.append_assoc, List.length_append] at hskip
      unfold fractionEnd
      rw [hholds]
      refine hskip.trans ?_
      simp only [readFraction, if_true, fractionSpelling, Option.elim_some, List.length_cons,
        List.length_nil, Nat.zero_add, Nat.add_assoc, Nat.add_comm 1]
    · unfold fractionEnd
      rw [hholds]
      simp only [List.head?_cons, Option.any_some, beq_eq_false_iff_ne.2 hpoint, readFraction,
        if_neg hpoint]
      rfl

/-- The four parts of a text: sign, digits, fraction and exponent, and what follows. -/
theorem read_eq (text : Bytes) :
    read text =
      (⟨(readMinus text).1, (readMinus text).2.takeWhile isDigit,
        (readFraction ((readMinus text).2.dropWhile isDigit)).1,
        (Exponent.read (readFraction ((readMinus text).2.dropWhile isDigit)).2).1⟩,
        (Exponent.read (readFraction ((readMinus text).2.dropWhile isDigit)).2).2) :=
  rfl

theorem read_split (text : Bytes) : (read text).1.lexeme ++ (read text).2 = text := by
  simp only [lexeme_eq, read_eq, List.append_assoc]
  rw [Exponent.read_split, readFraction_split, List.takeWhile_append_dropWhile, readMinus_split]

/-- The end of the number is found by position. -/
theorem numberEnd_eq (text : Bytes) : numberEnd text = .ok (read text).1.lexeme.length := by
  rw [lexeme_eq, read_eq]
  have hminus := readMinus_split text
  have hholds := holds_minus text
  generalize readMinus text = m at hminus hholds ⊢
  obtain ⟨neg, after⟩ := m
  have hfraction := readFraction_split (after.dropWhile isDigit)
  have hstart : (if neg then 1 else 0) = (signSpelling neg).length := by cases neg <;> rfl
  -- each part ends where the parts before it and its own bytes end
  have hskip := Token.skip_append isDigit (signSpelling neg) after
  have hpoint := fractionEnd_append (signSpelling neg ++ after.takeWhile isDigit)
    (after.dropWhile isDigit)
  have hexponent := Exponent.endFrom_append
    (signSpelling neg ++ (after.takeWhile isDigit ++
      fractionSpelling (readFraction (after.dropWhile isDigit)).1))
    (readFraction (after.dropWhile isDigit)).2
  simp only at hminus
  simp only [List.append_assoc, List.takeWhile_append_dropWhile, hfraction, hminus,
    List.length_append, Nat.add_assoc] at hskip hpoint hexponent
  unfold numberEnd
  simp only [hholds, bind, Except.bind, hstart, hskip, hpoint, hexponent, List.length_append]

theorem readMinus_spelling {neg : Bool} {after cut text : Bytes}
    (hread : (readMinus text).1 = neg) (h : signSpelling neg ++ after ++ cut = text) :
    readMinus (signSpelling neg ++ after) = (neg, after) := by
  cases neg with
  | true => rfl
  | false =>
    cases after with
    | nil => rfl
    | cons b rest =>
      have hhead : text.head? = some b := head?_of_append h rfl
      have hother : b ≠ 45 := by
        rintro rfl
        cases text with
        | nil => cases hhead
        | cons c text =>
          cases hhead
          cases hread
      simp only [signSpelling, Bool.false_eq_true, if_false, List.nil_append, readMinus,
        if_neg hother]

theorem readFraction_spelling {t kept cut : Bytes} (h : kept ++ cut = (readFraction t).2) :
    readFraction (fractionSpelling (readFraction t).1 ++ kept) = ((readFraction t).1, kept) := by
  cases t with
  | nil =>
    obtain ⟨rfl, _⟩ := List.append_eq_nil_iff.1 h
    rfl
  | cons b rest =>
    by_cases hpoint : b = 46
    · subst hpoint
      obtain ⟨htake, hdrop⟩ := span_takeWhile (p := isDigit) h
      simp only [readFraction, if_true, fractionSpelling, Option.elim_some, List.cons_append, htake,
        hdrop]
    · have hread : readFraction (b :: rest) = (none, b :: rest) := by
        simp only [readFraction, if_neg hpoint]
      rw [hread] at h ⊢
      cases kept with
      | nil => rfl
      | cons c kept =>
        obtain ⟨rfl, _⟩ := List.cons.inj h
        simp only [fractionSpelling, Option.elim_none, List.nil_append, readFraction, if_neg hpoint]

/-- A numeral is read again from its own bytes. -/
theorem read_lexeme (text : Bytes) : read (read text).1.lexeme = ((read text).1, []) := by
  have hsplit := read_split text
  rw [lexeme_eq, read_eq] at hsplit
  rw [lexeme_eq, read_eq text]
  have hminus := readMinus_spelling rfl hsplit
  generalize readMinus text = m at hminus ⊢
  obtain ⟨neg, after⟩ := m
  -- what is left of each part is followed by the start of what followed it
  have hexponent := Exponent.read_split (readFraction (after.dropWhile isDigit)).2
  have hfraction := readFraction_spelling hexponent
  have hdigits := span_takeWhile (p := isDigit) (t := after) (by
    rw [List.append_assoc, hexponent, readFraction_split])
  rw [read_eq]
  simp only [hminus, hdigits.1, hdigits.2, hfraction, Exponent.read_spelling]

end Numeral

/-- The number at the start of a text, read from the bytes up to its end. -/
def Double.leadingAt (text : Bytes) : Except OutOfRange Double := do
  let stop ← Numeral.numberEnd text
  let lexeme ← Checked.slice text 0 stop
  pure (Double.ofLeading lexeme)

theorem Double.leadingAt_eq (text : Bytes) :
    Double.leadingAt text = .ok (Double.ofLeading text) := by
  have hslice := Checked.slice_append [] (Numeral.read text).1.lexeme (Numeral.read text).2
  rw [Numeral.read_split, List.length_nil, Nat.zero_add, List.nil_append] at hslice
  unfold leadingAt
  rw [Numeral.numberEnd_eq]
  change (Checked.slice text 0 _ >>= fun lexeme => pure (ofLeading lexeme)) = _
  rw [show Checked.slice text 0 _ = _ from hslice]
  change Except.ok (ofLeading _) = _
  rw [ofLeading, Numeral.read_lexeme, ofLeading]

/-! ## Shapes -/

/-- What a text in a list stands for: itself, a number, or an instruction, if its name is
that of one. -/
inductive Shape where
  | symbol
  | number (x : Double)
  | instruction (i : Option Instruction)

namespace Shape

/-- The instruction with a name, by its code. -/
def named (text : Bytes) : Except OutOfRange Shape :=
  match Instruction.codeOf? text with
  | none => pure (.instruction none)
  | some code => do
    let i ← Checked.get Instruction.all code
    pure (.instruction (some i))

/-- The shape of a text, by its first bytes. -/
def ofText (text : Bytes) : Except OutOfRange Shape :=
  if 0 < text.length then do
    let b ← Checked.get text 0
    if startsSymbol b then pure .symbol
    else do
      let isNumber ← Token.numberAt b text 0
      if isNumber then do
        let x ← Double.leadingAt text
        pure (.number x)
      else named text
  else named text

theorem named_eq (text : Bytes) : named text = .ok (.instruction (Instruction.ofName? text)) := by
  have hfind : Instruction.ofName? text =
      (Instruction.codeOf? text).bind fun code => Instruction.all[code]? :=
    List.find?_eq_bind_findIdx?_getElem?
  unfold named
  rw [hfind]
  cases hcode : Instruction.codeOf? text with
  | none => rfl
  | some code =>
    have hlt : code < Instruction.all.length := (List.findIdx?_eq_some_iff_findIdx_eq.1 hcode).1
    have hget := Checked.get_of_getElem? (List.getElem?_eq_getElem hlt)
    rw [Option.bind_some, List.getElem?_eq_getElem hlt]
    simp only [hget]
    rfl

theorem ofText_eq (text : Bytes) :
    ofText text = .ok (
      if text.head?.any startsSymbol then .symbol
      else if startsNumber text then .number (Double.ofLeading text)
      else .instruction (Instruction.ofName? text)) := by
  cases text with
  | nil => exact named_eq []
  | cons b rest =>
    have hget : Checked.get (b :: rest) 0 = .ok b := Checked.get_append [] b rest
    have hnumber := Token.numberAt_append [] b rest
    unfold ofText
    rw [if_pos (by simp), hget, List.head?_cons, Option.any_some]
    change (if startsSymbol b then _ else _) = _
    split
    · rfl
    · rw [show Token.numberAt b (b :: rest) 0 = _ from hnumber]
      change (if startsNumber (b :: rest) then _ else _) = _
      split
      · rw [Double.leadingAt_eq]
        rfl
      · exact named_eq (b :: rest)

end Shape

end StackScript
