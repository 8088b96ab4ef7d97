import StackScript.Text.Scalar
set_option autoImplicit false

/-!
# Reading back what is encoded

A character is read where its encoding stands, and nowhere else.  So decoding loses no byte
and makes none up, and a text of encoded characters decodes to these characters.  A text may
be cut between two scalars, or in front of a byte that continues no character, without a
change to what the part before the cut decodes to.
-/

namespace StackScript.Text

/-! ## Characters and bytes as numbers -/

theorem toNat_lt (c : Char) : c.toNat < 0x110000 := by
  have hvalid := c.valid
  simp only [UInt32.isValidChar, Nat.isValidChar] at hvalid
  change c.val.toNat < _
  omega

theorem toNat_not_surrogate (c : Char) : c.toNat < 0xD800 ∨ 0xDFFF < c.toNat := by
  have hvalid := c.valid
  simp only [UInt32.isValidChar, Nat.isValidChar] at hvalid
  change c.val.toNat < _ ∨ _ < c.val.toNat
  omega

theorem toNat_ofNat {n : Nat} (h : n < 0xD800 ∨ 0xDFFF < n ∧ n < 0x110000) :
    (Char.ofNat n).toNat = n := by
  have hvalid : n.isValidChar := h
  rw [Char.ofNat, dif_pos hvalid]
  rfl

theorem toNat_toUInt8 {n : Nat} (h : n < 0x100) : n.toUInt8.toNat = n :=
  UInt8.toNat_ofNat_of_lt' h

theorem toUInt8_eq {n : Nat} {b : UInt8} (h : n = b.toNat) : n.toUInt8 = b := by
  rw [h]
  exact UInt8.ofNat_toNat

theorem payload_eq (b : UInt8) : payload b = b.toNat - 0x80 := rfl

theorem between_iff (lo hi b : UInt8) :
    (decide (lo ≤ b) && decide (b ≤ hi)) = true ↔ lo.toNat ≤ b.toNat ∧ b.toNat ≤ hi.toNat := by
  rw [Bool.and_eq_true, decide_eq_true_iff, decide_eq_true_iff, UInt8.le_iff_toNat_le,
    UInt8.le_iff_toNat_le]

theorem isContinuation_iff (b : UInt8) :
    isContinuation b = true ↔ 0x80 ≤ b.toNat ∧ b.toNat ≤ 0xBF := between_iff 0x80 0xBF b

/-- A lower bound that hangs on another byte. -/
theorem ite_le_iff (first a x y b : UInt8) :
    (if first = a then x else y) ≤ b ↔
      (first.toNat = a.toNat → x.toNat ≤ b.toNat) ∧
        (first.toNat ≠ a.toNat → y.toNat ≤ b.toNat) := by
  rw [ne_eq, UInt8.toNat_inj]
  split <;> simp_all [UInt8.le_iff_toNat_le]

/-- An upper bound that hangs on another byte. -/
theorem le_ite_iff (first a x y b : UInt8) :
    b ≤ (if first = a then x else y) ↔
      (first.toNat = a.toNat → b.toNat ≤ x.toNat) ∧
        (first.toNat ≠ a.toNat → b.toNat ≤ y.toNat) := by
  rw [ne_eq, UInt8.toNat_inj]
  split <;> simp_all [UInt8.le_iff_toNat_le]

/-! ## The four lengths of an encoding -/

theorem encode_one {c : Char} (h : c.toNat < 0x80) : encode c = [c.toNat.toUInt8] := by
  simp only [encode, if_pos h]

theorem encode_two {c : Char} (hlow : 0x80 ≤ c.toNat) (hhigh : c.toNat < 0x800) :
    encode c = [(0xC0 + c.toNat / 0x40).toUInt8, (0x80 + c.toNat % 0x40).toUInt8] := by
  simp only [encode, if_neg (Nat.not_lt.2 hlow), if_pos hhigh]

theorem encode_three {c : Char} (hlow : 0x800 ≤ c.toNat) (hhigh : c.toNat < 0x10000) :
    encode c = [(0xE0 + c.toNat / 0x1000).toUInt8, (0x80 + c.toNat / 0x40 % 0x40).toUInt8,
      (0x80 + c.toNat % 0x40).toUInt8] := by
  have hone : ¬ c.toNat < 0x80 := by omega
  simp only [encode, if_neg hone, if_neg (Nat.not_lt.2 hlow), if_pos hhigh]

theorem encode_four {c : Char} (hlow : 0x10000 ≤ c.toNat) :
    encode c = [(0xF0 + c.toNat / 0x40000).toUInt8, (0x80 + c.toNat / 0x1000 % 0x40).toUInt8,
      (0x80 + c.toNat / 0x40 % 0x40).toUInt8, (0x80 + c.toNat % 0x40).toUInt8] := by
  have hone : ¬ c.toNat < 0x80 := by omega
  have htwo : ¬ c.toNat < 0x800 := by omega
  simp only [encode, if_neg hone, if_neg htwo, if_neg (Nat.not_lt.2 hlow)]

/-- This is the encoding of the standard library. -/
theorem encode_eq_utf8EncodeChar (c : Char) : encode c = String.utf8EncodeChar c := by
  have hrange := toNat_lt c
  have hval : c.val.toNat = c.toNat := rfl
  simp only [String.utf8EncodeChar, hval]
  split
  · exact encode_one (by omega)
  · split
    · rw [encode_two (by omega) (by omega), Nat.mod_eq_of_lt (show c.toNat / 64 < 32 by omega),
        Nat.add_comm (c.toNat / 64), Nat.add_comm (c.toNat % 64)]
    · split
      · rw [encode_three (by omega) (by omega),
          Nat.mod_eq_of_lt (show c.toNat / 4096 < 16 by omega), Nat.add_comm (c.toNat / 4096),
          Nat.add_comm (c.toNat / 64 % 64), Nat.add_comm (c.toNat % 64)]
      · rw [encode_four (by omega), Nat.mod_eq_of_lt (show c.toNat / 262144 < 8 by omega),
          Nat.add_comm (c.toNat / 262144), Nat.add_comm (c.toNat / 4096 % 64),
          Nat.add_comm (c.toNat / 64 % 64), Nat.add_comm (c.toNat % 64)]

/-- An encoding is a byte that continues no character, and bytes that do. -/
theorem exists_encode_eq_cons (c : Char) :
    ∃ first more, encode c = first :: more ∧ isContinuation first = false ∧
      ∀ b ∈ more, isContinuation b = true := by
  have hrange := toNat_lt c
  have hmark : ∀ {n}, n < 0x80 ∨ 0xC0 ≤ n → n < 0x100 → isContinuation n.toUInt8 = false := by
    intro n hout hbyte
    refine Bool.eq_false_iff.2 fun h => ?_
    rw [isContinuation_iff, toNat_toUInt8 hbyte] at h
    omega
  have htail : ∀ n, isContinuation (0x80 + n % 0x40).toUInt8 = true := by
    intro n
    rw [isContinuation_iff, toNat_toUInt8 (by omega)]
    omega
  by_cases hone : c.toNat < 0x80
  · exact ⟨_, _, encode_one hone, hmark (.inl hone) (by omega), fun _ hb => by cases hb⟩
  · by_cases htwo : c.toNat < 0x800
    · refine ⟨_, _, encode_two (by omega) htwo, hmark (.inr (by omega)) (by omega), ?_⟩
      intro b hb
      rw [List.mem_singleton.1 hb]
      exact htail _
    · by_cases hthree : c.toNat < 0x10000
      · refine ⟨_, _, encode_three (by omega) hthree, hmark (.inr (by omega)) (by omega), ?_⟩
        intro b hb
        simp only [List.mem_cons, List.not_mem_nil, or_false] at hb
        rcases hb with rfl | rfl <;> exact htail _
      · refine ⟨_, _, encode_four (by omega), hmark (.inr (by omega)) (by omega), ?_⟩
        intro b hb
        simp only [List.mem_cons, List.not_mem_nil, or_false] at hb
        rcases hb with rfl | rfl | rfl <;> exact htail _

/-- A byte of an encoding is the character itself or is above `7F`. -/
theorem of_mem_encode {c : Char} {b : UInt8} (h : b ∈ encode c) :
    b.toNat = c.toNat ∨ 0x80 ≤ b.toNat := by
  have hrange := toNat_lt c
  unfold encode at h
  simp only at h
  split at h
  · rename_i hascii
    left
    rw [List.mem_singleton.1 h]
    exact UInt8.toNat_ofNat_of_lt' (Nat.lt_trans hascii (by decide))
  · right
    -- the first byte has a mark of its own, the others continue it
    have hmarked : ∃ n, b = n.toUInt8 ∧ 0x80 ≤ n ∧ n < 0x100 := by
      split at h
      · simp only [List.mem_cons, List.not_mem_nil, or_false] at h
        rcases h with rfl | rfl <;> exact ⟨_, rfl, by omega, by omega⟩
      · split at h
        · simp only [List.mem_cons, List.not_mem_nil, or_false] at h
          rcases h with rfl | rfl | rfl <;> exact ⟨_, rfl, by omega, by omega⟩
        · simp only [List.mem_cons, List.not_mem_nil, or_false] at h
          rcases h with rfl | rfl | rfl | rfl <;> exact ⟨_, rfl, by omega, by omega⟩
    obtain ⟨n, rfl, hlow, hhigh⟩ := hmarked
    exact Nat.le_trans hlow (Nat.le_of_eq (UInt8.toNat_ofNat_of_lt' hhigh).symm)

/-! ## What bytes spell

The bounds are those of the reader: with them the number that the payloads make up is a
character, and its shortest encoding has these very bytes. -/

theorem encode_ofNat_two {first b : UInt8} (hfirst : 0xC2 ≤ first.toNat ∧ first.toNat ≤ 0xDF)
    (hb : 0x80 ≤ b.toNat ∧ b.toNat ≤ 0xBF) :
    encode (Char.ofNat ((first.toNat - 0xC0) * 0x40 + payload b)) = [first, b] := by
  have hpb := payload_eq b
  have hc := toNat_ofNat (n := (first.toNat - 0xC0) * 0x40 + payload b) (by omega)
  rw [encode_two (by omega) (by omega), toUInt8_eq (by omega : _ = first.toNat),
    toUInt8_eq (by omega : _ = b.toNat)]

theorem encode_ofNat_three {first b d : UInt8}
    (hfirst : 0xE0 ≤ first.toNat ∧ first.toNat ≤ 0xEF)
    (hlow : (first.toNat = 0xE0 → 0xA0 ≤ b.toNat) ∧ (first.toNat ≠ 0xE0 → 0x80 ≤ b.toNat))
    (hhigh : (first.toNat = 0xED → b.toNat ≤ 0x9F) ∧ (first.toNat ≠ 0xED → b.toNat ≤ 0xBF))
    (hd : 0x80 ≤ d.toNat ∧ d.toNat ≤ 0xBF) :
    encode (Char.ofNat ((first.toNat - 0xE0) * 0x1000 + payload b * 0x40 + payload d)) =
      [first, b, d] := by
  have hpb := payload_eq b
  have hpd := payload_eq d
  have hc := toNat_ofNat
    (n := (first.toNat - 0xE0) * 0x1000 + payload b * 0x40 + payload d) (by omega)
  rw [encode_three (by omega) (by omega), toUInt8_eq (by omega : _ = first.toNat),
    toUInt8_eq (by omega : _ = b.toNat), toUInt8_eq (by omega : _ = d.toNat)]

theorem encode_ofNat_four {first b d e : UInt8}
    (hfirst : 0xF0 ≤ first.toNat ∧ first.toNat ≤ 0xF4)
    (hlow : (first.toNat = 0xF0 → 0x90 ≤ b.toNat) ∧ (first.toNat ≠ 0xF0 → 0x80 ≤ b.toNat))
    (hhigh : (first.toNat = 0xF4 → b.toNat ≤ 0x8F) ∧ (first.toNat ≠ 0xF4 → b.toNat ≤ 0xBF))
    (hd : 0x80 ≤ d.toNat ∧ d.toNat ≤ 0xBF) (he : 0x80 ≤ e.toNat ∧ e.toNat ≤ 0xBF) :
    encode (Char.ofNat ((first.toNat - 0xF0) * 0x40000 + payload b * 0x1000 +
      payload d * 0x40 + payload e)) = [first, b, d, e] := by
  have hpb := payload_eq b
  have hpd := payload_eq d
  have hpe := payload_eq e
  have hc := toNat_ofNat (n := (first.toNat - 0xF0) * 0x40000 + payload b * 0x1000 +
    payload d * 0x40 + payload e) (by omega)
  rw [encode_four (by omega), toUInt8_eq (by omega : _ = first.toNat),
    toUInt8_eq (by omega : _ = b.toNat), toUInt8_eq (by omega : _ = d.toNat),
    toUInt8_eq (by omega : _ = e.toNat)]

/-! ## Reading one character -/

/-- A character is read only where its encoding stands. -/
theorem encode_of_charAt? {first : UInt8} {rest : Bytes} {c : Char} {taken : Nat}
    (h : charAt? first rest = some (c, taken)) :
    taken ≤ rest.length ∧ encode c = first :: rest.take taken := by
  unfold charAt? at h
  split at h
  · rename_i hone
    simp only [UInt8.lt_iff_toNat_lt, UInt8.reduceToNat] at hone
    obtain ⟨rfl, rfl⟩ := Prod.mk.inj (Option.some.inj h)
    have hc := toNat_ofNat (n := first.toNat) (by omega)
    refine ⟨Nat.zero_le _, ?_⟩
    rw [encode_one (by omega), hc, toUInt8_eq rfl, List.take_zero]
  · split at h
    · rename_i htwo
      simp only [between_iff, UInt8.reduceToNat] at htwo
      rcases rest with _ | ⟨b, rest⟩
      · cases h
      · simp only [Option.ite_none_right_eq_some, Option.some.injEq, Prod.mk.injEq,
          isContinuation_iff] at h
        obtain ⟨hb, rfl, rfl⟩ := h
        exact ⟨Nat.le_add_left 1 _, encode_ofNat_two htwo hb⟩
    · split at h
      · rename_i hthree
        simp only [between_iff, UInt8.reduceToNat] at hthree
        rcases rest with _ | ⟨b, _ | ⟨d, rest⟩⟩
        · cases h
        · cases h
        · simp only [Option.ite_none_right_eq_some, Option.some.injEq, Prod.mk.injEq,
            Bool.and_eq_true, decide_eq_true_eq, isContinuation_iff, ite_le_iff, le_ite_iff,
            UInt8.reduceToNat] at h
          obtain ⟨⟨⟨hlow, hhigh⟩, hd⟩, rfl, rfl⟩ := h
          exact ⟨Nat.le_add_left 2 _, encode_ofNat_three hthree hlow hhigh hd⟩
      · split at h
        · rename_i hfour
          simp only [between_iff, UInt8.reduceToNat] at hfour
          rcases rest with _ | ⟨b, _ | ⟨d, _ | ⟨e, rest⟩⟩⟩
          · cases h
          · cases h
          · cases h
          · simp only [Option.ite_none_right_eq_some, Option.some.injEq, Prod.mk.injEq,
              Bool.and_eq_true, decide_eq_true_eq, isContinuation_iff, ite_le_iff, le_ite_iff,
              UInt8.reduceToNat] at h
            obtain ⟨⟨⟨⟨hlow, hhigh⟩, hd⟩, he⟩, rfl, rfl⟩ := h
            exact ⟨Nat.le_add_left 3 _, encode_ofNat_four hfour hlow hhigh hd he⟩
        · cases h

/-- A character is read wherever its encoding stands. -/
theorem charAt?_of_encode {c : Char} {first : UInt8} {more : Bytes}
    (h : encode c = first :: more) (rest : Bytes) :
    charAt? first (more ++ rest) = some (c, more.length) := by
  have hrange := toNat_lt c
  have hsurrogate := toNat_not_surrogate c
  have hread : ∀ {n}, n = c.toNat → Char.ofNat n = c := by
    rintro _ rfl
    exact Char.ofNat_toNat c
  unfold charAt?
  simp only [UInt8.lt_iff_toNat_lt, between_iff, UInt8.reduceToNat]
  by_cases hone : c.toNat < 0x80
  · rw [encode_one hone] at h
    obtain ⟨rfl, rfl⟩ := List.cons.inj h
    have hfirst := toNat_toUInt8 (n := c.toNat) (by omega)
    rw [if_pos (by omega), hread hfirst]
    rfl
  · by_cases htwo : c.toNat < 0x800
    · rw [encode_two (by omega) htwo] at h
      obtain ⟨rfl, rfl⟩ := List.cons.inj h
      have hfirst := toNat_toUInt8 (n := 0xC0 + c.toNat / 0x40) (by omega)
      have hb := toNat_toUInt8 (n := 0x80 + c.toNat % 0x40) (by omega)
      rw [if_neg (by omega), if_pos (by omega)]
      simp only [List.cons_append, List.nil_append, List.length_cons, List.length_nil]
      rw [if_pos ((isContinuation_iff _).2 (by omega)), payload_eq, hread (by omega)]
    · by_cases hthree : c.toNat < 0x10000
      · rw [encode_three (by omega) hthree] at h
        obtain ⟨rfl, rfl⟩ := List.cons.inj h
        have hfirst := toNat_toUInt8 (n := 0xE0 + c.toNat / 0x1000) (by omega)
        have hb := toNat_toUInt8 (n := 0x80 + c.toNat / 0x40 % 0x40) (by omega)
        have hd := toNat_toUInt8 (n := 0x80 + c.toNat % 0x40) (by omega)
        rw [if_neg (by omega), if_neg (by omega), if_pos (by omega)]
        simp only [List.cons_append, List.nil_append, List.length_cons, List.length_nil,
          Bool.and_eq_true, decide_eq_true_eq, isContinuation_iff, ite_le_iff, le_ite_iff,
          UInt8.reduceToNat]
        rw [if_pos (by omega), payload_eq, payload_eq, hread (by omega)]
      · rw [encode_four (by omega)] at h
        obtain ⟨rfl, rfl⟩ := List.cons.inj h
        have hfirst := toNat_toUInt8 (n := 0xF0 + c.toNat / 0x40000) (by omega)
        have hb := toNat_toUInt8 (n := 0x80 + c.toNat / 0x1000 % 0x40) (by omega)
        have hd := toNat_toUInt8 (n := 0x80 + c.toNat / 0x40 % 0x40) (by omega)
        have he := toNat_toUInt8 (n := 0x80 + c.toNat % 0x40) (by omega)
        rw [if_neg (by omega), if_neg (by omega), if_neg (by omega), if_pos (by omega)]
        simp only [List.cons_append, List.nil_append, List.length_cons, List.length_nil,
          Bool.and_eq_true, decide_eq_true_eq, isContinuation_iff, ite_le_iff, le_ite_iff,
          UInt8.reduceToNat]
        rw [if_pos (by omega), payload_eq, payload_eq, payload_eq, hread (by omega)]

/-- What follows a character has no part in reading it. -/
theorem charAt?_append {first : UInt8} {rest : Bytes} {c : Char} {taken : Nat}
    (h : charAt? first rest = some (c, taken)) (more : Bytes) :
    charAt? first (rest ++ more) = some (c, taken) := by
  obtain ⟨hle, hencode⟩ := encode_of_charAt? h
  have hread := charAt?_of_encode hencode (rest.drop taken ++ more)
  rwa [← List.append_assoc, List.take_append_drop, List.length_take, Nat.min_eq_left hle] at hread

/-- A byte that starts no character starts none after more bytes either, if the first of
these continues no character. -/
theorem charAt?_append_of_none {first b : UInt8} {rest : Bytes} (h : charAt? first rest = none)
    (hb : isContinuation b = false) (more : Bytes) :
    charAt? first (rest ++ b :: more) = none := by
  refine Option.eq_none_iff_forall_ne_some.2 ?_
  rintro ⟨c, taken⟩ hread
  obtain ⟨_, hencode⟩ := encode_of_charAt? hread
  by_cases hin : taken ≤ rest.length
  · -- the character would have been read from the bytes before
    rw [List.take_append_of_le_length hin] at hencode
    have hshort := charAt?_of_encode hencode (rest.drop taken)
    rw [List.take_append_drop, h] at hshort
    cases hshort
  · -- the character would take `b` for a continuation
    obtain ⟨n, hn⟩ := Nat.exists_eq_add_of_lt (Nat.not_le.1 hin)
    have hmem : b ∈ (rest ++ b :: more).take taken := by
      rw [List.take_append, show taken - rest.length = n + 1 by omega, List.take_succ_cons]
      exact List.mem_append_right _ List.mem_cons_self
    obtain ⟨_, tail, hshape, _, htail⟩ := exists_encode_eq_cons c
    rw [(List.cons.inj (hencode.symm.trans hshape)).2] at hmem
    rw [htail b hmem] at hb
    cases hb

/-! ## Decoding -/

theorem decode_cons_of_some {first : UInt8} {rest : Bytes} {c : Char} {taken : Nat}
    (h : charAt? first rest = some (c, taken)) :
    decode (first :: rest) = .char c :: decode (rest.drop taken) := by
  rw [decode, h]

theorem decode_cons_of_none {first : UInt8} {rest : Bytes} (h : charAt? first rest = none) :
    decode (first :: rest) = .stray first :: decode rest := by
  rw [decode, h]

theorem decode_encode_append (c : Char) (rest : Bytes) :
    decode (encode c ++ rest) = .char c :: decode rest := by
  obtain ⟨first, more, hencode, _⟩ := exists_encode_eq_cons c
  rw [hencode, List.cons_append, decode_cons_of_some (charAt?_of_encode hencode rest),
    List.drop_left]

theorem decode_chars (chars : List Char) : decode (chars.flatMap encode) = chars.map .char := by
  induction chars with
  | nil => rw [List.flatMap_nil, decode, List.map_nil]
  | cons c chars ih => rw [List.flatMap_cons, decode_encode_append, ih, List.map_cons]

theorem ofScalars_cons (scalar : Scalar) (rest : List Scalar) :
    ofScalars (scalar :: rest) = scalar.raw ++ ofScalars rest := List.flatMap_cons

theorem ofScalars_append (scalars rest : List Scalar) :
    ofScalars (scalars ++ rest) = ofScalars scalars ++ ofScalars rest := List.flatMap_append

/-- Decoding loses no byte and makes none up. -/
theorem ofScalars_decode (text : Bytes) : ofScalars (decode text) = text := by
  induction text using decode.induct with
  | case1 => rw [decode]; rfl
  | case2 first rest c taken hread ih =>
    obtain ⟨_, hencode⟩ := encode_of_charAt? hread
    rw [decode_cons_of_some hread, ofScalars_cons, ih, Scalar.raw, hencode, List.cons_append,
      List.take_append_drop]
  | case3 first rest hread ih =>
    rw [decode_cons_of_none hread, ofScalars_cons, ih]
    rfl

/-- A text may be cut in front of a byte that continues no character. -/
theorem decode_append {b : UInt8} (hb : isContinuation b = false) (text more : Bytes) :
    decode (text ++ b :: more) = decode text ++ decode (b :: more) := by
  induction text using decode.induct with
  | case1 => rw [decode]; rfl
  | case2 first rest c taken hread ih =>
    obtain ⟨hle, _⟩ := encode_of_charAt? hread
    rw [List.cons_append, decode_cons_of_some (charAt?_append hread _),
      List.drop_append_of_le_length hle, ih, decode_cons_of_some hread, List.cons_append]
  | case3 first rest hread ih =>
    rw [List.cons_append, decode_cons_of_none (charAt?_append_of_none hread hb more), ih,
      decode_cons_of_none hread, List.cons_append]

/-- Encoded characters after a text are read back, whatever the text. -/
theorem decode_append_chars (text : Bytes) (chars : List Char) :
    decode (text ++ chars.flatMap encode) = decode text ++ chars.map .char := by
  cases chars with
  | nil => rw [List.flatMap_nil, List.append_nil, List.map_nil, List.append_nil]
  | cons c chars =>
    obtain ⟨first, more, hencode, hfirst, _⟩ := exists_encode_eq_cons c
    rw [← decode_chars, List.flatMap_cons, hencode, List.cons_append, decode_append hfirst]

/-- A text may be cut between two scalars: those before the cut are read as they were. -/
theorem decode_ofScalars_of_append {text : Bytes} {scalars rest : List Scalar}
    (h : decode text = scalars ++ rest) : decode (ofScalars scalars) = scalars := by
  induction text using decode.induct generalizing scalars with
  | case1 =>
    rw [decode] at h
    obtain ⟨rfl, _⟩ := List.append_eq_nil_iff.1 h.symm
    rw [ofScalars, List.flatMap_nil, decode]
  | case2 first text c taken hread ih =>
    rw [decode_cons_of_some hread] at h
    cases scalars with
    | nil => rw [ofScalars, List.flatMap_nil, decode]
    | cons scalar scalars =>
      rw [List.cons_append] at h
      obtain ⟨rfl, htail⟩ := List.cons.inj h
      rw [ofScalars_cons, Scalar.raw, decode_encode_append, ih htail]
  | case3 first text hread ih =>
    rw [decode_cons_of_none hread] at h
    cases scalars with
    | nil => rw [ofScalars, List.flatMap_nil, decode]
    | cons scalar scalars =>
      rw [List.cons_append] at h
      obtain ⟨rfl, htail⟩ := List.cons.inj h
      -- the bytes left are the front of the text, so nothing more is read from them
      have htext : ofScalars scalars ++ ofScalars rest = text := by
        rw [← ofScalars_append, ← htail, ofScalars_decode]
      have hstray : charAt? first (ofScalars scalars) = none := by
        refine Option.eq_none_iff_forall_ne_some.2 ?_
        rintro ⟨c, taken⟩ hsome
        have hlonger := charAt?_append hsome (ofScalars rest)
        rw [htext, hread] at hlonger
        cases hlonger
      rw [ofScalars_cons, Scalar.raw, List.singleton_append, decode_cons_of_none hstray, ih htail]

/-- An ASCII byte is always part of a character. -/
theorem of_stray_mem_decode (text : Bytes) {b : UInt8} (h : Scalar.stray b ∈ decode text) :
    0x80 ≤ b.toNat := by
  induction text using decode.induct with
  | case1 =>
    rw [decode] at h
    cases h
  | case2 a rest c taken hchar ih =>
    rw [decode, hchar] at h
    rcases List.mem_cons.1 h with h | h
    · cases h
    · exact ih h
  | case3 a rest hnone ih =>
    rw [decode, hnone] at h
    rcases List.mem_cons.1 h with h | h
    · cases h
      unfold charAt? at hnone
      split at hnone
      · cases hnone
      · rename_i hge
        exact Nat.le_of_not_lt fun hlt => hge hlt
    · exact ih h

end StackScript.Text
