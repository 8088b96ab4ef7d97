import StackScript.Proofs.Grammar
import StackScript.Proofs.SourceForm
set_option autoImplicit false

/-!
# Programs can be written

Whatever a source is read as can be written again.  No token holds a backtick: texts in
backticks end at one, and no other token goes on with one.  A numeral that is not a number in
range is kept as a text, so every number is finite, and so are the numbers of lines.

The tree of a source looks like its tokens written out, so what holds of all tokens holds of
all numbers and texts in the tree, at any depth.
-/

namespace StackScript

/-! ## Tokens hold no backtick -/

namespace Token

/-- The bytes that a token stands for, if it stands for a number or a text. -/
def content : Token → Bytes
  | .newline => []
  | .opening => []
  | .closing => []
  | .quoted s => s
  | .numeral s => s
  | .symbol s => s
  | .dotted s => s
  | .operator s => s

/-- A run of bytes of a class without the backtick, after another byte. -/
theorem backtick_not_mem_cons {p : UInt8 → Bool} {b : UInt8} {s : Bytes} (hb : b ≠ backtick)
    (hp : p backtick = false) (hs : ∀ c ∈ s, p c = true) : backtick ∉ b :: s := by
  rw [List.mem_cons, not_or]
  refine ⟨hb.symm, ?_⟩
  intro hmem
  rw [hs backtick hmem] at hp
  cases hp

theorem ne_backtick_of_isOrdinary {b : UInt8} (h : isOrdinary b = true) : b ≠ backtick := by
  rintro rfl
  exact absurd h (by decide)

theorem Spelling.backtick_not_mem {lexeme : Bytes} {t : Token} (h : Spelling lexeme (some t)) :
    backtick ∉ t.content := by
  cases h with
  | newline => exact List.not_mem_nil
  | opening => exact List.not_mem_nil
  | closing => exact List.not_mem_nil
  | quoted hs => exact hs
  | unclosed hs => exact hs
  | numeral hb hs =>
    exact backtick_not_mem_cons (ne_backtick_of_isOrdinary (isOrdinary_of_startsNumber hb))
      (by decide) hs
  | symbol hb hs =>
    exact backtick_not_mem_cons (ne_backtick_of_isOrdinary (startsSymbol_class hb).1)
      (by decide) hs
  | dotted hs => exact backtick_not_mem_cons (by decide) (by decide) hs
  | operator hb hs =>
    exact backtick_not_mem_cons (ne_backtick_of_isOrdinary (startsOperator_class hb).1)
      (by decide) hs

theorem Lexes.backtick_not_mem {src : Bytes} {ts : List Token} (h : Lexes src ts) :
    ∀ t ∈ ts, backtick ∉ t.content := by
  induction h with
  | nil => exact fun t ht => absurd ht List.not_mem_nil
  | @cons text lexeme rest t ts head tail ih =>
    intro u hu
    rcases List.mem_append.1 hu with hfirst | hrest
    · rw [Option.mem_toList] at hfirst
      subst hfirst
      exact head.spelled.backtick_not_mem
    · exact ih u hrest

end Token

/-! ## Numbers read are finite -/

namespace Double

theorem isFinite_of_ofBytes? {s : Bytes} {x : Double} (h : ofBytes? s = some x) :
    x.isFinite = true := by
  unfold ofBytes? at h
  split at h
  · split at h
    · rename_i hcheck
      cases h
      exact (Bool.and_eq_true_iff.1 hcheck).2
    · cases h
  · cases h

/-- Natural numbers are finite as numbers as long as they have at most 1023 binary digits. -/
theorem isFinite_ofNat {n : Nat} (h : n < 2 ^ 1023) : (ofNat n).isFinite = true := by
  have hunits : n * unit < 2 ^ 2097 := by
    have hunit : (2 : Nat) ^ 2097 = 2 ^ 1023 * unit := by
      rw [unit, ← Nat.pow_add]
    rw [hunit]
    exact Nat.mul_lt_mul_of_pos_right h unit_pos
  have hlog : ∀ m k : Nat, 0 < k → m < 2 ^ k → m.log2 < k := by
    intro m k hk hm
    by_cases hzero : m = 0
    · rw [hzero, Nat.log2_zero]
      exact hk
    · exact (Nat.log2_lt hzero).2 hm
  have hshift : StackScript.Magnitude.shiftFor (n * unit) ≤ 2044 := by
    have hbits := hlog _ 2097 (by decide) hunits
    unfold StackScript.Magnitude.shiftFor
    omega
  unfold ofNat ofRatio StackScript.Magnitude.round
  simp only [Nat.div_one]
  split
  · rw [dif_pos (by omega)]
    rfl
  · rw [dif_pos (by omega)]
    rfl

end Double

/-! ## Trees with a source form -/

/-- Whether what a mark stands for has a source form. -/
def Mark.writable : Mark → Bool
  | .opening => true
  | .closing => true
  | .number x => x.isFinite
  | .text s => !s.contains backtick

theorem Mark.writable_text {s : Bytes} (h : backtick ∉ s) : (Mark.text s).writable = true := by
  simp [writable, h]

theorem Mark.writable_ofNumeral {s : Bytes} (h : backtick ∉ s) : (ofNumeral s).writable = true := by
  unfold ofNumeral
  split
  · rename_i x hread
    exact Double.isFinite_of_ofBytes? hread
  · exact writable_text h

/-- Tokens without backticks stand for what has a source form, if the numbers of the lines that
they reach are finite. -/
theorem Token.writable_marks {ts : List Token} (hts : ∀ t ∈ ts, backtick ∉ t.content) :
    ∀ {line : Nat}, line + newlines ts < 2 ^ 1023 → ∀ m ∈ marks line ts, m.writable = true := by
  induction ts with
  | nil => exact fun _ m hm => absurd hm List.not_mem_nil
  | cons t ts ih =>
    intro line hline
    obtain ⟨ht, hrest⟩ := List.forall_mem_cons.1 hts
    by_cases hnewline : t = .newline
    · subst hnewline
      rw [newlines_newline] at hline
      have hnumber : (Mark.number (Double.ofNat (line + 1))).writable = true :=
        Double.isFinite_ofNat (by omega)
      have hmark : (Mark.text (ascii "@@")).writable = true := by decide
      exact List.forall_mem_cons.2 ⟨hnumber, List.forall_mem_cons.2 ⟨hmark, ih hrest (by omega)⟩⟩
    · rw [newlines_of_ne hnewline] at hline
      have hmarks := ih hrest hline
      cases t with
      | newline => exact absurd rfl hnewline
      | opening => exact List.forall_mem_cons.2 ⟨rfl, hmarks⟩
      | closing => exact List.forall_mem_cons.2 ⟨rfl, hmarks⟩
      | numeral s => exact List.forall_mem_cons.2 ⟨Mark.writable_ofNumeral ht, hmarks⟩
      | quoted s => exact List.forall_mem_cons.2 ⟨Mark.writable_text ht, hmarks⟩
      | symbol s => exact List.forall_mem_cons.2 ⟨Mark.writable_text ht, hmarks⟩
      | dotted s => exact List.forall_mem_cons.2 ⟨Mark.writable_text ht, hmarks⟩
      | operator s => exact List.forall_mem_cons.2 ⟨Mark.writable_text ht, hmarks⟩

namespace Tree

mutual

/-- A tree has a source form if all does that it looks like written out. -/
theorem writable_load (t : Tree) (h : ∀ m ∈ t.flatten, m.writable = true) (next : Nat) :
    (t.load next).1.writable = true := by
  cases t with
  | number x => exact h _ List.mem_cons_self
  | text s => exact h _ List.mem_cons_self
  | list items =>
    refine writableItems_loadAll items ?_ (next + 1)
    intro m hm
    exact h m (List.mem_cons_of_mem _ (List.mem_append_left _ hm))

theorem writableItems_loadAll (trees : List Tree) (h : ∀ m ∈ flattenAll trees, m.writable = true)
    (next : Nat) : Value.writableItems (loadAll next trees).1 = true := by
  cases trees with
  | nil => rfl
  | cons t rest =>
    rw [flattenAll, List.forall_mem_append] at h
    rw [loadAll, Value.writableItems, Bool.and_eq_true]
    exact ⟨writable_load t h.1 next, writableItems_loadAll rest h.2 _⟩

end

end Tree

/-! ## Programs come back -/

namespace Reader

/-- What a source is read as has a source form, if the number of its last line is finite. -/
theorem writableItems_parsed {r : Reader} {src : Bytes} {trees : List Tree}
    (hparse : (r.parse src).2 = .ok trees) (hline : (r.parse src).1.line < 2 ^ 1023) (next : Nat) :
    Value.writableItems (Tree.loadAll next trees).1 = true := by
  obtain ⟨hbalanced, hflat⟩ := Tree.build_eq_ok_iff.1 hparse
  obtain ⟨_, hbuild, _⟩ := Tree.build_of_balanced hbalanced r.firstLine
  have hlines : r.firstLine + Token.newlines (Token.scan src) < 2 ^ 1023 := by
    unfold parse Tree.read at hline
    rw [hbuild] at hline
    exact hline
  refine Tree.writableItems_loadAll trees ?_ next
  rw [hflat]
  exact Token.writable_marks (Token.lexes_scan src).backtick_not_mem hlines

/-- The list of what a source is read as can be written, whatever its identity.  Every reader
takes what is written for one list, the items of which are equal to those read before, pair by
pair, and that list is written in the same way again.  Lines are counted without bound here;
below `2 ^ 1023`, where every counter of 64 bits stays, their numbers are finite. -/
theorem parsed_reads_back {r : Reader} {src : Bytes} {trees : List Tree}
    (hparse : (r.parse src).2 = .ok trees) (hline : (r.parse src).1.line < 2 ^ 1023)
    (id : ListId) (next : Nat) :
    ∃ text, (Value.list id (Tree.loadAll next trees).1).render = ⟨text, none⟩ ∧
      ∀ (again : Reader) (following : Nat), ∃ tree id' items,
        (again.parse text).2 = .ok [tree] ∧ (tree.load following).1 = .list id' items ∧
          items.length = (Tree.loadAll next trees).1.length ∧
          (∀ p ∈ items.zip (Tree.loadAll next trees).1, p.1.equal p.2 = true) ∧
          (Value.list id' items).render = ⟨text, none⟩ := by
  have hitems := writableItems_parsed hparse hline next
  have hlist : (Value.list id (Tree.loadAll next trees).1).writable = true := hitems
  obtain ⟨ts, hts⟩ := Value.exists_readAs _ hitems
  have hrender := Value.render_of_writable hlist
  refine ⟨_, hrender, ?_⟩
  intro again following
  have hequal := (hts.readsAs_list id).equal following
  obtain ⟨hlength, hpairs⟩ := Value.equalItems_iff_pairs.1 hequal
  refine ⟨.list ts, _, _, ?_, rfl, hlength, hpairs, ?_⟩
  · rw [(hts.readsAs_list id).parse_format again]
  · rw [← hrender]
    exact Value.render_of_equal hequal hlist

/-- A source with a zero that has a sign, a newline in a text and one in a list, a numeral with
two points, and a text that no backtick closes. -/
def roughSource : Bytes := ascii "(-0 `a\nb`\n) 1.2.3 -x `("

theorem parsed_reads_back_roughSource :
    ∃ trees text, (Reader.start.parse roughSource).2 = .ok trees ∧
      (Reader.start.parse roughSource).1.line = 2 ∧
      text = ascii "((0 `a\nb` 2 `@@`) `1.2.3` `-` `x` `(`)" ∧
      (Value.list (.made 0) (Tree.loadAll 1 trees).1).render = ⟨text, none⟩ ∧
      ∃ tree id items, (Reader.start.parse text).2 = .ok [tree] ∧
        (tree.load 9).1 = .list id items ∧
        items.length = (Tree.loadAll 1 trees).1.length ∧
        (∀ p ∈ items.zip (Tree.loadAll 1 trees).1, p.1.equal p.2 = true) ∧
        (Value.list id items).render = ⟨text, none⟩ := by
  have hline : (Reader.start.parse roughSource).1.line = 2 := by decide +kernel
  have hwritten : ((Reader.start.parse roughSource).2.toOption.map fun trees =>
      (Value.list (.made 0) (Tree.loadAll 1 trees).1).render.text) =
        some (ascii "((0 `a\nb` 2 `@@`) `1.2.3` `-` `x` `(`)") := by decide +kernel
  cases hparse : (Reader.start.parse roughSource).2 with
  | error e =>
    rw [hparse] at hwritten
    cases hwritten
  | ok trees =>
    have hfew : ∀ k, 2 < k → 2 < 2 ^ k := fun k hk => Nat.lt_trans hk Nat.lt_two_pow_self
    have hlast : (Reader.start.parse roughSource).1.line < 2 ^ 1023 := by
      rw [hline]
      exact hfew 1023 (by decide)
    obtain ⟨text, hrender, hread⟩ := parsed_reads_back hparse hlast (.made 0) 1
    rw [hparse] at hwritten
    have htext := (congrArg Value.Rendering.text hrender).symm.trans (Option.some.inj hwritten)
    exact ⟨trees, text, rfl, hline, htext, hrender, hread .start 9⟩

end Reader

end StackScript
