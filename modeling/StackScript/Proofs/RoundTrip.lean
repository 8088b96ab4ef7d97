import StackScript.Proofs.Numerals
import StackScript.Proofs.Lexical
import StackScript.Session.Run
set_option autoImplicit false

/-!
# Source form reads back

A value in source form is read as one element that is equal to it, wherever its text
stands: the reader sees the same whatever is open around it and whatever follows, as
long as what follows does not go on with the last numeral.  So a list that is
exported to a file comes back when the file is imported.
-/

namespace StackScript

/-! ## Values with a source form -/

mutual

/-- Whether a value has a source form: no part of it is absent, its numbers are finite
and its texts hold no backtick. -/
def Value.writable : Value → Bool
  | .absent => false
  | .number x => x.isFinite
  | .text s => !s.contains backtick
  | .list _ items => Value.writableItems items

/-- Whether all of some values have a source form. -/
def Value.writableItems : List Value → Bool
  | [] => true
  | v :: rest => v.writable && Value.writableItems rest

end

namespace Value

theorem writableItems_cons {v : Value} {rest : List Value} (h : writableItems (v :: rest) = true) :
    v.writable = true ∧ writableItems rest = true := by
  rw [writableItems, Bool.and_eq_true] at h
  exact h

mutual

/-- The source form of such a value is its text. -/
theorem renderOnto_of_writable (v : Value) (h : v.writable = true) (r : Rendering) :
    v.renderOnto r = ⟨v.formatOnto r.text, r.stopped⟩ := by
  cases v with
  | absent => cases h
  | number x =>
    rw [writable] at h
    rw [renderOnto, if_pos h, formatOnto, Rendering.after]
  | text s =>
    have hs : ¬ s.contains StackScript.backtick = true := by
      simpa [writable] using h
    rw [renderOnto, if_neg hs, formatOnto, Rendering.after]
  | list id items =>
    rw [writable] at h
    rw [renderOnto, formatOnto, renderItemsOnto_of_writable items h]
    rfl

theorem renderItemsOnto_of_writable (items : List Value) (h : writableItems items = true)
    (r : Rendering) : renderItemsOnto items r = ⟨formatItemsOnto items r.text, r.stopped⟩ := by
  cases items with
  | nil => rfl
  | cons v rest =>
    obtain ⟨hv, hrest⟩ := writableItems_cons h
    rw [renderItemsOnto, formatItemsOnto, renderRestOnto_of_writable rest hrest,
      renderOnto_of_writable v hv]

theorem renderRestOnto_of_writable (items : List Value) (h : writableItems items = true)
    (r : Rendering) : renderRestOnto items r = ⟨formatRestOnto items r.text, r.stopped⟩ := by
  cases items with
  | nil => rfl
  | cons v rest =>
    obtain ⟨hv, hrest⟩ := writableItems_cons h
    rw [renderRestOnto, formatRestOnto, renderRestOnto_of_writable rest hrest,
      renderOnto_of_writable v hv]
    rfl

end

theorem render_of_writable {v : Value} (h : v.writable = true) : v.render = ⟨v.format, none⟩ :=
  renderOnto_of_writable v h .empty

end Value

/-! ## Numbers are written as one token -/

/-- What may follow a numeral: nothing that it would go on with. -/
def Token.EndsNumeral (rest : Bytes) : Prop := ∀ b, rest.head? = some b → isNumeralByte b = false

theorem Numeral.Positional.isNumeralByte_of_mem {n : Numeral} (h : n.Positional) {b : UInt8}
    (hb : b ∈ n.whole ++ n.fractionText) : isNumeralByte b = true := by
  rcases List.mem_append.1 hb with hwhole | hfraction
  · simp [isNumeralByte, h.whole_digits b hwhole]
  · unfold Numeral.fractionText at hfraction
    cases hf : n.fraction with
    | none => simp [hf] at hfraction
    | some ds =>
      simp only [hf, Option.elim_some, List.mem_cons] at hfraction
      rcases hfraction with rfl | hds
      · rfl
      · simp [isNumeralByte, h.fraction_digits ds hf b hds]

/-- A positional numeral is spelled as the scanner wants it. -/
theorem Numeral.Positional.spelling {n : Numeral} (h : n.Positional) :
    ∃ b s, n.lexeme = b :: s ∧ startsNumber (b :: s) = true ∧ ∀ c ∈ s, isNumeralByte c = true := by
  obtain ⟨d, ds, hwhole⟩ := List.exists_cons_of_ne_nil h.whole_ne_nil
  have hd : isDigit d = true := h.whole_digits d (by simp [hwhole])
  have hbytes : ∀ c ∈ d :: (ds ++ n.fractionText), isNumeralByte c = true := by
    intro c hc
    exact h.isNumeralByte_of_mem (by rw [hwhole]; exact hc)
  rw [Numeral.lexeme_of_no_exponent h.no_exponent, hwhole]
  cases n.neg with
  | true => exact ⟨45, d :: (ds ++ n.fractionText), rfl, hd, hbytes⟩
  | false =>
    refine ⟨d, ds ++ n.fractionText, rfl, ?_, fun c hc => hbytes c (List.mem_cons_of_mem _ hc)⟩
    have hne : d ≠ 45 := by
      rintro rfl
      exact absurd hd (by decide)
    simpa [startsNumber, hne] using hd

theorem Double.plain_spelling {x : Double} (h : x.isFinite = true) :
    ∃ b s, x.plain = b :: s ∧ startsNumber (b :: s) = true ∧ ∀ c ∈ s, isNumeralByte c = true := by
  cases x with
  | nan => cases h
  | infinite neg => cases h
  | finite neg mag =>
    by_cases hmant : mag.mant = 0
    · refine ⟨48, [], ?_, by decide, by simp⟩
      simp only [plain, hmant, if_true]
      decide
    · rw [plain_eq_lexeme neg hmant]
      exact (Decimal.positional_numeral neg mag.shortest).spelling

namespace Token

theorem scan_plain {x : Double} (h : x.isFinite = true) {rest : Bytes} (hrest : EndsNumeral rest) :
    scan (x.plain ++ rest) = .numeral x.plain :: scan rest := by
  obtain ⟨b, s, hplain, hstart, hbytes⟩ := Double.plain_spelling h
  rw [hplain, List.cons_append, scan_cons, first_numeral hstart hbytes hrest]
  rfl

theorem scan_ticked {s : Bytes} (h : backtick ∉ s) (rest : Bytes) :
    scan (Value.ticked s ++ rest) = .quoted s :: scan rest := by
  have hsplit : Value.ticked s ++ rest = backtick :: (s ++ backtick :: rest) := by
    simp [Value.ticked]
  rw [hsplit, scan_cons, first_quoted h]
  rfl

theorem scan_opening (rest : Bytes) : scan (40 :: rest) = .opening :: scan rest :=
  scan_cons 40 rest

theorem scan_closing (rest : Bytes) : scan (41 :: rest) = .closing :: scan rest :=
  scan_cons 41 rest

theorem scan_space (rest : Bytes) : scan (32 :: rest) = scan rest :=
  scan_cons 32 rest

end Token

/-! ## The reader takes a written value for one element -/

namespace Value

/-- The tree `t` is what the reader makes of the text of `v`, whatever is open around
it and whatever follows it. -/
structure ReadsAs (v : Value) (t : Tree) : Prop where
  build : ∀ (line : Nat) (items : List Tree) (outer : List (List Tree)) (rest : Bytes),
    Token.EndsNumeral rest →
      Tree.build line items outer (Token.scan (v.formatOnto rest)) =
        Tree.build line (t :: items) outer (Token.scan rest)
  equal : ∀ next, (t.load next).1.equal v = true

/-- The trees `ts` are what the reader makes of the texts of `vs` with a space before
each. -/
structure ReadAs (vs : List Value) (ts : List Tree) : Prop where
  build : ∀ (line : Nat) (items : List Tree) (outer : List (List Tree)) (rest : Bytes),
    Token.EndsNumeral rest →
      Tree.build line items outer (Token.scan (formatRestOnto vs rest)) =
        Tree.build line (ts.reverse ++ items) outer (Token.scan rest)
  equal : ∀ next, equalItems (Tree.loadAll next ts).1 vs = true

theorem endsNumeral_formatRestOnto (vs : List Value) {rest : Bytes}
    (h : Token.EndsNumeral rest) : Token.EndsNumeral (formatRestOnto vs rest) := by
  cases vs with
  | nil => exact h
  | cons v vs =>
    intro b hb
    cases hb
    decide

theorem readsAs_number {x : Double} (h : x.isFinite = true) :
    ∃ t, (Value.number x).ReadsAs t := by
  obtain ⟨y, hread, heq⟩ := Double.exists_ofBytes?_plain h
  refine ⟨.number y, ?_, ?_⟩
  · intro line items outer rest hrest
    rw [formatOnto, Token.scan_plain h hrest, Tree.build, Tree.ofNumeral, hread]
  · intro next
    rw [Tree.load, equal]
    exact heq

theorem readsAs_text {s : Bytes} (h : backtick ∉ s) : (Value.text s).ReadsAs (.text s) := by
  refine ⟨?_, ?_⟩
  · intro line items outer rest _
    rw [formatOnto, Token.scan_ticked h, Tree.build]
  · intro next
    rw [Tree.load, equal]
    exact beq_self_eq_true s

theorem readAs_nil : ReadAs [] [] := by
  refine ⟨fun line items outer rest _ => rfl, ?_⟩
  intro next
  rw [Tree.loadAll, equalItems]

theorem ReadsAs.readAs_cons {v : Value} {t : Tree} {vs : List Value} {ts : List Tree}
    (hv : v.ReadsAs t) (hvs : ReadAs vs ts) : ReadAs (v :: vs) (t :: ts) := by
  refine ⟨?_, ?_⟩
  · intro line items outer rest hrest
    rw [formatRestOnto, Token.scan_space,
      hv.build line items outer _ (endsNumeral_formatRestOnto vs hrest),
      hvs.build line (t :: items) outer rest hrest]
    simp
  · intro next
    rw [Tree.loadAll, equalItems, Bool.and_eq_true]
    exact ⟨hv.equal next, hvs.equal _⟩

/-- The items of a list have no space before the first of them. -/
theorem scan_formatItemsOnto (vs : List Value) (rest : Bytes) :
    Token.scan (formatItemsOnto vs rest) = Token.scan (formatRestOnto vs rest) := by
  cases vs with
  | nil => rfl
  | cons v vs => rw [formatItemsOnto, formatRestOnto, Token.scan_space]

theorem ReadAs.readsAs_list {vs : List Value} {ts : List Tree} (h : ReadAs vs ts) (id : ListId) :
    (Value.list id vs).ReadsAs (.list ts) := by
  have hclosing : ∀ rest, Token.EndsNumeral (41 :: rest) := by
    intro rest b hb
    cases hb
    decide
  refine ⟨?_, ?_⟩
  · intro line items outer rest _
    rw [formatOnto, Token.scan_opening, Tree.build, scan_formatItemsOnto,
      h.build line [] (items :: outer) _ (hclosing rest), Token.scan_closing, Tree.build,
      List.append_nil, List.reverse_reverse]
  · intro next
    rw [Tree.load, Value.equal]
    exact h.equal (next + 1)

mutual

/-- Every value with a source form is read as something equal to it. -/
theorem exists_readsAs (v : Value) (h : v.writable = true) : ∃ t, v.ReadsAs t := by
  cases v with
  | absent => cases h
  | number x =>
    rw [writable] at h
    exact readsAs_number h
  | text s =>
    have hs : backtick ∉ s := by
      simpa [writable] using h
    exact ⟨_, readsAs_text hs⟩
  | list id items =>
    rw [writable] at h
    obtain ⟨ts, hts⟩ := exists_readAs items h
    exact ⟨_, hts.readsAs_list id⟩

theorem exists_readAs (vs : List Value) (h : writableItems vs = true) : ∃ ts, ReadAs vs ts := by
  cases vs with
  | nil => exact ⟨_, readAs_nil⟩
  | cons v vs =>
    obtain ⟨hv, hvs⟩ := writableItems_cons h
    obtain ⟨t, ht⟩ := exists_readsAs v hv
    obtain ⟨ts, hts⟩ := exists_readAs vs hvs
    exact ⟨_, ht.readAs_cons hts⟩

end

/-- Read on its own, the text of a value is one element; no line is counted, so a
reader that has begun stays as it was. -/
theorem ReadsAs.parse_format {v : Value} {t : Tree} (h : v.ReadsAs t) (r : Reader) :
    r.parse v.format = (⟨r.firstLine⟩, .ok [t]) := by
  have hread : Tree.read r.firstLine v.format = ⟨r.firstLine, .ok [t]⟩ := by
    unfold Tree.read format
    rw [h.build r.firstLine [] [] [] (by intro b hb; cases hb), Token.scan_nil]
    rfl
  unfold Reader.parse
  rw [hread]

end Value

/-! ## Lists survive export and import -/

/-- Files from which a text that was written can be read. -/
def FileSystem.ReadsBack (W : Type) [FileSystem W] : Prop :=
  ∀ (w : W) (path text : Bytes), (FileSystem.write w path text).access = .ok () →
    (FileSystem.read (FileSystem.write w path text).world path).access = .ok text

theorem MemoryFiles.readsBack : FileSystem.ReadsBack MemoryFiles := by
  intro w path text hwrite
  change (w.write path text).access = .ok () at hwrite
  change ((w.write path text).world.read path).access = .ok text
  unfold MemoryFiles.write at hwrite ⊢
  cases hcrash : w.crash with
  | some message =>
    rw [hcrash] at hwrite
    cases hwrite
  | none =>
    simp only [hcrash] at hwrite ⊢
    split at hwrite
    · cases hwrite
    · rename_i hwritable
      rw [if_neg hwritable]
      simp [MemoryFiles.read, MemoryFiles.content, Table.find?_bind_self]

/-- Every instruction is reached by its name. -/
theorem step_name {W : Type} [FileSystem W] (run : Action.Runner W) (rounds : Nat)
    (i : Instruction) : step run rounds (.text i.name) = (do
      Action.note .trace fun _ => ascii "op " ++ i.name
      i.perform run rounds) := by
  have hname : i.name.head?.any startsSymbol = false ∧ startsNumber i.name = false ∧
      Instruction.ofName? i.name = some i := by
    cases i <;> decide
  obtain ⟨hsymbol, hnumber, hcode⟩ := hname
  simp [step, hsymbol, hnumber, hcode]

namespace Action

variable {W α β : Type}

/-- The action ends, and with a result and a session as said. -/
def Yields (x : Action W α) (s : Session W) (P : α → Session W → Prop) : Prop :=
  ∃ a t, x s = .ok a t ∧ P a t

theorem Yields.bind {x : Action W α} {f : α → Action W β} {s : Session W}
    {P : α → Session W → Prop} {Q : β → Session W → Prop} (hx : x.Yields s P)
    (hf : ∀ a t, P a t → (f a).Yields t Q) : (x >>= f).Yields s Q := by
  obtain ⟨a, t, hok, hP⟩ := hx
  obtain ⟨b, u, hnext, hQ⟩ := hf a t hP
  exact ⟨b, u, by rw [bind_of_ok hok, hnext], hQ⟩

theorem yields_note (level : Level) (message : Unit → Bytes) (s : Session W) :
    (note level message).Yields s fun _ t => t.stack = s.stack ∧ t.world = s.world := by
  obtain ⟨journal, hnote⟩ := s.exists_noteAt level message
  refine ⟨(), s.noteAt level message, rfl, ?_⟩
  rw [hnote]
  exact ⟨rfl, rfl⟩

theorem yields_take {from_ : Stack → Except Cause (α × Stack)} {shown : α → Bytes}
    {s : Session W} {a : α} {stack : Stack} (h : from_ s.stack = .ok (a, stack)) :
    (take from_ shown).Yields s fun b t => b = a ∧ t.stack = stack ∧ t.world = s.world := by
  obtain ⟨journal, hnote⟩ := ({ s with stack := stack } : Session W).exists_noteAt .debug
    fun _ => ascii "pop " ++ shown a
  refine ⟨a, _, take_of_ok h, ?_⟩
  rw [hnote]
  exact ⟨rfl, rfl, rfl⟩

theorem yields_push (v : Value) (s : Session W) :
    (push v).Yields s fun _ t => t.stack = s.stack.push v ∧ t.world = s.world := by
  refine (yields_note _ _ s).bind ?_
  rintro _ t ⟨hstack, hworld⟩
  refine ⟨(), _, rfl, ?_, hworld⟩
  rw [← hstack]

theorem yields_pushList (items : List Value) (s : Session W) :
    (pushList items).Yields s fun _ t => ∃ id, t.stack = s.stack.push (.list id items) := by
  obtain ⟨_, t, hpush, hstack, _⟩ := yields_push (.list (.made s.nextList) items)
    { s with nextList := s.nextList + 1 }
  exact ⟨(), t, hpush, _, hstack⟩

theorem yields_access {reply : Reply W α} {a : α} (h : reply.access = .ok a)
    (failure : Bytes → Cause) (s : Session W) :
    (access reply failure).Yields s fun b t => b = a ∧ t.stack = s.stack ∧
      t.world = reply.world := by
  obtain ⟨interrupt, journal, heffect⟩ :=
    ({ s with world := reply.world } : Session W).exists_undergo reply.effect
  refine ⟨a, s.receive reply, access_of_ok h failure s, ?_⟩
  rw [Session.receive, heffect]
  exact ⟨rfl, rfl, rfl⟩

theorem yields_readSource {text : Bytes} {trees : List Tree}
    (h : (Reader.start.parse text).2 = .ok trees) (s : Session W) :
    (readSource text).Yields s fun r t =>
      r = .ok (Tree.loadAll s.nextList trees).1 ∧ t.stack = s.stack := by
  obtain ⟨journal, hparse⟩ := s.exists_parse text
  refine ⟨(s.parse text).2, (s.parse text).1, rfl, ?_, ?_⟩
  · rw [s.parse_result, h]
    rfl
  · rw [hparse]

variable [FileSystem W]

theorem yields_step (run : Runner W) (rounds : Nat) (i : Instruction) {s : Session W}
    {P : Unit → Session W → Prop} (h : ∀ t : Session W, t.stack = s.stack → t.world = s.world →
      (i.perform run rounds).Yields t P) : (step run rounds (.text i.name)).Yields s P := by
  rw [step_name]
  refine (yields_note _ _ s).bind ?_
  rintro _ t ⟨hstack, hworld⟩
  exact h t hstack hworld

/-- A list with a source form is written to a path that can be written. -/
theorem yields_exportOperand {s : Session W} {path text : Bytes} {id : ListId}
    {items st : List Value} (hstack : s.stack.values = .text path :: .list id items :: st)
    (hrender : (Value.list id items).render = ⟨text, none⟩)
    (hwrite : (FileSystem.write s.world path text).access = .ok ()) :
    exportOperand.Yields s fun _ t =>
      t.stack.values = st ∧ t.world = (FileSystem.write s.world path text).world := by
  have hpath : s.stack.popText = .ok (path, ⟨.list id items :: st⟩) := by
    rw [Stack.popText, hstack]
  refine (yields_take hpath).bind ?_
  rintro name s₁ ⟨hname, hstack₁, hworld₁⟩
  subst name
  have hlist : s₁.stack.popList = .ok (.list id items, ⟨st⟩) := by
    rw [hstack₁]
    rfl
  refine (yields_take hlist).bind ?_
  rintro list s₂ ⟨hlist, hstack₂, hworld₂⟩
  subst list
  rw [hrender]
  have hwrite₂ : (FileSystem.write s₂.world path text).access = .ok () := by
    rw [hworld₂, hworld₁]
    exact hwrite
  have hsave : (saveText path text).Yields s₂ fun _ t => t.stack = s₂.stack ∧
      t.world = (FileSystem.write s₂.world path text).world := by
    obtain ⟨_, t, hok, _, hkept⟩ := yields_access hwrite₂ (.writeFailed path) s₂
    exact ⟨(), t, hok, hkept⟩
  refine hsave.bind ?_
  rintro _ s₃ ⟨hstack₃, hworld₃⟩
  obtain ⟨_, t, hok, hstack₄, hworld₄⟩ :=
    yields_note .info (fun _ => ascii "exported " ++ path) s₃
  refine ⟨(), t, hok, ?_, ?_⟩
  · rw [hstack₄, hstack₃, hstack₂]
  · rw [hworld₄, hworld₃, hworld₂, hworld₁]

/-- What a file holds is put as one list. -/
theorem yields_importOperand {s : Session W} {path text : Bytes} {st : List Value}
    {trees : List Tree} (hstack : s.stack.values = .text path :: st)
    (hread : (FileSystem.read s.world path).access = .ok text)
    (hparse : (Reader.start.parse text).2 = .ok trees) :
    importOperand.Yields s fun _ t => ∃ id next,
      t.stack.values = .list id (Tree.loadAll next trees).1 :: st := by
  have hpath : s.stack.popText = .ok (path, ⟨st⟩) := by
    rw [Stack.popText, hstack]
  refine (yields_take hpath).bind ?_
  rintro name s₁ ⟨hname, hstack₁, hworld₁⟩
  subst name
  have hread₁ : (FileSystem.read s₁.world path).access = .ok text := by
    rw [hworld₁]
    exact hread
  have hload : (loadText path).Yields s₁ fun src t => src = text ∧ t.stack = s₁.stack := by
    obtain ⟨src, t, hok, hsrc, hkept, _⟩ := yields_access hread₁ (.readFailed path) s₁
    exact ⟨src, t, hok, hsrc, hkept⟩
  refine hload.bind ?_
  rintro src s₂ ⟨hsrc, hstack₂⟩
  subst src
  refine (yields_readSource hparse s₂).bind ?_
  rintro _ s₃ ⟨rfl, hstack₃⟩
  refine (yields_note _ _ s₃).bind ?_
  rintro _ s₄ ⟨hstack₄, _⟩
  obtain ⟨_, t, hok, id, hlist⟩ :=
    yields_pushList (Tree.loadAll s₂.nextList trees).1 s₄
  refine ⟨(), t, hok, id, s₂.nextList, ?_⟩
  rw [hlist, hstack₄, hstack₃, hstack₂, hstack₁]
  rfl

end Action

/-! ## Writing and reading are inverse -/

/-- A reader that has read nothing yet begins on the first line. -/
theorem Reader.mk_firstLine (r : Reader) :
    (⟨r.firstLine⟩ : Reader) = if r.line = 0 then Reader.start else r := by
  obtain ⟨line⟩ := r
  cases line with
  | zero => rfl
  | succ line =>
    have hmax : max (line + 1) 1 = line + 1 := by omega
    rw [Reader.firstLine, hmax]
    rfl

/-- A value with a source form is read from it, as one element and by a reader on any
line, and a reader that has begun stays on its line.  So a list that is exported is
found again by importing the same path, whenever that is done. -/
theorem Value.parse_render {W : Type} [FileSystem W] (hfiles : FileSystem.ReadsBack W)
    {v : Value} (hv : v.writable = true) :
    v.render.stopped = none ∧
      (∀ r : Reader, ∃ t,
        r.parse v.render.text = (if r.line = 0 then Reader.start else r, .ok [t]) ∧
          ∀ next, (t.load next).1.equal v = true) ∧
      ∀ (run : Action.Runner W) (rounds : Nat) (s : Session W) (path : Bytes) (st : List Value),
        v.kind = .list → s.stack.values = .text path :: v :: st →
        (FileSystem.write s.world path v.render.text).access = .ok () →
        ∃ t, step run rounds (.text (ascii ".export")) s = .ok () t ∧ t.stack.values = st ∧
          ∀ (u : Session W) (below : List Value), u.world = t.world →
            u.stack.values = .text path :: below →
            ∃ u' id x, step run rounds (.text (ascii ".import")) u = .ok () u' ∧
              u'.stack.values = .list id [x] :: below ∧ x.equal v = true := by
  obtain ⟨tree, htree⟩ := exists_readsAs v hv
  have hrender := render_of_writable hv
  refine ⟨by rw [hrender], ?_, ?_⟩
  · intro r
    refine ⟨tree, ?_, htree.equal⟩
    rw [hrender, htree.parse_format r, r.mk_firstLine]
  · intro run rounds s path st hkind hstack hwrite
    cases v with
    | absent => cases hkind
    | number x => cases hkind
    | text s => cases hkind
    | list id items =>
      rw [hrender] at hwrite
      have hexport : (step run rounds (.text (ascii ".export"))).Yields s fun _ t =>
          t.stack.values = st ∧
            t.world = (FileSystem.write s.world path (format (.list id items))).world := by
        refine Action.yields_step run rounds .exportList ?_
        intro s₁ hstack₁ hworld₁
        rw [← hworld₁] at hwrite ⊢
        exact Action.yields_exportOperand (by rw [hstack₁, hstack]) hrender hwrite
      obtain ⟨_, t, hok, hbelow, hworld⟩ := hexport
      refine ⟨t, hok, hbelow, ?_⟩
      intro u below hsame hpath
      have hread : (FileSystem.read u.world path).access =
          .ok (format (.list id items)) := by
        rw [hsame, hworld]
        exact hfiles s.world path _ hwrite
      have hparse : (Reader.start.parse (format (.list id items))).2 = .ok [tree] := by
        rw [htree.parse_format]
      have himport : (step run rounds (.text (ascii ".import"))).Yields u fun _ t =>
          ∃ id next, t.stack.values = .list id (Tree.loadAll next [tree]).1 :: below := by
        refine Action.yields_step run rounds .importList ?_
        intro u₁ hstack₁ hworld₁
        rw [← hworld₁] at hread
        exact Action.yields_importOperand (by rw [hstack₁, hpath]) hread hparse
      obtain ⟨_, u', hok', id', next, hlist⟩ := himport
      exact ⟨u', id', (tree.load next).1, hok', hlist, htree.equal next⟩

/-- A list of what could be taken for something else in source form: the negative
number next to zero, a text of delimiters, and a list inside. -/
def Value.delicate : Value :=
  .list (.made 3) [.number (.ofRatio true 1 1), .text (ascii ")\n# (-1"), .list .bare [.text []]]

theorem Value.parse_render_delicate :
    FileSystem.ReadsBack MemoryFiles ∧ delicate.writable = true ∧
      (∃ t, (Reader.mk 5).parse delicate.render.text = (⟨5⟩, .ok [t]) ∧
        ∀ next, (t.load next).1.equal delicate = true) ∧
      ∃ t : Session MemoryFiles, ∃ u' id x,
        step (fun _ => pure ()) 0 (.text (ascii ".export"))
          ((Session.overNoFiles.pushValue delicate).pushValue (.text (ascii "f"))) =
            .ok () t ∧
        step (fun _ => pure ()) 0 (.text (ascii ".import")) (t.pushValue (.text (ascii "f"))) =
          .ok () u' ∧
        u'.stack.values = [.list id [x]] ∧ x.equal delicate = true := by
  have hwritable : delicate.writable = true := by decide
  obtain ⟨_, hread, hfile⟩ := parse_render MemoryFiles.readsBack hwritable
  obtain ⟨t, hexport, hstack, himport⟩ := hfile (fun _ => pure ()) 0
    ((Session.overNoFiles.pushValue delicate).pushValue (.text (ascii "f")))
    (ascii "f") [] rfl rfl rfl
  obtain ⟨u', id, x, hok, hlist, hequal⟩ :=
    himport (t.pushValue (.text (ascii "f"))) [] rfl (congrArg (Value.text (ascii "f") :: ·) hstack)
  exact ⟨MemoryFiles.readsBack, hwritable, hread ⟨5⟩, t, u', id, x, hexport, hok, hlist, hequal⟩

/-- A reader that has read nothing yet does not stay on its line. -/
theorem Reader.parse_render_from_zero :
    (Value.text []).writable = true ∧
      ((Reader.mk 0).parse (Value.text []).render.text).1 = ⟨1⟩ ∧
      ((Reader.mk 0).parse (Value.text []).render.text).1 ≠ ⟨0⟩ := by
  have hwritable : (Value.text []).writable = true := rfl
  have hparse := (Value.readsAs_text (s := []) (by simp)).parse_format ⟨0⟩
  rw [Value.render_of_writable hwritable, hparse]
  decide

end StackScript
