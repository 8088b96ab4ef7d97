import StackScript.Proofs.StackFrame
set_option autoImplicit false

/-!
# Names that a program does not know of

A program sees of the symbol table only the names that it looks up.  A run that looks up
no name in vain goes the same way when more names are bound at its start: it leaves them
bound as they are, but for those that it binds itself, and everything else ends as it did.
Only a dump, which shows the whole table, can tell the difference.
-/

namespace StackScript

/-! ## Tables over tables -/

theorem Entries.Sorted.nodup {α : Type} {entries : Entries α} (h : entries.Sorted) :
    entries.Nodup := by
  refine h.imp ?_
  rintro a _ hlt rfl
  exact List.lt_irrefl a.1 hlt

/-- In a sorted row what stands with a name is what is found under it. -/
theorem Entries.Sorted.find?_eq_some_iff {α : Type} {entries : Entries α} (h : entries.Sorted)
    {e : Bytes × α} : entries.find? (fun a => a.1 == e.1) = some e ↔ e ∈ entries := by
  refine ⟨List.mem_of_find?_eq_some, ?_⟩
  intro hmem
  induction entries with
  | nil => cases hmem
  | cons a rest ih =>
    obtain ⟨hfirst, hrest⟩ := List.pairwise_cons.1 h
    rcases List.mem_cons.1 hmem with rfl | hmem
    · simp only [List.find?_cons, beq_self_eq_true]
    · have hne : (a.1 == e.1) = false := by
        refine beq_false_of_ne ?_
        intro heq
        have hlt := hfirst e hmem
        rw [heq] at hlt
        exact List.lt_irrefl e.1 hlt
      simp only [List.find?_cons, hne]
      exact ih hrest hmem

namespace Table

variable {α : Type}

theorem mem_entries_iff (t : Table α) {name : Bytes} {x : α} :
    (name, x) ∈ t.entries ↔ t.find? name = some x := by
  rw [← t.sorted.find?_eq_some_iff]
  unfold find?
  cases hfind : t.entries.find? fun e => e.1 == name with
  | none => simp
  | some e =>
    have hname := List.find?_some hfind
    rw [← eq_of_beq hname, Option.map_some, Option.some.injEq, Option.some.injEq]
    exact ⟨fun heq => congrArg Prod.snd heq, fun heq => heq ▸ rfl⟩

/-- A table is known by what its names are bound to. -/
theorem ext_find? {t u : Table α} (h : ∀ name, t.find? name = u.find? name) : t = u := by
  have hmem : ∀ e : Bytes × α, e ∈ t.entries ↔ e ∈ u.entries := by
    rintro ⟨name, x⟩
    rw [mem_entries_iff, mem_entries_iff, h]
  have hperm := (List.perm_ext_iff_of_nodup t.sorted.nodup u.sorted.nodup).2 hmem
  have hentries := hperm.eq_of_pairwise
    (fun a b _ _ hab hba => absurd (List.lt_trans hab hba) (List.lt_irrefl a.1)) t.sorted u.sorted
  cases t
  cases u
  congr

/-- The table with the bindings of another put over its own. -/
def overriddenBy (t u : Table α) : Table α := u.entries.foldl (fun t e => t.bind e.1 e.2) t

theorem find?_foldl_bind {entries : Entries α} (h : entries.Sorted) (t : Table α) (name : Bytes) :
    (entries.foldl (fun t e => t.bind e.1 e.2) t).find? name =
      ((entries.find? fun e => e.1 == name).map (·.2)).or (t.find? name) := by
  induction entries generalizing t with
  | nil => rfl
  | cons e rest ih =>
    obtain ⟨hfirst, hrest⟩ := List.pairwise_cons.1 h
    rw [List.foldl_cons, ih hrest]
    by_cases hname : e.1 = name
    · -- the name does not occur again
      have hnone : rest.find? (fun a => a.1 == name) = none := by
        refine List.find?_eq_none.2 ?_
        intro a ha heq
        have hlt := hfirst a ha
        rw [hname, ← eq_of_beq heq] at hlt
        exact List.lt_irrefl a.1 hlt
      subst hname
      rw [hnone, find?_bind_self]
      simp only [List.find?_cons, beq_self_eq_true]
      rfl
    · rw [find?_bind_of_ne t (Ne.symm hname)]
      simp only [List.find?_cons, beq_false_of_ne hname]

/-- A name is bound as in the table on top, and otherwise as in the one beneath. -/
theorem find?_overriddenBy (t u : Table α) (name : Bytes) :
    (t.overriddenBy u).find? name = (u.find? name).or (t.find? name) :=
  find?_foldl_bind u.sorted t name

theorem bind_overriddenBy (t u : Table α) (name : Bytes) (x : α) :
    (t.overriddenBy u).bind name x = t.overriddenBy (u.bind name x) := by
  apply ext_find?
  intro other
  by_cases hother : other = name
  · subst hother
    rw [find?_overriddenBy, find?_bind_self, find?_bind_self, Option.some_or]
  · rw [find?_overriddenBy, find?_bind_of_ne _ hother, find?_bind_of_ne _ hother,
      find?_overriddenBy]

/-- Of tables that bind different names either can be put over the other. -/
theorem overriddenBy_comm {t u : Table α} (h : ∀ name ∈ u.names, t.find? name = none) :
    t.overriddenBy u = u.overriddenBy t := by
  apply ext_find?
  intro name
  rw [find?_overriddenBy, find?_overriddenBy]
  cases hu : u.find? name with
  | none => rw [Option.none_or, Option.or_none]
  | some x =>
    have hname : name ∈ u.names := List.mem_map_of_mem (f := (·.1)) (u.mem_entries_iff.2 hu)
    rw [h name hname, Option.some_or, Option.none_or]

end Table

/-! ## Sessions with more names -/

namespace Session

variable {W : Type}

/-- The session with more names bound. -/
def withNames (s : Session W) (names : Symbols) : Session W :=
  { s with symbols := s.symbols.overriddenBy names }

/-- The session with its own names over those of a table. -/
def namedOver (s : Session W) (names : Symbols) : Session W :=
  { s with symbols := names.overriddenBy s.symbols }

theorem withNames_eq {s : Session W} {names : Symbols}
    (h : ∀ name ∈ names.names, s.symbols.find? name = none) :
    s.withNames names = s.namedOver names := by
  rw [withNames, namedOver, Table.overriddenBy_comm h]

theorem covert_namedOver (names : Symbols) : Covert (fun s : Session W => s.namedOver names) where
  listening _ := rfl
  line _ := rfl
  journal _ := rfl
  nextList _ := rfl
  setJournal _ _ := rfl
  setNextList _ _ := rfl
  output _ := rfl
  diagnostics _ := rfl
  setOutput _ _ := rfl

theorem receive_namedOver {α : Type} (s : Session W) (names : Symbols) (reply : Reply W α) :
    (s.namedOver names).receive reply = (s.receive reply).namedOver names := by
  obtain ⟨world, access, effect⟩ := reply
  cases effect with
  | none => rfl
  | cancels => rfl
  | echoes channel text => rfl

theorem bindValue_namedOver (s : Session W) (names : Symbols) (name : Bytes) (v : Value) :
    (s.namedOver names).bindValue name v = (s.bindValue name v).namedOver names := by
  rw [bindValue, bindValue, namedOver, namedOver, Table.bind_overriddenBy]

end Session

/-- What is found among the names on top is found. -/
theorem Symbols.get_overriddenBy {sym names : Symbols} {name : Bytes} {v : Value}
    (h : sym.get name = .ok v) : Symbols.get (names.overriddenBy sym) name = .ok v := by
  unfold get at h ⊢
  rw [Table.find?_overriddenBy]
  cases hfind : sym.find? name with
  | none =>
    rw [hfind] at h
    cases h
  | some x =>
    rw [hfind] at h
    exact h

theorem Symbols.eq_undefined_of_get {sym : Symbols} {name : Bytes} {cause : Cause}
    (h : sym.get name = .error cause) : cause = .undefined name := by
  unfold get at h
  split at h
  · cases h
  · cases h
    rfl

/-- Runs with and without more names beneath their own, as long as none of them is missed. -/
def Link.names (W : Type) [FileSystem W] (names : Symbols) : Link W W where
  Rel s s' := s' = s.namedOver names
  Ends _ s s' := s' = s.namedOver names
  Lost halt := ∃ name, halt = .fault (.undefined name)
  Stray _ := False
  base := []
  ends h _ := h
  underflow := .inl rfl
  interrupt := by rintro s _ rfl; exact .inl rfl
  noteAt := by
    rintro s _ rfl level message
    exact (Session.covert_namedOver names).noteAt s level message
  stack := by rintro s _ rfl; rw [List.append_nil]; rfl
  setStack := by rintro s _ rfl values; rw [List.append_nil]; rfl
  nextList := by rintro s _ rfl; rfl
  setNextList := by rintro s _ rfl next; rfl
  bound := by rintro s _ rfl name v hget; exact Symbols.get_overriddenBy hget
  unbound := by
    rintro s _ rfl name cause hget
    exact .inl ⟨name, congrArg Halt.fault (Symbols.eq_undefined_of_get hget)⟩
  bindValue := by rintro s _ rfl name v; exact s.bindValue_namedOver names name v
  setLine := by rintro s _ rfl line; rfl
  writeLine := by rintro s _ rfl text; exact ⟨rfl, rfl⟩
  flush := by rintro s _ rfl; exact ⟨rfl, rfl⟩
  read := by rintro s _ rfl path; exact ⟨rfl, s.receive_namedOver names _⟩
  write := by rintro s _ rfl path text; exact ⟨rfl, s.receive_namedOver names _⟩
  parse := by rintro s _ rfl src; rw [(Session.covert_namedOver names).parse]; exact ⟨rfl, rfl⟩
  stray_read h _ := h
  stray_write h _ _ := h

theorem Link.names_sameDepth (W : Type) [FileSystem W] (names : Symbols) :
    (Link.names W names).SameDepth where
  depth := by rintro s _ rfl; rfl
  setDepth := by rintro s _ rfl depth; rfl
  limit := by rintro s _ rfl; rfl
  ends h := h

namespace Session

variable {W : Type}

/-- A run that looks up no name in vain goes the same way where more names are bound: it
ends alike, with the same stack, line, output, files and notes, and with the names that it
leaves over those that were added. -/
theorem run_withNames [FileSystem W] (s : Session W) (rounds : Nat) (prog : List Value)
    (names : Symbols) (hnew : ∀ name ∈ names.names, s.symbols.find? name = none)
    (h : ∀ report, (s.run rounds prog).2 = .fault report → report.kind ≠ .undefinedSymbol) :
    ∃ journal, (s.withNames names).run rounds prog =
        ({ (s.run rounds prog).1 with
            symbols := names.overriddenBy (s.run rounds prog).1.symbols, journal := journal },
          (s.run rounds prog).2) ∧
      journal.filter (fun e => !e.isDiagnostic) =
        (s.run rounds prog).1.journal.filter (fun e => !e.isDiagnostic) := by
  have hrel : (Link.names W names).Rel s (s.namedOver names) := rfl
  have hmeets := (Link.names_sameDepth W names).meets_runAction rounds prog hrel
  rw [withNames_eq hnew]
  unfold run at h ⊢
  generalize runAction rounds prog s = r at hmeets h ⊢
  generalize runAction rounds prog (s.namedOver names) = r' at hmeets ⊢
  cases hmeets with
  | ok hrel =>
    subst hrel
    exact ⟨_, rfl, rfl⟩
  | error hends =>
    subst hends
    exact (covert_namedOver names).settle _ _
  | lost hlost =>
    -- the run would have been reported as one that missed a name
    obtain ⟨name, rfl⟩ := hlost
    exact absurd rfl (h _ rfl)
  | stray hstray => exact hstray.elim

/-- A program that gives `f` a number, counts it up and gives up. -/
def countsAndDies : List Value :=
  [.number Double.one, .text (ascii "f"), .text (ascii "<-"), .text (ascii "f"),
    .text (ascii "++"), .text (ascii ".die")]

/-- Other bindings of `f` and `g`. -/
def otherNames : Symbols :=
  (Table.empty.bind (ascii "f") (.text (ascii "old"))).bind (ascii "g") (.text (ascii "kept"))

/-- The program binds `f` anew and leaves `g` alone. -/
theorem run_withNames_countsAndDies :
    (twoTexts.run 0 countsAndDies).2 = .fault ⟨.died, 1, .absent, [], none⟩ ∧
      ((twoTexts.withNames otherNames).run 0 countsAndDies).2 =
        .fault ⟨.died, 1, .absent, [], none⟩ ∧
      ((twoTexts.withNames otherNames).run 0 countsAndDies).1.symbols.entries =
        [(ascii "f", .number (Double.one.add Double.one)), (ascii "g", .text (ascii "kept"))] := by
  have hout : (twoTexts.run 0 countsAndDies).2 = .fault ⟨.died, 1, .absent, [], none⟩ := rfl
  obtain ⟨journal, hrun, _⟩ := run_withNames twoTexts 0 countsAndDies otherNames
    (fun _ _ => rfl) (by
      intro report hreport
      rw [hout] at hreport
      cases hreport
      decide)
  have hsymbols : (otherNames.overriddenBy (twoTexts.run 0 countsAndDies).1.symbols).entries =
      [(ascii "f", .number (Double.one.add Double.one)), (ascii "g", .text (ascii "kept"))] := rfl
  rw [hrun]
  exact ⟨hout, hout, hsymbols⟩

end Session

end StackScript
