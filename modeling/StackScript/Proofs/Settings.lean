import StackScript.Proofs.Simulation
set_option autoImplicit false

/-!
# Runs in different settings

The setting of a session is what instructions reach only by running lists and accessing files:
how many lists are being run, how many may be, and the files.  Two runs whose settings stay
linked go the same way in everything else, and what is told of a halt does not depend on the
setting.
-/

namespace StackScript

/-- What instructions reach only by running lists and accessing files. -/
structure Setting (W : Type) where
  depth : Nat
  limit : Nat
  world : W

namespace Session

variable {V W : Type}

/-- The setting of a session. -/
def setting (s : Session V) : Setting V := ⟨s.depth, s.limit, s.world⟩

/-- The same session in another setting. -/
def inSetting (s : Session V) (σ : Setting W) : Session W :=
  { s with depth := σ.depth, limit := σ.limit, world := σ.world }

theorem setting_noteAt (s : Session V) (level : Level) (message : Unit → Bytes) :
    (s.noteAt level message).setting = s.setting := by
  obtain ⟨journal, hnote⟩ := s.exists_noteAt level message
  rw [hnote]
  rfl

theorem unnoted_inSetting (σ : Setting W) : Unnoted (fun s : Session V => s.inSetting σ) :=
  ⟨fun _ => rfl, fun _ => rfl, fun _ => rfl, fun _ => rfl, fun _ _ => rfl, fun _ _ => rfl⟩

theorem setting_receive {α : Type} (s : Session V) (reply : Reply V α) :
    (s.receive reply).setting = ⟨s.depth, s.limit, reply.world⟩ := by
  obtain ⟨interrupt, journal, heffect⟩ :=
    ({ s with world := reply.world } : Session V).exists_undergo reply.effect
  rw [receive, heffect]
  rfl

theorem receive_inSetting {α : Type} (s : Session V) (σ : Setting W) {reply : Reply V α}
    {reply' : Reply W α} (heffect : reply'.effect = reply.effect) :
    (s.inSetting σ).receive reply' =
      (s.receive reply).inSetting ⟨σ.depth, σ.limit, reply'.world⟩ := by
  obtain ⟨world, access, effect⟩ := reply
  obtain ⟨world', access', effect'⟩ := reply'
  cases heffect
  cases effect with
  | none => rfl
  | cancels => rfl
  | echoes channel text => rfl

theorem setting_parse (s : Session V) (src : Bytes) : (s.parse src).1.setting = s.setting := by
  obtain ⟨journal, hparse⟩ := s.exists_parse src
  rw [hparse]
  rfl

/-- Neither what follows from a halt nor what is told of it depends on the setting. -/
theorem settle_inSetting (s : Session V) (σ : Setting W) (halt : Halt) :
    (s.inSetting σ).settle halt = ((s.settle halt).1.inSetting σ, (s.settle halt).2) := by
  cases halt with
  | exit => exact congrArg (·, Outcome.exit) ((unnoted_inSetting σ).noteAt s.flushAnyway .info _)
  | interrupted reason => rfl
  | crashed message => rfl
  | exhausted => rfl
  | fault cause =>
    have hdiagnostics : (s.inSetting σ).flushAnyway.diagnostics = s.flushAnyway.diagnostics := rfl
    simp only [settle, settleFault, reportFault, diagnose, hdiagnostics]
    split
    · rfl
    · rfl

theorem setting_settle (s : Session V) (halt : Halt) :
    (s.settle halt).1.setting = s.setting := by
  obtain ⟨output, journal, _, hsettled⟩ := s.exists_settle halt
  rw [hsettled]
  rfl

end Session

/-- What is to hold between the settings of two runs, and that accesses keep it. -/
structure SettingLink (V W : Type) [FileSystem V] [FileSystem W] where
  Holds : Setting V → Setting W → Prop
  Ends : Halt → Setting V → Setting W → Prop
  Lost : Halt → Prop
  Stray : V → Prop
  ends : ∀ {σ σ' halt}, Holds σ σ' → halt.isLimit = false → Ends halt σ σ'
  read : ∀ {σ σ'}, Holds σ σ' → ∀ path,
    (FileSystem.read σ'.world path).access = (FileSystem.read σ.world path).access ∧
      (FileSystem.read σ'.world path).effect = (FileSystem.read σ.world path).effect ∧
      Holds ⟨σ.depth, σ.limit, (FileSystem.read σ.world path).world⟩
        ⟨σ'.depth, σ'.limit, (FileSystem.read σ'.world path).world⟩
  write : ∀ {σ σ'}, Holds σ σ' → ∀ path text,
    (FileSystem.write σ'.world path text).access = (FileSystem.write σ.world path text).access ∧
      (FileSystem.write σ'.world path text).effect = (FileSystem.write σ.world path text).effect ∧
      Holds ⟨σ.depth, σ.limit, (FileSystem.write σ.world path text).world⟩
        ⟨σ'.depth, σ'.limit, (FileSystem.write σ'.world path text).world⟩
  stray_read : ∀ {w}, Stray w → ∀ path, Stray (FileSystem.read w path).world
  stray_write : ∀ {w}, Stray w → ∀ path text, Stray (FileSystem.write w path text).world

/-- Sessions that agree in everything but their settings, which are linked. -/
def SettingLink.link {V W : Type} [FileSystem V] [FileSystem W] (κ : SettingLink V W) :
    Link V W where
  Rel s s' := ∃ σ, s' = s.inSetting σ ∧ κ.Holds s.setting σ
  Ends halt s s' := ∃ σ, s' = s.inSetting σ ∧ κ.Ends halt s.setting σ
  Lost := κ.Lost
  Stray := κ.Stray
  base := []
  ends := by
    rintro s _ halt ⟨σ, rfl, h⟩ hlimit
    exact ⟨σ, rfl, κ.ends h hlimit⟩
  underflow := .inl rfl
  interrupt := by rintro s _ ⟨σ, rfl, h⟩; exact .inl rfl
  noteAt := by
    rintro s _ ⟨σ, rfl, h⟩ level message
    refine ⟨σ, (Session.unnoted_inSetting σ).noteAt s level message, ?_⟩
    rw [s.setting_noteAt]
    exact h
  stack := by
    rintro s _ ⟨σ, rfl, h⟩
    rw [List.append_nil]
    rfl
  setStack := by
    rintro s _ ⟨σ, rfl, h⟩ values
    rw [List.append_nil]
    exact ⟨σ, rfl, h⟩
  nextList := by rintro s _ ⟨σ, rfl, h⟩; rfl
  setNextList := by rintro s _ ⟨σ, rfl, h⟩ next; exact ⟨σ, rfl, h⟩
  bound := by rintro s _ ⟨σ, rfl, h⟩ name v hget; exact hget
  unbound := by rintro s _ ⟨σ, rfl, h⟩ name cause hget; exact .inr hget
  bindValue := by rintro s _ ⟨σ, rfl, h⟩ name v; exact ⟨σ, rfl, h⟩
  setLine := by rintro s _ ⟨σ, rfl, h⟩ line; exact ⟨σ, rfl, h⟩
  writeLine := by rintro s _ ⟨σ, rfl, h⟩ text; exact ⟨rfl, σ, rfl, h⟩
  flush := by rintro s _ ⟨σ, rfl, h⟩; exact ⟨rfl, σ, rfl, h⟩
  read := by
    rintro s _ ⟨σ, rfl, h⟩ path
    obtain ⟨haccess, heffect, hholds⟩ := κ.read h path
    refine ⟨haccess, _, s.receive_inSetting σ heffect, ?_⟩
    rw [s.setting_receive]
    exact hholds
  write := by
    rintro s _ ⟨σ, rfl, h⟩ path text
    obtain ⟨haccess, heffect, hholds⟩ := κ.write h path text
    refine ⟨haccess, _, s.receive_inSetting σ heffect, ?_⟩
    rw [s.setting_receive]
    exact hholds
  parse := by
    rintro s _ ⟨σ, rfl, h⟩ src
    rw [(Session.unnoted_inSetting σ).parse]
    refine ⟨rfl, σ, rfl, ?_⟩
    rw [s.setting_parse]
    exact h
  stray_read := κ.stray_read
  stray_write := κ.stray_write

/-- How a call ends whose run came to a result. -/
def Session.ofResult {W : Type} : EStateM.Result Halt (Session W) Unit → Session W × Outcome
  | .ok _ t => (t, .done)
  | .error halt t => t.settle halt

/-- A run whose setting is at every moment determined by that of another ends as the
other does. -/
theorem SettingLink.ofResult_of_meets {V W : Type} [FileSystem V] [FileSystem W]
    {κ : SettingLink V W} {φ : Setting V → Setting W}
    (hholds : ∀ {σ σ'}, κ.Holds σ σ' → σ' = φ σ)
    (hends : ∀ {halt σ σ'}, κ.Ends halt σ σ' → σ' = φ σ)
    (hlost : ∀ halt, ¬ κ.Lost halt) (hstray : ∀ w, ¬ κ.Stray w)
    {r : EStateM.Result Halt (Session V) Unit} {r' : EStateM.Result Halt (Session W) Unit}
    (h : κ.link.Meets r r') :
    Session.ofResult r' = ((Session.ofResult r).1.inSetting (φ (Session.ofResult r).1.setting),
      (Session.ofResult r).2) := by
  cases h with
  | @ok a t t' hrel =>
    obtain ⟨σ, rfl, hσ⟩ := hrel
    rw [hholds hσ]
    rfl
  | @error halt t t' hend =>
    obtain ⟨σ, rfl, hσ⟩ := hend
    have hsetting := t.setting_settle halt
    simp only [Session.ofResult, t.settle_inSetting σ halt]
    rw [hends hσ, hsetting]
  | lost h => exact absurd h (hlost _)
  | stray h => exact absurd h (hstray _)

end StackScript
