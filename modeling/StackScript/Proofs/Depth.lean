import StackScript.Proofs.Observation
set_option autoImplicit false

/-!
# The recursion limit

How deep lists run inside lists is observed by a run over watched files.  What is seen
are the moments at which a list is entered and left, and what the session's own count was
in between.  The record counts lists on its own account, so it can be compared with that
count.

The count is right at every moment and stays within the limit.  A run that does not
meet its limit has a greatest depth.  Under every limit from that depth on the
program runs the same; under every smaller one it is stopped at the limit.
-/

namespace StackScript

/-! ## Records of a run -/

/-- A moment of a run. -/
inductive Moment where
  /-- a list begins to be run -/
  | entered
  /-- a list has been run -/
  | left
  /-- the session counts so many lists as being run -/
  | seen (depth : Nat)
  deriving DecidableEq, Repr

namespace Moment

/-- How many lists are being run after some moments, latest first. -/
def active : List Moment → Nat
  | [] => 0
  | .entered :: earlier => active earlier + 1
  | .left :: earlier => active earlier - 1
  | .seen _ :: earlier => active earlier

/-- How many lists were being run at once, at most. -/
def peak : List Moment → Nat
  | [] => 0
  | m :: earlier => max (active (m :: earlier)) (peak earlier)

/-- At every moment at which the session's count was seen it was right and within the
limit. -/
def Exact (limit : Nat) (moments : List Moment) : Prop :=
  ∀ depth earlier, .seen depth :: earlier <:+ moments → depth = active earlier ∧ depth ≤ limit

theorem active_le_peak (moments : List Moment) : active moments ≤ peak moments := by
  cases moments with
  | nil => exact Nat.le_refl 0
  | cons m earlier => exact Nat.le_max_left _ _

theorem peak_le_cons (m : Moment) (earlier : List Moment) : peak earlier ≤ peak (m :: earlier) :=
  Nat.le_max_right _ _

theorem exact_nil (limit : Nat) : Exact limit [] := by
  intro depth earlier hsuffix
  cases List.suffix_nil.1 hsuffix

/-- One more moment leaves this so; if it is a look at the count, that must be right. -/
theorem Exact.cons {limit : Nat} {m : Moment} {moments : List Moment} (h : Exact limit moments)
    (hm : ∀ depth, m = .seen depth → depth = active moments ∧ depth ≤ limit) :
    Exact limit (m :: moments) := by
  intro d earlier hsuffix
  rcases List.suffix_cons_iff.1 hsuffix with heq | hearlier
  · cases heq
    exact hm d rfl
  · exact h d earlier hearlier

end Moment

/-! ## Watched runs -/

/-- Files with a record of the moments of the run that accesses them, latest first. -/
abbrev Watched (W : Type) := Observed (List Moment) W

namespace Session

variable {W : Type}

/-- The same session over watched files, before anything was seen. -/
def watched (s : Session W) : Session (Watched W) := s.observed []

/-- What was seen of a session, latest first. -/
def moments (s : Session (Watched W)) : List Moment := s.world.seen

/-- The session with one more moment on record. -/
def mark (s : Session (Watched W)) (m : Moment) : Session (Watched W) := s.seeing (m :: s.moments)

/-- Looks at the session's count. -/
def look (s : Session (Watched W)) : Session (Watched W) := s.mark (.seen s.depth)

/-- The session when a list begins to be run, with a look before and after. -/
def enter (s : Session (Watched W)) : Session (Watched W) :=
  { s.look.mark .entered with depth := s.depth + 1 }.look

/-- The session when a list has been run, with a look after it. -/
def leave (s : Session (Watched W)) : Session (Watched W) :=
  ({ s with depth := s.depth - 1 }.mark .left).look

end Session

/-- Runs a program as `exec` does, keeping a record.  The count is seen before and
after a list is run, at its start and after each of its elements. -/
def watchedExec {W : Type} [FileSystem W] (rounds : Nat) :
    (levels : Nat) → Action.Runner (Watched W)
  | 0 => fun _ => do
    modify Session.look
    Action.fail (.tooDeep (← get).depth)
  | levels + 1 => fun prog => do
    modify Session.enter
    walk (fun v => do
      step (watchedExec rounds levels) rounds v
      modify Session.look) prog
    modify Session.leave

namespace Session

variable {W : Type} [FileSystem W]

/-- A run that keeps a record. -/
def watchedRun (s : Session W) (rounds : Nat) (prog : List Value) :
    Session (Watched W) × Outcome :=
  s.watched.runBy watchedExec rounds prog

end Session

/-! ## The record can be left out -/

section Erase

variable {W : Type} [FileSystem W]

/-- Keeping a record makes no difference to the run. -/
theorem unobtrusive_watchedExec : Unobtrusive (watchedExec (W := W)) := by
  intro rounds levels
  induction levels with
  | zero =>
    intro prog
    refine ⟨?_, fun h => h⟩
    rintro s _ ⟨σ, rfl, hσ⟩
    have hdepth : σ.depth = s.depth := by
      rw [hσ]
      rfl
    change Link.Meets _ (.error (.fault (.tooDeep s.depth)) s.look)
      (.error (.fault (.tooDeep σ.depth)) (s.inSetting σ))
    rw [hdepth]
    exact .error ⟨σ, rfl, hσ⟩
  | succ levels ih =>
    intro prog
    have hlook : (SettingLink.unobserved (List Moment) W).link.Sim (modify Session.look)
        (pure ()) := sim_seeing fun s => .seen s.depth :: s.moments
    have hwalk := Link.sim_walk (fun v => (Link.sim_step ih rounds v).bind_left hlook) prog
    refine hwalk.nest Session.enter Session.leave (fun s => { s with depth := s.depth + 1 })
      (fun s => { s with depth := s.depth - 1 }) id id Iff.rfl ?_ ?_ id id
    · rintro s _ ⟨σ, rfl, hσ⟩
      cases hσ
      exact .inl ⟨_, rfl, rfl⟩
    · rintro t _ ⟨σ, rfl, hσ⟩
      cases hσ
      exact ⟨_, rfl, rfl⟩

theorem Session.run_eq_watchedRun (s : Session W) (rounds : Nat) (prog : List Value) :
    s.run rounds prog =
      ((s.watchedRun rounds prog).1.unobserved, (s.watchedRun rounds prog).2) :=
  unobtrusive_watchedExec.run s.watched rounds prog

end Erase

/-! ## The count is right -/

section Exact

variable {W : Type}

/-- The record and the session's count agree and have stayed within the limit. -/
structure Setting.Tracked (limit : Nat) (σ : Setting (Watched W)) : Prop where
  limit_eq : σ.limit = limit
  active_eq : Moment.active σ.world.seen = σ.depth
  depth_le : σ.depth ≤ limit
  peak_le : Moment.peak σ.world.seen ≤ limit
  exact : Moment.Exact limit σ.world.seen

theorem Setting.Tracked.look {limit : Nat} {s : Session (Watched W)}
    (h : s.setting.Tracked limit) : s.look.setting.Tracked limit := by
  have hactive : Moment.active s.moments = s.depth := h.active_eq
  have hpeak : Moment.peak s.moments ≤ limit := h.peak_le
  have hdepth : s.depth ≤ limit := h.depth_le
  refine ⟨h.limit_eq, hactive, hdepth, ?_, h.exact.cons ?_⟩
  · change max (Moment.active s.moments) (Moment.peak s.moments) ≤ limit
    omega
  · rintro _ ⟨⟩
    exact ⟨hactive.symm, hdepth⟩

theorem Setting.Tracked.enter {limit : Nat} {s : Session (Watched W)}
    (h : s.setting.Tracked limit) (hlt : s.depth < limit) : s.enter.setting.Tracked limit := by
  have hlook := h.look
  have hactive : Moment.active (.entered :: s.look.moments) = s.depth + 1 :=
    congrArg (· + 1) hlook.active_eq
  have hpeak : Moment.peak s.look.moments ≤ limit := hlook.peak_le
  have hentered : ({ s.look.mark .entered with depth := s.depth + 1 } :
      Session (Watched W)).setting.Tracked limit := by
    refine ⟨h.limit_eq, hactive, hlt, ?_, hlook.exact.cons (by rintro _ ⟨⟩)⟩
    change max (Moment.active (.entered :: s.look.moments)) (Moment.peak s.look.moments) ≤ limit
    omega
  exact hentered.look

theorem Setting.Tracked.leave {limit : Nat} {s : Session (Watched W)}
    (h : s.setting.Tracked limit) : s.leave.setting.Tracked limit := by
  have hactive : Moment.active (.left :: s.moments) = s.depth - 1 :=
    congrArg (· - 1) h.active_eq
  have hpeak : Moment.peak s.moments ≤ limit := h.peak_le
  have hdepth : s.depth ≤ limit := h.depth_le
  have hleft : (({ s with depth := s.depth - 1 } : Session (Watched W)).mark
      .left).setting.Tracked limit := by
    refine ⟨h.limit_eq, hactive, Nat.le_trans (Nat.sub_le _ _) hdepth, ?_,
      h.exact.cons (by rintro _ ⟨⟩)⟩
    change max (Moment.active (.left :: s.moments)) (Moment.peak s.moments) ≤ limit
    omega
  exact hleft.look

variable [FileSystem W]

/-- A run beside itself, with its count right and `levels` levels left. -/
def SettingLink.exact (W : Type) [FileSystem W] (limit levels : Nat) :
    SettingLink (Watched W) (Watched W) where
  Holds σ σ' := σ' = σ ∧ σ.Tracked limit ∧ σ.depth + levels = limit
  Ends halt σ σ' := σ' = σ ∧ σ.Tracked limit ∧
    ∀ depth, halt = .fault (.tooDeep depth) → depth = limit
  Lost _ := False
  Stray _ := False
  ends := by
    rintro σ _ halt ⟨rfl, htracked, _⟩ hlimit
    refine ⟨rfl, htracked, ?_⟩
    rintro depth rfl
    cases hlimit
  read := by
    rintro σ _ ⟨rfl, htracked, hlevels⟩ path
    exact ⟨rfl, rfl, rfl, ⟨htracked.1, htracked.2, htracked.3, htracked.4, htracked.5⟩, hlevels⟩
  write := by
    rintro σ _ ⟨rfl, htracked, hlevels⟩ path text
    exact ⟨rfl, rfl, rfl, ⟨htracked.1, htracked.2, htracked.3, htracked.4, htracked.5⟩, hlevels⟩
  stray_read h _ := h
  stray_write h _ _ := h

theorem SettingLink.exact_rel {limit levels : Nat} {s : Session (Watched W)}
    (htracked : s.setting.Tracked limit) (hlevels : s.depth + levels = limit) :
    (SettingLink.exact W limit levels).link.Rel s s :=
  ⟨s.setting, rfl, rfl, htracked, hlevels⟩

theorem sim_look_exact (limit levels : Nat) :
    (SettingLink.exact W limit levels).link.Sim (modify Session.look) (modify Session.look) := by
  refine Link.sim_modify_of_stray ?_ id
  rintro s _ ⟨_, rfl, rfl, htracked, hlevels⟩
  exact SettingLink.exact_rel htracked.look hlevels

/-- Running a list keeps the count right, and is stopped for its depth at the limit
only. -/
theorem sim_watchedExec_exact (rounds limit levels : Nat) : ∀ prog,
    (SettingLink.exact W limit levels).link.Sim (watchedExec rounds levels prog)
      (watchedExec rounds levels prog) := by
  induction levels with
  | zero =>
    intro prog
    refine ⟨?_, fun h => h⟩
    rintro s _ ⟨_, rfl, rfl, htracked, hlevels⟩
    refine .error ⟨s.look.setting, rfl, rfl, htracked.look, ?_⟩
    intro depth hhalt
    cases hhalt
    exact hlevels
  | succ levels ih =>
    intro prog
    -- with fewer levels in all there is nothing to show
    by_cases hle : levels + 1 ≤ limit
    case neg =>
      refine ⟨?_, fun h => h⟩
      rintro s _ ⟨_, rfl, rfl, _, hlevels⟩
      have hroom : s.depth + (levels + 1) = limit := hlevels
      omega
    have hwalk := Link.sim_walk
      (fun v => (Link.sim_step ih rounds v).bind fun _ => sim_look_exact limit levels) prog
    refine hwalk.nest Session.enter Session.leave Session.enter Session.leave
      id id Iff.rfl ?_ ?_ id id
    · rintro s _ ⟨_, rfl, rfl, htracked, hlevels⟩
      have hroom : s.depth + (levels + 1) = limit := hlevels
      have hinner : s.depth + 1 + levels = limit := by omega
      exact .inl (SettingLink.exact_rel (htracked.enter (by omega)) hinner)
    · rintro t _ ⟨_, rfl, rfl, htracked, hlevels⟩
      have hinner : t.depth + levels = limit := hlevels
      have hroom : t.depth - 1 + (levels + 1) = limit := by omega
      exact SettingLink.exact_rel htracked.leave hroom

end Exact

/-! ## The limit shows only where it is met -/

section Limit

variable {W : Type}

theorem lt_peak_mark {n : Nat} {s : Session (Watched W)} (m : Moment)
    (h : n < Moment.peak s.moments) : n < Moment.peak (s.mark m).moments :=
  Nat.lt_of_lt_of_le h (Moment.peak_le_cons m s.moments)

theorem lt_peak_enter {n : Nat} {s : Session (Watched W)} (h : n < Moment.peak s.moments) :
    n < Moment.peak s.enter.moments :=
  lt_peak_mark _ (lt_peak_mark .entered (lt_peak_mark _ h))

theorem lt_peak_leave {n : Nat} {s : Session (Watched W)} (h : n < Moment.peak s.moments) :
    n < Moment.peak s.leave.moments :=
  lt_peak_mark _ (lt_peak_mark .left h)

theorem active_lt_peak_enter (s : Session (Watched W)) :
    Moment.active s.moments < Moment.peak s.enter.moments := by
  have hactive : Moment.active s.enter.moments = Moment.active s.moments + 1 := rfl
  have hpeak := Moment.active_le_peak s.enter.moments
  omega

variable [FileSystem W]

/-- A record that has shown more than `n` lists at once goes on to show it; nothing
else is compared. -/
def SettingLink.above (W : Type) [FileSystem W] (n : Nat) :
    SettingLink (Watched W) (Watched W) where
  Holds _ _ := False
  Ends _ _ _ := False
  Lost _ := False
  Stray w := n < Moment.peak w.seen
  ends h _ := h
  read h _ := h.elim
  write h _ _ := h.elim
  stray_read h _ := h
  stray_write h _ _ := h

theorem sim_look_above (n : Nat) :
    (SettingLink.above W n).link.Sim (modify Session.look) (modify Session.look) := by
  refine Link.sim_modify_of_stray ?_ fun h => lt_peak_mark _ h
  rintro s _ ⟨_, rfl, h⟩
  exact h.elim

theorem sim_watchedExec_above (rounds n levels : Nat) : ∀ prog,
    (SettingLink.above W n).link.Sim (watchedExec rounds levels prog)
      (watchedExec rounds levels prog) := by
  induction levels with
  | zero =>
    intro prog
    refine ⟨?_, fun h => lt_peak_mark _ h⟩
    rintro s _ ⟨_, rfl, h⟩
    exact h.elim
  | succ levels ih =>
    intro prog
    have hwalk := Link.sim_walk
      (fun v => (Link.sim_step ih rounds v).bind fun _ => sim_look_above n) prog
    refine hwalk.nest Session.enter Session.leave Session.enter Session.leave
      id id Iff.rfl ?_ ?_ lt_peak_enter lt_peak_leave
    · rintro s _ ⟨_, rfl, h⟩
      exact h.elim
    · rintro t _ ⟨_, rfl, h⟩
      exact h.elim

/-- A list that is run shows on the record as one list more than before. -/
theorem active_lt_peak_watchedExec (rounds levels : Nat) (prog : List Value)
    (s : Session (Watched W)) : Moment.active s.moments <
      Moment.peak (finalWorld (watchedExec rounds (levels + 1) prog s)).seen := by
  have hwalk := Link.sim_walk (fun v =>
    (Link.sim_step (sim_watchedExec_above (W := W) rounds (Moment.active s.moments) levels)
      rounds v).bind fun _ => sim_look_above (Moment.active s.moments)) prog
  have hleave : (SettingLink.above W (Moment.active s.moments)).link.Sim (modify Session.leave)
      (modify Session.leave) := by
    refine Link.sim_modify_of_stray ?_ lt_peak_leave
    rintro t _ ⟨_, rfl, h⟩
    exact h.elim
  exact (hwalk.bind fun _ => hleave).strays (active_lt_peak_enter s)

/-- A run beside the same one under another limit, with `levels` levels left there.
The other need not follow a run that is stopped at its own limit, nor one that goes
deeper than the other limit. -/
def SettingLink.limit (W : Type) [FileSystem W] (limit levels : Nat) :
    SettingLink (Watched W) (Watched W) where
  Holds σ σ' := σ' = ⟨σ.depth, limit, σ.world⟩ ∧ σ.depth + levels = limit ∧
    Moment.active σ.world.seen = σ.depth
  Ends _ σ σ' := σ' = ⟨σ.depth, limit, σ.world⟩
  Lost halt := halt.isLimit = true
  Stray w := limit < Moment.peak w.seen
  ends h _ := h.1
  read := by
    rintro σ _ ⟨rfl, hlevels, hactive⟩ path
    exact ⟨rfl, rfl, rfl, hlevels, hactive⟩
  write := by
    rintro σ _ ⟨rfl, hlevels, hactive⟩ path text
    exact ⟨rfl, rfl, rfl, hlevels, hactive⟩
  stray_read h _ := h
  stray_write h _ _ := h

theorem sim_look_limit (limit levels : Nat) :
    (SettingLink.limit W limit levels).link.Sim (modify Session.look) (modify Session.look) := by
  refine Link.sim_modify_of_stray ?_ fun h => lt_peak_mark _ h
  rintro s _ ⟨_, rfl, rfl, hlevels, hactive⟩
  exact ⟨_, rfl, rfl, hlevels, hactive⟩

/-- Whatever levels each of two runs has left, the second follows the first until that
meets its limit or goes beyond the other's. -/
theorem sim_watchedExec_limit (rounds limit levels : Nat) : ∀ levels' prog,
    (SettingLink.limit W limit levels').link.Sim (watchedExec rounds levels prog)
      (watchedExec rounds levels' prog) := by
  induction levels with
  | zero =>
    intro levels' prog
    exact ⟨fun _ => .lost rfl, fun h => lt_peak_mark _ h⟩
  | succ levels ih =>
    intro levels' prog
    have hstrays : ∀ {s : Session (Watched W)}, limit < Moment.peak s.moments →
        limit < Moment.peak (finalWorld (watchedExec rounds (levels + 1) prog s)).seen :=
      fun h => (sim_watchedExec_above rounds limit (levels + 1) prog).strays h
    cases levels' with
    | zero =>
      -- the first run goes on where the second has no level left
      refine ⟨?_, hstrays⟩
      rintro s _ ⟨_, rfl, rfl, hlevels, hactive⟩
      have hdeeper := active_lt_peak_watchedExec rounds levels prog s
      have hlimit : s.depth = limit := hlevels
      have hdepth : Moment.active s.moments = s.depth := hactive
      refine .stray ?_
      change limit < _
      omega
    | succ levels' =>
      by_cases hle : levels' + 1 ≤ limit
      case neg =>
        refine ⟨?_, hstrays⟩
        rintro s _ ⟨_, rfl, rfl, hlevels, _⟩
        have hroom : s.depth + (levels' + 1) = limit := hlevels
        omega
      have hwalk := Link.sim_walk
        (fun v => (Link.sim_step (ih levels') rounds v).bind fun _ =>
          sim_look_limit limit levels') prog
      refine hwalk.nest Session.enter Session.leave Session.enter Session.leave
        id id Iff.rfl ?_ ?_ lt_peak_enter lt_peak_leave
      · rintro s _ ⟨_, rfl, rfl, hlevels, hactive⟩
        have hroom : s.depth + (levels' + 1) = limit := hlevels
        have hinner : s.depth + 1 + levels' = limit := by omega
        exact .inl ⟨_, rfl, rfl, hinner, congrArg (· + 1) hactive⟩
      · rintro t _ ⟨_, rfl, rfl, hlevels, hactive⟩
        have hinner : t.depth + levels' = limit := hlevels
        have hroom : t.depth - 1 + (levels' + 1) = limit := by omega
        exact ⟨_, rfl, rfl, hroom, congrArg (· - 1) hactive⟩

namespace Session

theorem meets_watchedAction_exact (s : Session W) (rounds : Nat) (prog : List Value) :
    (SettingLink.exact W s.limit s.limit).link.Meets (actionBy watchedExec rounds prog s.watched)
      (actionBy watchedExec rounds prog s.watched) := by
  have hrel : (SettingLink.exact W s.limit s.limit).link.Rel s.watched.atRest s.watched.atRest := by
    refine SettingLink.exact_rel ?_ (Nat.zero_add _)
    exact ⟨rfl, rfl, Nat.zero_le _, Nat.zero_le _, Moment.exact_nil _⟩
  exact ((sim_watchedExec_exact rounds s.limit s.limit prog).bind fun _ =>
    Link.sim_flush).meets hrel

theorem meets_watchedAction_limit (s : Session W) (limit rounds : Nat) (prog : List Value) :
    (SettingLink.limit W limit limit).link.Meets (actionBy watchedExec rounds prog s.watched)
      (actionBy watchedExec rounds prog ({ s with limit := limit } : Session W).watched) := by
  have hrel : (SettingLink.limit W limit limit).link.Rel s.watched.atRest
      ({ s with limit := limit } : Session W).watched.atRest :=
    ⟨_, rfl, rfl, Nat.zero_add _, rfl⟩
  exact ((sim_watchedExec_limit rounds limit s.limit limit prog).bind fun _ =>
    Link.sim_flush).meets hrel

theorem eq_tooDeep_of_kind {cause : Cause} (h : cause.kind = .recursionLimitExceeded) :
    ∃ depth, cause = .tooDeep depth := by
  cases cause <;> first | exact ⟨_, rfl⟩ | cases h

/-- The record of a run is right, and a run that meets its limit says so. -/
theorem watchedRun_tracked (s : Session W) (rounds : Nat) (prog : List Value) :
    (s.watchedRun rounds prog).1.setting.Tracked s.limit ∧
      ∀ report, (s.watchedRun rounds prog).2 = .fault report →
        report.kind = .recursionLimitExceeded →
        report = ⟨.recursionLimitExceeded, (s.watchedRun rounds prog).1.line, .absent,
          ascii "depth " ++ Bytes.ofNat s.limit, none⟩ := by
  have hmeets := s.meets_watchedAction_exact rounds prog
  unfold watchedRun runBy
  generalize actionBy watchedExec rounds prog s.watched = r at hmeets ⊢
  cases hmeets with
  | ok hrel =>
    obtain ⟨_, _, _, htracked, _⟩ := hrel
    exact ⟨htracked, fun report hdone => nomatch hdone⟩
  | lost hlost => exact hlost.elim
  | stray hstray => exact hstray.elim
  | @error halt t _ hends =>
    obtain ⟨_, _, _, htracked, hdepth⟩ := hends
    refine ⟨?_, ?_⟩
    · rw [ofResult, t.setting_settle halt]
      exact htracked
    · intro report hfault hkind
      cases halt with
      | exit => cases hfault
      | interrupted reason => cases hfault
      | crashed message => cases hfault
      | exhausted => cases hfault
      | fault cause =>
        cases hfault
        obtain ⟨depth, rfl⟩ := eq_tooDeep_of_kind hkind
        have hline : (t.settle (.fault (.tooDeep depth))).1.line = t.line := by
          simp only [settle, settleFault, reportFault, diagnose]
          split
          · rfl
          · rfl
        rw [ofResult, hline, hdepth depth rfl]
        rfl

/-- A run that does not meet its limit is the same under every limit that it does not
go beyond. -/
theorem watchedRun_of_peak_le (s : Session W) {rounds limit : Nat} {prog : List Value}
    (hfault : ∀ report, (s.watchedRun rounds prog).2 = .fault report →
      report.kind ≠ .recursionLimitExceeded)
    (hpeak : Moment.peak (s.watchedRun rounds prog).1.moments ≤ limit) :
    ({ s with limit := limit } : Session W).watchedRun rounds prog =
      ({ (s.watchedRun rounds prog).1 with limit := limit }, (s.watchedRun rounds prog).2) := by
  have hmeets := s.meets_watchedAction_limit limit rounds prog
  unfold watchedRun runBy at hfault hpeak ⊢
  generalize actionBy watchedExec rounds prog s.watched = r at hmeets hfault hpeak ⊢
  generalize actionBy watchedExec rounds prog ({ s with limit := limit } : Session W).watched = r'
    at hmeets ⊢
  cases hmeets with
  | ok hrel =>
    obtain ⟨_, rfl, rfl, _⟩ := hrel
    rfl
  | @error halt t _ hends =>
    obtain ⟨_, rfl, rfl⟩ := hends
    simp only [ofResult, t.settle_inSetting _ halt]
    refine congrArg (·, (t.settle halt).2) ?_
    rw [← t.setting_settle halt]
    rfl
  | @lost halt t _ hlost =>
    cases halt with
    | fault cause =>
      cases cause with
      | tooDeep depth => exact absurd rfl (hfault _ rfl)
      | _ => cases hlost
    | _ => cases hlost
  | stray hstray =>
    change limit < _ at hstray
    cases r with
    | ok a t =>
      have hle : Moment.peak t.moments ≤ limit := hpeak
      exact absurd hstray (Nat.not_lt.2 hle)
    | error halt t =>
      have hsame : (t.settle halt).1.moments = t.moments :=
        congrArg (·.world.seen) (t.setting_settle halt)
      have hle : Moment.peak (t.settle halt).1.moments ≤ limit := hpeak
      rw [hsame] at hle
      exact absurd hstray (Nat.not_lt.2 hle)

/-- Under a limit that it goes beyond a run is stopped. -/
theorem watchedRun_of_lt_peak (s : Session W) {rounds limit : Nat} {prog : List Value}
    (hpeak : limit < Moment.peak (s.watchedRun rounds prog).1.moments) :
    ∃ report, (({ s with limit := limit } : Session W).watchedRun rounds prog).2 = .fault report ∧
      report.kind = .recursionLimitExceeded := by
  refine Classical.byContradiction fun hnone => ?_
  have hother : ∀ report,
      (({ s with limit := limit } : Session W).watchedRun rounds prog).2 = .fault report →
        report.kind ≠ .recursionLimitExceeded :=
    fun report hreport hkind => hnone ⟨report, hreport, hkind⟩
  -- it would go the same way under the limit of `s`, and so no deeper than it went
  obtain ⟨htracked, _⟩ := ({ s with limit := limit } : Session W).watchedRun_tracked rounds prog
  obtain ⟨htracked', _⟩ := s.watchedRun_tracked rounds prog
  have hle : Moment.peak (({ s with limit := limit } : Session W).watchedRun rounds
      prog).1.moments ≤ limit := htracked.peak_le
  have hle' : Moment.peak (s.watchedRun rounds prog).1.moments ≤ s.limit := htracked'.peak_le
  have hsame := ({ s with limit := limit } : Session W).watchedRun_of_peak_le hother
    (show _ ≤ s.limit by omega)
  have hmoments : (s.watchedRun rounds prog).1.moments =
      (({ s with limit := limit } : Session W).watchedRun rounds prog).1.moments :=
    congrArg (·.1.moments) hsame
  rw [hmoments] at hpeak
  omega

/-- The recursion limit is exact and otherwise does not show.  A run counts the lists
being run rightly at every moment and within its limit.  Under every limit below its
greatest depth it is stopped there; if it does not meet its own limit, it is the same
under every limit from its greatest depth on. -/
theorem run_limit_exact (s : Session W) (rounds : Nat) (prog : List Value) :
    s.run rounds prog =
        ((s.watchedRun rounds prog).1.unobserved, (s.watchedRun rounds prog).2) ∧
      Moment.Exact s.limit (s.watchedRun rounds prog).1.moments ∧
      (s.run rounds prog).1.depth = Moment.active (s.watchedRun rounds prog).1.moments ∧
      (s.run rounds prog).1.depth ≤ s.limit ∧
      (∀ limit, limit < Moment.peak (s.watchedRun rounds prog).1.moments →
        ∃ t, ({ s with limit := limit } : Session W).run rounds prog =
          (t, .fault ⟨.recursionLimitExceeded, t.line, .absent,
            ascii "depth " ++ Bytes.ofNat limit, none⟩)) ∧
      ((∀ report, (s.run rounds prog).2 = .fault report →
          report.kind ≠ .recursionLimitExceeded) →
        ∀ limit, Moment.peak (s.watchedRun rounds prog).1.moments ≤ limit →
          ({ s with limit := limit } : Session W).run rounds prog =
            ({ (s.run rounds prog).1 with limit := limit }, (s.run rounds prog).2)) := by
  have hrun := s.run_eq_watchedRun rounds prog
  obtain ⟨htracked, _⟩ := s.watchedRun_tracked rounds prog
  rw [hrun]
  refine ⟨rfl, htracked.exact, htracked.active_eq.symm, htracked.depth_le, ?_, ?_⟩
  · intro limit hpeak
    obtain ⟨report, hreport, hkind⟩ := s.watchedRun_of_lt_peak hpeak
    obtain ⟨_, hdepth⟩ := ({ s with limit := limit } : Session W).watchedRun_tracked rounds prog
    refine ⟨(({ s with limit := limit } : Session W).watchedRun rounds prog).1.unobserved, ?_⟩
    rw [run_eq_watchedRun, hreport, hdepth report hreport hkind]
    rfl
  · intro hfault limit hpeak
    rw [run_eq_watchedRun, s.watchedRun_of_peak_le hfault hpeak]
    rfl

/-- A program that runs a list that runs a list. -/
def nestedLists : List Value :=
  [.list .bare [.list .bare [], .text (ascii "$")], .text (ascii "$")]

theorem run_limit_exact_nestedLists :
    (Session.overNoFiles.run 0 nestedLists).2 = .done ∧
      Moment.peak (Session.overNoFiles.watchedRun 0 nestedLists).1.moments = 3 ∧
      (({ Session.overNoFiles with limit := 3 } : Session _).run 0
        nestedLists).2 = .done ∧
      ∃ t, ({ Session.overNoFiles with limit := 2 } : Session _).run 0
        nestedLists = (t, .fault ⟨.recursionLimitExceeded, t.line, .absent,
          ascii "depth " ++ Bytes.ofNat 2, none⟩) := by
  have hdone : (Session.overNoFiles.run 0 nestedLists).2 = .done := rfl
  have hpeak : Moment.peak
      (Session.overNoFiles.watchedRun 0 nestedLists).1.moments = 3 := rfl
  obtain ⟨_, _, _, _, hstopped, hsame⟩ :=
    run_limit_exact Session.overNoFiles 0 nestedLists
  have hfault : ∀ report, (Session.overNoFiles.run 0 nestedLists).2 =
      .fault report → report.kind ≠ .recursionLimitExceeded := by
    intro report hreport
    rw [hdone] at hreport
    cases hreport
  refine ⟨hdone, hpeak, ?_, hstopped 2 (by rw [hpeak]; decide)⟩
  rw [hsame hfault 3 (Nat.le_of_eq hpeak)]
  exact hdone

end Session

end Limit

end StackScript
