import Rehome.Fleet.Memory
import Rehome.Fleet.Scripted
import Rehome.Proofs.Journal
import Rehome.Proofs.Watching

/-!
# Accounting — the summary of a pass against its trace

A pass that ends with a summary accounts for its transfer group: every host of it is in one
category and no other host is in any (`summary_accounts`), and the category is the one that the
trace shows (`summary_matches_trace`). For a host that was not verified locked that is a matter of
one status answer. For the others it is a matter of the last relocation, since a host that got
stuck while others were waited for is moved again at the end.

Both are about one host at a time. What carries the proof is `Standing`: at any moment of the first
round a locked host is either waited for, reported nowhere and not touched yet, or no longer waited
for and reported with the fate that its last relocation so far shows.
-/

namespace Rehome

variable {σ : Type} {fleet : Fleet σ} {settings : CheckedSettings}

/-! ## The last relocation of a host -/

/-- No relocation of a host begins in a trace. -/
def Untouched (h : Host) (trace : List Event) : Prop :=
  ∀ x ∈ exchanges trace, x.1 ≠ .fetchDescriptor h

/-- The last relocation of a host in a trace is an attempt of the journal that some moving of hosts
    in the trace kept. -/
def LastRelocation (fleet : Fleet σ) (settings : CheckedSettings) (h : Host) (trace : List Event)
    (j : Journal) (a : Attempt) : Prop :=
  ∃ earlier moving later hosts s duts s', trace = earlier ++ moving ++ later ∧
    (Pass.move settings hosts : Run fleet Duts).run s = ⟨.ok duts, moving, s'⟩ ∧
    exchanges moving = j.exchanges ∧ j.attempts.map Attempt.host = hosts.toList ∧
    a ∈ j.attempts ∧ a.host = h ∧ Untouched h later

/-- The last relocation of a host in a trace shows that it met a fate. -/
def Told (fleet : Fleet σ) (settings : CheckedSettings) (h : Host) (trace : List Event)
    (fate : Fate) : Prop :=
  ∃ j a, LastRelocation fleet settings h trace j a ∧
    j.Shows settings.assignRetry.maxAttempts a fate

variable {h : Host} {t t' : List Event} {fate : Fate}

theorem LastRelocation.host_eq {j : Journal} {a : Attempt}
    (hlast : LastRelocation fleet settings h t j a) : a.host = h := by
  obtain ⟨_, _, _, _, _, _, _, _, _, _, _, _, hh, _⟩ := hlast
  exact hh

theorem Untouched.append (ht : Untouched h t) (ht' : Untouched h t') : Untouched h (t ++ t') := by
  intro x hx
  rw [exchanges_append, List.mem_append] at hx
  rcases hx with hx | hx
  · exact ht x hx
  · exact ht' x hx

theorem Told.append (ht : Told fleet settings h t fate) (ht' : Untouched h t') :
    Told fleet settings h (t ++ t') fate := by
  obtain ⟨j, a, ⟨earlier, moving, later, hosts, s, duts, s', rfl, hrun, hex, hhosts, ha, hh, hu⟩,
    hshows⟩ := ht
  exact ⟨j, a, ⟨earlier, moving, later ++ t', hosts, s, duts, s', by simp, hrun, hex, hhosts, ha, hh,
    hu.append ht'⟩, hshows⟩

theorem Told.prepend (ht' : Told fleet settings h t' fate) :
    Told fleet settings h (t ++ t') fate := by
  obtain ⟨j, a, ⟨earlier, moving, later, hosts, s, duts, s', rfl, hrun, hex, hhosts, ha, hh, hu⟩,
    hshows⟩ := ht'
  exact ⟨j, a, ⟨t ++ earlier, moving, later, hosts, s, duts, s', by simp, hrun, hex, hhosts, ha, hh,
    hu⟩, hshows⟩

/-- Relocations show nothing about locks. -/
theorem Told.ne_lock (ht : Told fleet settings h t fate) : fate ≠ .stuck .lock := by
  rintro rfl
  obtain ⟨j, a, -, hshows⟩ := ht
  exact hshows

/-- Only the hosts of the attempts of a journal are relocated in it. -/
theorem Journal.mem_exchanges_fetchDescriptor {j : Journal} {x : Exchange} (hx : x ∈ j.exchanges)
    (hfetch : x.1 = .fetchDescriptor h) : ∃ a ∈ j.attempts, a.host = h := by
  rw [Journal.exchanges, List.mem_append, List.mem_flatMap, List.mem_map] at hx
  rcases hx with ⟨a, ha, hx⟩ | ⟨r, -, rfl⟩
  · refine ⟨a, ha, ?_⟩
    rw [Attempt.exchanges, List.mem_cons, List.mem_cons, List.mem_map] at hx
    rcases hx with rfl | rfl | ⟨effect, -, rfl⟩
    · exact Call.fetchDescriptor.inj hfetch
    · cases hfetch
    · cases hfetch
  · cases hfetch

namespace Pass

/-! ## The stages of a pass, for one host -/

/-- Moving hosts tells the fate of each of them, and touches no others. -/
theorem yields_move_told (h : Host) (hosts : HostSet) (s : σ) :
    (move settings hosts : Run fleet Duts).yields (fun duts t _ =>
      (h ∈ hosts → ∃ fate, duts.Reports h (some fate) ∧ Told fleet settings h t fate) ∧
      (¬ h ∈ hosts → duts.Reports h none ∧ Untouched h t)) s := by
  -- the journal counts only for the run that kept it, so that run is remembered
  refine ((yields_move hosts s).and (Run.wp_self _ s)).mono ?_ fun _ _ _ _ => trivial
  rintro duts t s' ⟨⟨j, hex, hhosts, htold, hrest⟩, hrun⟩
  have hmem : h ∈ hosts ↔ ∃ a ∈ j.attempts, a.host = h := by
    rw [← HostSet.mem_toList, ← hhosts, List.mem_map]
  constructor
  · intro hh
    obtain ⟨a, ha, rfl⟩ := hmem.mp hh
    obtain ⟨fate, hshows, hreports⟩ := htold a ha
    refine ⟨fate, hreports, j, a, ?_, hshows⟩
    exact ⟨[], t, [], hosts, s, duts, s', by simp, hrun, hex, hhosts, ha, rfl, fun x hx => nomatch hx⟩
  · intro hh
    refine ⟨hrest h hh, fun x hx hfetch => hh (hmem.mpr ?_)⟩
    rw [hex] at hx
    exact Journal.mem_exchanges_fetchDescriptor hx hfetch

/-- How a host that is to be moved stands: it is waited for and was not touched, or it is not and
    the trace tells the fate that is reported of it. -/
def Standing (fleet : Fleet σ) (settings : CheckedSettings) (h : Host) (trace : List Event)
    (waiting : HostSet) (duts : Duts) : Prop :=
  (h ∈ waiting ∧ duts.Reports h none ∧ Untouched h trace) ∨
  (¬ h ∈ waiting ∧ ∃ fate, duts.Reports h (some fate) ∧ Told fleet settings h trace fate)

/-- What the first round keeps for a host: its standing if it is to be moved, and what was reported
    of it before if not. -/
def RoundKeeps (fleet : Fleet σ) (settings : CheckedSettings) (locked : HostSet) (h : Host)
    (before : Option Fate) (trace : List Event) (waiting : HostSet) (duts : Duts) : Prop :=
  (h ∈ locked → Standing fleet settings h trace waiting duts) ∧
  (¬ h ∈ locked → ¬ h ∈ waiting ∧ duts.Reports h before)

variable {locked : HostSet} {before : Option Fate}

/-- A poll moves a host from those that are waited for to those whose fate is told, or leaves it
    where it is. -/
theorem yields_poll {w : Waiting} (hw : RoundKeeps fleet settings locked h before t
      w.monitor.watched w.duts) (s : σ) :
    (poll settings w : Run fleet Waiting).yields (fun w' t' _ =>
      RoundKeeps fleet settings locked h before (t ++ t') w'.monitor.watched w'.duts) s := by
  rw [poll, Run.yields_bind, Run.yields_call]
  intro rows s₁ _
  rw [Run.yields_bind]
  refine (yields_move_told h (w.monitor.poll rows).1.ready s₁).mono ?_
  rintro moved t' s₂ ⟨hready, hothers⟩
  obtain ⟨hlocked, hnot⟩ := hw
  have hquery : Untouched h [.called (fleet.time s) (.queryStatus w.monitor.watched) (.ok rows)] := by
    intro x hx hfetch
    rw [List.mem_singleton.mp hx] at hfetch
    exact nomatch hfetch
  show RoundKeeps fleet settings locked h before (t ++ ([.called (fleet.time s) _ _] ++ (t' ++ [])))
    (w.monitor.poll rows).2.watched (w.duts.merge moved)
  rw [List.append_nil]
  by_cases hh : h ∈ (w.monitor.poll rows).1.ready
  · -- whatever the rows say, a host that became ready was waited for
    have hwatched : h ∈ w.monitor.watched := Readiness.mem_watched_of_mem_ready hh
    have hleft : ¬ h ∈ (w.monitor.poll rows).2.watched := fun hin =>
      (Readiness.mem_watched_poll.mp hin).2 hh
    refine ⟨fun hl => ?_, fun hl => absurd hwatched (hnot hl).1⟩
    rcases hlocked hl with ⟨-, hreports, -⟩ | ⟨hout, -⟩
    · obtain ⟨fate, hmoved, htold⟩ := hready hh
      exact .inr ⟨hleft, fate, hreports.merge_right hmoved, htold.prepend.prepend⟩
    · exact absurd hwatched hout
  · obtain ⟨hmoved, huntouched⟩ := hothers hh
    have hstays : h ∈ (w.monitor.poll rows).2.watched ↔ h ∈ w.monitor.watched := by
      rw [Readiness.mem_watched_poll]
      exact ⟨fun hin => hin.1, fun hin => ⟨hin, hh⟩⟩
    constructor
    · intro hl
      rcases hlocked hl with ⟨hin, hreports, hu⟩ | ⟨hout, fate, hreports, htold⟩
      · exact .inl ⟨hstays.mpr hin, hreports.merge_left hmoved,
          hu.append (hquery.append huntouched)⟩
      · exact .inr ⟨fun hin => hout (hstays.mp hin), fate, hreports.merge_left hmoved,
          htold.append (hquery.append huntouched)⟩
    · intro hl
      obtain ⟨hout, hreports⟩ := hnot hl
      exact ⟨fun hin => hout (hstays.mp hin), hreports.merge_left hmoved⟩

/-- Both ways to do the first round keep it: moving all hosts at once, and polling until none is
    waited for or time is up. -/
theorem yields_firstRound {duts : Duts} (hduts : duts.Reports h before)
    (hbefore : h ∈ locked → before = none) (s : σ) :
    (firstRound settings locked duts : Run fleet (HostSet × Duts)).yields (fun r t _ =>
      RoundKeeps fleet settings locked h before t r.1 r.2) s := by
  by_cases himmediate : settings.migrateImmediately = true
  · rw [firstRound_immediately himmediate, Run.yields_bind]
    refine (yields_move_told h locked s).mono ?_
    rintro moved t s₁ ⟨hmoved, hothers⟩
    show RoundKeeps fleet settings locked h before (t ++ []) ∅ (duts.merge moved)
    rw [List.append_nil]
    refine ⟨fun hl => ?_, fun hl => ⟨HostSet.notMem_empty h, hduts.merge_left (hothers hl).1⟩⟩
    obtain ⟨fate, hreports, htold⟩ := hmoved hl
    have hnone : duts.Reports h none := hbefore hl ▸ hduts
    exact .inr ⟨HostSet.notMem_empty h, fate, hnone.merge_right hreports, htold⟩
  · rw [firstRound_waiting (Bool.eq_false_iff.mpr himmediate), Run.yields_bind]
    refine Run.yields_now.mpr (Run.yields_bind.mpr ?_)
    refine (Run.yields_repeatUntil (fun (w : Waiting) t _ =>
        RoundKeeps fleet settings locked h before t w.monitor.watched w.duts)
      (fun w t s hw => hw) (fun w t s hw _ _ => yields_poll hw s) (fun w t s hw _ => ?_)
      (fun w t s hw _ => hw) ?_).mono fun w t s₁ hw => ?_
    · have hslept : Untouched h [.slept (fleet.time s) settings.pollInterval] :=
        fun x hx => nomatch hx
      refine ⟨fun hl => ?_, hw.2⟩
      rcases hw.1 hl with ⟨hin, hreports, hu⟩ | ⟨hout, fate, hreports, htold⟩
      · exact .inl ⟨hin, hreports, hu.append hslept⟩
      · exact .inr ⟨hout, fate, hreports, htold.append hslept⟩
    · -- at the start all locked hosts are waited for
      show RoundKeeps fleet settings locked h before []
        (Readiness.watch locked settings.minReadyIntervals).watched duts
      rw [Readiness.watched_watch]
      exact ⟨fun hl => .inl ⟨hl, hbefore hl ▸ hduts, fun x hx => nomatch hx⟩,
        fun hl => ⟨hl, hduts⟩⟩
    · show RoundKeeps fleet settings locked h before (t ++ []) w.monitor.watched w.duts
      rw [List.append_nil]
      exact hw

/-- The sweep moves the hosts that are waited for or stuck once more, and says of each what it
    shows then. -/
theorem yields_sweep {waiting : HostSet} {duts : Duts}
    (hround : RoundKeeps fleet settings locked h before t waiting duts)
    (hbefore : before = none ∨ before = some (.stuck .lock)) (s : σ) :
    (sweep settings waiting duts : Run fleet Duts).yields (fun duts' t' _ =>
      (h ∈ locked → ∃ fate, duts'.Reports h (some fate) ∧ Told fleet settings h (t ++ t') fate) ∧
      (¬ h ∈ locked → duts'.Reports h before)) s := by
  rw [sweep, Run.yields_bind]
  refine (yields_move_told h (waiting ∪ duts.stuckAfterLock) s).mono ?_
  rintro moved t' s₁ ⟨hagain, hothers⟩
  show (_ → ∃ fate, ((duts.withoutStuck _).merge moved).Reports h (some fate) ∧
    Told fleet settings h (t ++ (t' ++ [])) fate) ∧ _
  rw [List.append_nil]
  obtain ⟨hlocked, hnot⟩ := hround
  constructor
  · intro hl
    rcases hlocked hl with ⟨hin, hreports, -⟩ | ⟨hout, fate, hreports, htold⟩
    · have hleft : h ∈ waiting ∪ duts.stuckAfterLock := HostSet.mem_union.mpr (.inl hin)
      obtain ⟨fate', hreports', htold'⟩ := hagain hleft
      have hcleared := hreports.withoutStuck_self hleft (by simp) (by simp)
      exact ⟨fate', hcleared.merge_right hreports', htold'.prepend⟩
    · by_cases hstuck : h ∈ duts.stuckAfterLock
      · -- it is moved again, and what its first relocation showed no longer counts
        have hleft : h ∈ waiting ∪ duts.stuckAfterLock := HostSet.mem_union.mpr (.inr hstuck)
        obtain ⟨fate', hreports', htold'⟩ := hagain hleft
        obtain ⟨stage, hstage, hne⟩ := hreports.mem_stuckAfterLock.mp hstuck
        have hcleared := hreports.withoutStuck_self hleft (by rw [hstage]; simp)
          (by rw [hstage]; simpa using hne)
        exact ⟨fate', hcleared.merge_right hreports', htold'.prepend⟩
      · have hleft : ¬ h ∈ waiting ∪ duts.stuckAfterLock := by
          rw [HostSet.mem_union]
          exact not_or.mpr ⟨hout, hstuck⟩
        obtain ⟨hreports', huntouched⟩ := hothers hleft
        exact ⟨fate, (hreports.withoutStuck hleft).merge_left hreports', htold.append huntouched⟩
  · intro hl
    obtain ⟨hout, hreports⟩ := hnot hl
    -- being stuck at locking is the one way to be stuck that the sweep does not see to
    have hleft : ¬ h ∈ waiting ∪ duts.stuckAfterLock := by
      rw [HostSet.mem_union, hreports.mem_stuckAfterLock]
      rintro (hin | ⟨stage, hstage, hne⟩)
      · exact hout hin
      · rcases hbefore with rfl | rfl
        · exact nomatch hstage
        · cases hstage
          exact hne rfl
    exact (hreports.withoutStuck hleft).merge_left (hothers hleft).1

/-! ## Locking -/

/-- The hosts are split by one status answer, which is read right after the attempts to lock. -/
theorem yields_secure (hosts : HostSet) (s : σ) :
    (secure settings hosts : Run fleet StepResult).yields (fun r t _ =>
      ∃ seen, r = .split hosts seen ∧ ∀ h ∈ hosts, ∃ locking attempted s₁ time rows,
        (Locking.run settings.lockRetry hosts settings.reason : Run fleet StepResult).run s =
          ⟨.ok attempted, locking, s₁⟩ ∧
        t = locking ++ [.called time (.queryStatus hosts) (.ok rows)] ∧
        seen = Locking.lockedAmong hosts rows) s := by
  by_cases hempty : hosts = ∅
  · rw [hempty, secure_empty]
    exact ⟨∅, rfl, fun h hh => absurd hh (HostSet.notMem_empty h)⟩
  · rw [secure_of_ne hempty, Run.yields_bind]
    refine Run.wp.mono (Run.wp_self _ s) ?_ fun _ _ _ _ => trivial
    intro attempted locking s₁ hrun
    rw [Run.yields_bind, Run.yields_call]
    intro rows s₂ _
    exact ⟨_, rfl, fun h _ => ⟨locking, attempted, s₁, _, rows, hrun, rfl, rfl⟩⟩

/-! ## The whole pass -/

/-- What the trace of a pass from a state shows of a host of the transfer group: it is stuck at
    locking when no row of the answer read after the attempts to lock shows it locked, and otherwise
    what was asked after that answer tells its fate. -/
def Shown (fleet : Fleet σ) (settings : CheckedSettings) (s : σ) (transfer : HostSet) (h : Host)
    (trace : List Event) (fate : Fate) : Prop :=
  ∃ locking attempted s₁ time rows moving,
    (Locking.run settings.lockRetry transfer settings.reason : Run fleet StepResult).run s =
      ⟨.ok attempted, locking, s₁⟩ ∧
    trace = locking ++ .called time (.queryStatus transfer) (.ok rows) :: moving ∧
    ((fate = .stuck .lock ∧ ¬ ∃ row ∈ rows, row.host = h ∧ row.locked = true) ∨
      (∃ row ∈ rows, row.host = h ∧ row.locked = true) ∧ Told fleet settings h moving fate)

/-- The summary of a plan reports a fate of each host to transfer, which is the one shown, and of
    no other host. -/
theorem yields_execute (h : Host) (plan : Plan) (s : σ) :
    (execute settings plan : Run fleet Summary).yields (fun summary t _ =>
      ∃ duts fate, summary = .ofDuts plan duts ∧ duts.Reports h fate ∧
        (fate.isSome = true ↔ h ∈ plan.transfer) ∧
        ∀ f, fate = some f → Shown fleet settings s plan.transfer h t f) s := by
  rw [execute, Run.yields_bind]
  refine (yields_secure plan.transfer s).mono ?_
  rintro r t₁ s₁ ⟨seen, rfl, hshown⟩
  have hsucceeded : h ∈ plan.transfer ∩ seen ↔ h ∈ plan.transfer ∧ h ∈ seen := HostSet.mem_inter
  have hfailed : h ∈ plan.transfer \ seen ↔ h ∈ plan.transfer ∧ ¬ h ∈ seen := HostSet.mem_sdiff
  -- what is reported before the first round is only that hosts were not seen locked
  obtain ⟨before, hbefore⟩ : ∃ before : Option Fate,
      before = if h ∈ plan.transfer \ seen then some (.stuck .lock) else none := ⟨_, rfl⟩
  have hreports := Duts.reports_notLocked (plan.transfer \ seen) h
  rw [← hbefore] at hreports
  have hlocked : h ∈ plan.transfer ∩ seen → before = none := by
    intro hh
    rw [hbefore, if_neg fun hf => (hfailed.mp hf).2 (hsucceeded.mp hh).2]
  have hcases : before = none ∨ before = some (.stuck .lock) := by
    rw [hbefore]
    split
    · exact .inr rfl
    · exact .inl rfl
  rw [Run.yields_bind]
  refine (yields_firstRound hreports hlocked s₁).mono ?_
  rintro ⟨waiting, duts⟩ t₂ s₂ hround
  show ((sweep settings waiting duts : Run fleet Duts) >>= fun duts =>
    pure (Summary.ofDuts plan duts)).yields _ s₂
  rw [Run.yields_bind]
  refine (yields_sweep hround hcases s₂).mono ?_
  rintro duts t₃ s₃ ⟨hmoved, hrest⟩
  by_cases hh : h ∈ plan.transfer ∩ seen
  · obtain ⟨htransfer, hseen⟩ := hsucceeded.mp hh
    obtain ⟨fate, hfate, htold⟩ := hmoved hh
    refine ⟨duts, some fate, rfl, hfate, ⟨fun _ => htransfer, fun _ => rfl⟩, ?_⟩
    rintro f ⟨⟩
    obtain ⟨locking, attempted, s', time, rows, hrun, rfl, rfl⟩ := hshown h htransfer
    exact ⟨locking, attempted, s', time, rows, t₂ ++ t₃, hrun, by simp,
      .inr ⟨(Locking.mem_lockedAmong.mp hseen).2, htold⟩⟩
  · -- a host that is not to be moved keeps what was reported of its lock
    refine ⟨duts, before, rfl, hrest hh, ?_, ?_⟩
    · rw [hbefore]
      by_cases hf : h ∈ plan.transfer \ seen
      · rw [if_pos hf]
        exact ⟨fun _ => (hfailed.mp hf).1, fun _ => rfl⟩
      · rw [if_neg hf]
        refine ⟨fun hs => ?_, fun ht => ?_⟩
        · exact nomatch hs
        · by_cases hseen : h ∈ seen
          · exact absurd (hsucceeded.mpr ⟨ht, hseen⟩) hh
          · exact absurd (hfailed.mpr ⟨ht, hseen⟩) hf
    · intro f hf
      by_cases hstuck : h ∈ plan.transfer \ seen
      · rw [hbefore, if_pos hstuck] at hf
        obtain ⟨htransfer, hunseen⟩ := hfailed.mp hstuck
        obtain ⟨locking, attempted, s', time, rows, hrun, rfl, rfl⟩ := hshown h htransfer
        refine ⟨locking, attempted, s', time, rows, t₂ ++ t₃, hrun, by simp, .inl ⟨?_, ?_⟩⟩
        · exact (Option.some.inj hf).symm
        · intro hrow
          exact hunseen (Locking.mem_lockedAmong.mpr ⟨htransfer, hrow⟩)
      · rw [hbefore, if_neg hstuck] at hf
        exact nomatch hf

/-- A pass with a result asked for a plan of its hosts with settings that have no fault and carried the
    plan out. -/
theorem yields_run {source : Planner} {settings : Settings} {hosts : HostSet}
    {previous : Option Summary} {post : Summary → List Event → σ → Prop} {s : σ}
    (h : ∀ checked plan, checked.toSettings = settings →
      source (candidates hosts previous) settings.ratio = .ok plan →
      (execute checked plan : Run fleet Summary).yields (fun summary t => post summary
        (.planned (fleet.time s) (candidates hosts previous) settings.ratio (.ok plan) :: t)) s) :
    (run source settings hosts previous : Run fleet Summary).yields post s := by
  rw [run, Run.yields_bind, Run.yields_ofExcept]
  intro checked hchecked
  rw [Run.yields_bind, Run.yields_plan]
  intro plan hplan
  obtain rfl := Settings.toSettings_of_check hchecked
  exact h checked plan rfl hplan

section

variable {source : Planner} {settings : Settings} {hosts : HostSet} {previous : Option Summary}
variable {s : σ} {summary : Summary}

private theorem run_shows
    (hok : ((run source settings hosts previous : Run fleet Summary).run s).result = .ok summary)
    (h : Host) :
    ∃ (checked : CheckedSettings) (fate : Option Fate) (executing : List Event),
      checked.toSettings = settings ∧
      ((run source settings hosts previous : Run fleet Summary).run s).trace =
        .planned (fleet.time s) (candidates hosts previous) settings.ratio (.ok summary.plan) ::
          executing ∧
      summary = .ofDuts summary.plan summary.duts ∧ summary.duts.Reports h fate ∧
      (fate.isSome = true ↔ h ∈ summary.plan.transfer) ∧
      ∀ f, fate = some f → Shown fleet checked s summary.plan.transfer h executing f := by
  have hrun : (run source settings hosts previous : Run fleet Summary).yields (fun summary t _ =>
      ∃ (checked : CheckedSettings) (fate : Option Fate) (executing : List Event),
        checked.toSettings = settings ∧
        t = .planned (fleet.time s) (candidates hosts previous) settings.ratio (.ok summary.plan) ::
          executing ∧
        summary = .ofDuts summary.plan summary.duts ∧ summary.duts.Reports h fate ∧
        (fate.isSome = true ↔ h ∈ summary.plan.transfer) ∧
        ∀ f, fate = some f → Shown fleet checked s summary.plan.transfer h executing f) s := by
    refine yields_run fun checked plan hchecked _ => (yields_execute h plan s).mono ?_
    rintro summary t s' ⟨duts, fate, rfl, hreports, hsome, hshown⟩
    exact ⟨checked, fate, t, hchecked, rfl, rfl, hreports, hsome, hshown⟩
  exact Run.wp.of_ok hrun hok

/-- A pass that ends with a summary accounts for every host of its transfer group once and for no
    other host, so the summary has no violations, and no step failed just when every host of the
    group was moved. -/
theorem summary_accounts
    (hok : ((run source settings hosts previous : Run fleet Summary).run s).result = .ok summary) :
    (∀ h, summary.duts.categories.countP (fun category => h ∈ category) =
      if h ∈ summary.plan.transfer then 1 else 0) ∧
    summary.violations = [] ∧
    (summary.failedStep = none ↔ summary.duts.migrated = summary.plan.transfer) := by
  have haccounts : summary.duts.AccountsFor summary.plan.transfer := by
    intro h
    obtain ⟨_, fate, _, -, -, -, hreports, hsome, -⟩ := run_shows hok h
    exact ⟨fate, hreports, hsome⟩
  obtain ⟨_, _, _, -, -, hsummary, -⟩ := run_shows hok ""
  refine ⟨fun h => ?_, ?_, ?_⟩
  · obtain ⟨fate, hreports, hsome⟩ := haccounts h
    rw [hreports.countP_categories]
    simp only [hsome]
  · rw [hsummary]
    exact Summary.violations_eq_nil haccounts
  · rw [hsummary]
    exact Summary.failedStep_eq_none_iff haccounts

/-- A fleet that lists a host nobody asked about and lists others twice or not at all, cannot add
    the first host at first, and answers the first request to rename with a wrong name. -/
def unsteadyFleet : Fleet (Scripted Memory) :=
  Scripted.fleet Memory.fleet [
    ⟨.queryStatus, some 4,
      .ok [⟨"b", true, false⟩, ⟨"z", true, false⟩, ⟨"d", true, false⟩, ⟨"b", true, false⟩]⟩,
    ⟨.add, some 1, .ok (.failed "try again")⟩,
    ⟨.rename, some 1, .ok ["z"]⟩]

/-- Four hosts: one is always busy, one is never renamed, one is never locked and one never gets a
    drone. -/
def unsteadyStart : Scripted Memory :=
  { inner := ⟨[("a", { busy := [true] }), ("b", { renameFails := true }),
      ("c", { unlockable := true }), ("d", { assignFails := true })], 0⟩ }

def unsteadyHosts : HostSet := .ofList ["a", "b", "c", "d"]

/-- Two polls, and two attempts at every stage. -/
def briefSettings : Settings :=
  { maxDuration := .ofSecs 60, minReadyIntervals := 1, lockRetry := .immediate 2,
    assignRetry := .immediate 2, renameRetry := .immediate 2 }

/-- Where the four hosts end up. What `b` failed first was its addition, which the sweep makes up
    for. -/
def unsteadySummary : Summary :=
  Summary.ofDuts (.movingAll unsteadyHosts) {
    migrated := .ofList ["a"]
    notLocked := .ofList ["c"]
    needsDroneAssignment := .ofList ["d"]
    needsRename := .ofList ["b"] }

theorem summary_accounts_unsteady :
    ((run (.fixed (.movingAll unsteadyHosts)) briefSettings unsteadyHosts none :
      Run unsteadyFleet Summary).run unsteadyStart).result = .ok unsteadySummary ∧
    (∀ h, unsteadySummary.duts.categories.countP (fun category => h ∈ category) =
      if h ∈ unsteadySummary.plan.transfer then 1 else 0) ∧
    unsteadySummary.violations = [] ∧
    (unsteadySummary.failedStep = none ↔
      unsteadySummary.duts.migrated = unsteadySummary.plan.transfer) := by
  have hok : ((run (.fixed (.movingAll unsteadyHosts)) briefSettings unsteadyHosts none :
      Run unsteadyFleet Summary).run unsteadyStart).result = .ok unsteadySummary := by
    decide +kernel
  exact ⟨hok, summary_accounts hok⟩

/-- What a summary says of a host of the transfer group is what the trace of the pass shows once the
    plan was asked for: that it was not locked, when no row of the answer read right after locking
    shows it locked, and otherwise how its last relocation ended. -/
theorem summary_matches_trace
    (hok : ((run source settings hosts previous : Run fleet Summary).run s).result = .ok summary)
    {h : Host} (hh : h ∈ summary.plan.transfer) :
    ∃ (checked : CheckedSettings) (locking : List Event) (attempted : StepResult) (s₁ : σ)
      (time : Nat) (rows : List StatusRow) (moving : List Event), checked.toSettings = settings ∧
      (Locking.run settings.lockRetry summary.plan.transfer settings.reason :
        Run fleet StepResult).run s = ⟨.ok attempted, locking, s₁⟩ ∧
      ((run source settings hosts previous : Run fleet Summary).run s).trace =
        .planned (fleet.time s) (candidates hosts previous) settings.ratio (.ok summary.plan) ::
          locking ++ .called time (.queryStatus summary.plan.transfer) (.ok rows) :: moving ∧
      (h ∈ summary.duts.notLocked ↔ ¬ ∃ row ∈ rows, row.host = h ∧ row.locked = true) ∧
      (¬ h ∈ summary.duts.notLocked → ∃ j a, LastRelocation fleet checked h moving j a ∧
        j.Agrees settings.assignRetry.maxAttempts a summary.duts) := by
  obtain ⟨checked, fate, _, rfl, hrun, -, hreports, hsome, hshown⟩ := run_shows hok h
  obtain ⟨f, rfl⟩ := Option.isSome_iff_exists.mp (hsome.mpr hh)
  obtain ⟨locking, attempted, s₁, time, rows, moving, hlocking, rfl, hcase⟩ := hshown f rfl
  have hnotLocked : h ∈ summary.duts.notLocked ↔ some f = some (.stuck .lock) :=
    hreports (.stuck .lock)
  refine ⟨checked, locking, attempted, s₁, time, rows, moving, rfl, hlocking, hrun, ?_, ?_⟩
  · rw [hnotLocked]
    rcases hcase with ⟨rfl, hnone⟩ | ⟨hrow, htold⟩
    · exact ⟨fun _ => hnone, fun _ => rfl⟩
    · exact ⟨fun heq => absurd (Option.some.inj heq) htold.ne_lock, fun hnone => absurd hrow hnone⟩
  · intro hlocked
    rcases hcase with ⟨rfl, -⟩ | ⟨-, j, a, hlast, hshows⟩
    · exact absurd (hnotLocked.mpr rfl) hlocked
    · have hhost : a.host = h := hlast.host_eq
      exact ⟨j, a, hlast, hshows.agrees (hhost ▸ hreports)⟩

/-- `b` is relocated twice and reported by the second time. -/
theorem summary_matches_trace_unsteady :
    ((run (.fixed (.movingAll unsteadyHosts)) briefSettings unsteadyHosts none :
      Run unsteadyFleet Summary).run unsteadyStart).result = .ok unsteadySummary ∧
    "b" ∈ unsteadySummary.plan.transfer ∧
    ∃ (checked : CheckedSettings) (locking : List Event) (time : Nat) (rows : List StatusRow)
      (moving : List Event) (j : Journal) (a : Attempt),
      ((run (.fixed (.movingAll unsteadyHosts)) briefSettings unsteadyHosts none :
        Run unsteadyFleet Summary).run unsteadyStart).trace =
        .planned 0 unsteadyHosts briefSettings.ratio (.ok (.movingAll unsteadyHosts)) ::
          locking ++ .called time (.queryStatus unsteadyHosts) (.ok rows) :: moving ∧
      (∃ row ∈ rows, row.host = "b" ∧ row.locked = true) ∧
      LastRelocation unsteadyFleet checked "b" moving j a ∧
      (∃ effect ∈ a.assigned, effect.isFailed = false) ∧
      ∀ r ∈ j.requests, ¬ "b" ∈ r.answer := by
  have hok : ((run (.fixed (.movingAll unsteadyHosts)) briefSettings unsteadyHosts none :
      Run unsteadyFleet Summary).run unsteadyStart).result = .ok unsteadySummary := by
    decide +kernel
  have hb : "b" ∈ unsteadySummary.plan.transfer := by decide +kernel
  have hlocked : ¬ "b" ∈ unsteadySummary.duts.notLocked := by decide +kernel
  have hrename : "b" ∈ unsteadySummary.duts.needsRename := by decide +kernel
  obtain ⟨checked, locking, _, _, time, rows, moving, -, -, htrace, hrows, hlast⟩ :=
    summary_matches_trace hok hb
  obtain ⟨j, a, hrelocation, hagrees⟩ := hlast hlocked
  have hhost : a.host = "b" := hrelocation.host_eq
  have hrow := of_not_not fun hnone => hlocked (hrows.mpr hnone)
  have hshown := hagrees.needsRename.mp (hhost ▸ hrename)
  rw [hhost] at hshown
  exact ⟨hok, hb, checked, locking, time, rows, moving, j, a, htrace, hrow, hrelocation, hshown⟩

end

end Pass

end Rehome
