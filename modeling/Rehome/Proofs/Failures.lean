import Rehome.Proofs.Composition

/-!
# Failures — when a pass ends without a summary

A pass ends early for one of three reasons: a check of its settings fails, the planner has no plan,
or a call gets no answer. Nothing that befalls a single host is one of them. The main law
(`run_fails_iff`) says so in both directions, and that the error is the one of the first check that
fails, of the planner, or of the call, after which nothing more is done. To ask the planner is an event
like a call, and the trace shows it once and before all calls, or not at all.

What carries it is one law for all the stages. A run is candid (`Run.Candid`) when it ends with a
result only if all its calls were answered, and otherwise right after the first one that was not,
with the failure of that call. What is put together from single steps is candid
(`Run.Composed.candid`), and so carrying a plan out is.
-/

namespace Rehome

/-! ## The checks of the settings -/

namespace Settings

/-- What is checked of the settings of a pass. -/
inductive Check where
  | reason
  | ratio
  | pollInterval
  | readyIntervals
  | lockAttempts
  | droneAttempts
  | renameAttempts
  deriving DecidableEq

/-- A number is finite and from zero to one. -/
def InUnitInterval (x : Numeric.Binary64) : Prop :=
  ∃ negative units fits, x = .finite negative units fits ∧
    0 ≤ Numeric.Binary.signed negative units ∧
    Numeric.Binary.signed negative units ≤ Numeric.binary64.one

namespace Check

/-- The checks, the first one first. -/
def all : List Check :=
  [reason, ratio, pollInterval, readyIntervals, lockAttempts, droneAttempts, renameAttempts]

/-- When a check fails. Two are made only of a pass that waits. -/
def Fails (settings : Settings) : Check → Prop
  | reason => ∀ c ∈ settings.reason.toList, Text.isBlank c = true
  | ratio => ¬ InUnitInterval settings.ratio
  | pollInterval => settings.migrateImmediately = false ∧ settings.pollInterval.nanos = 0
  | readyIntervals => settings.migrateImmediately = false ∧ settings.minReadyIntervals = 0
  | lockAttempts => settings.lockRetry.maxAttempts = 0
  | droneAttempts => settings.assignRetry.maxAttempts = 0
  | renameAttempts => settings.renameRetry.maxAttempts = 0

/-- The error that a failed check ends a pass with. -/
def error (settings : Settings) : Check → PassError
  | reason => .rejected .noReason
  | ratio => .rejected (.badRatio settings.ratio)
  | pollInterval => .badSetting .zeroPollInterval
  | readyIntervals => .badSetting .zeroReadyIntervals
  | lockAttempts => .badSetting (.noAttempts .lock)
  | droneAttempts => .badSetting (.noAttempts .droneAssignment)
  | renameAttempts => .badSetting (.noAttempts .rename)

/-- A check fails, and none before it does. -/
def FailsFirst (settings : Settings) (check : Check) : Prop :=
  ∃ earlier later, all = earlier ++ check :: later ∧ check.Fails settings ∧
    ∀ other ∈ earlier, ¬ other.Fails settings

theorem FailsFirst.fails {settings : Settings} {check : Check} (h : check.FailsFirst settings) :
    check.Fails settings := by
  obtain ⟨earlier, later, hall, hfails, hearlier⟩ := h
  exact hfails

end Check

theorem isRatio_iff {ratio : Numeric.Binary64} : isRatio ratio = true ↔ InUnitInterval ratio := by
  have hone : (.ofNat 1 : Numeric.Binary64).rank? = some (Numeric.binary64.one : Int) := by
    decide +kernel
  have hzero : (.signedZero false : Numeric.Binary64).rank? = some 0 := rfl
  rw [isRatio, Numeric.Binary.le, Numeric.Binary.le, hone, hzero]
  cases ratio with
  | nan negative => simp [InUnitInterval, Numeric.Binary.isFinite]
  | infinite negative => simp [InUnitInterval, Numeric.Binary.isFinite]
  | finite negative units fits =>
      simp only [Numeric.Binary.isFinite, Numeric.Binary.rank?, Bool.true_and, Bool.and_eq_true,
        decide_eq_true_eq]
      constructor
      · rintro ⟨hlow, hhigh⟩
        exact ⟨negative, units, fits, rfl, hlow, hhigh⟩
      · rintro ⟨negative', units', fits', heq, hlow, hhigh⟩
        cases heq
        exact ⟨hlow, hhigh⟩

namespace Check

variable {settings : Settings}

/-- The test that a check makes. -/
def fails (settings : Settings) : Check → Bool
  | reason => Text.isBlankText settings.reason
  | ratio => !isRatio settings.ratio
  | pollInterval => !settings.migrateImmediately && settings.pollInterval.nanos == 0
  | readyIntervals => !settings.migrateImmediately && settings.minReadyIntervals == 0
  | lockAttempts => settings.lockRetry.maxAttempts == 0
  | droneAttempts => settings.assignRetry.maxAttempts == 0
  | renameAttempts => settings.renameRetry.maxAttempts == 0

theorem fails_iff {check : Check} : check.fails settings = true ↔ check.Fails settings := by
  cases check with
  | reason => exact List.all_eq_true
  | ratio =>
      show (!isRatio settings.ratio) = true ↔ ¬ InUnitInterval settings.ratio
      rw [Bool.not_eq_true', ← Bool.not_eq_true, isRatio_iff]
  | _ => simp [fails, Fails]

theorem failsFirst_iff {check : Check} :
    check.FailsFirst settings ↔ all.find? (fails settings) = some check := by
  simp only [FailsFirst, List.find?_eq_some_iff_append, ← fails_iff, Bool.not_eq_true,
    Bool.not_eq_true']
  constructor
  · rintro ⟨earlier, later, hall, hfails, hearlier⟩
    exact ⟨hfails, earlier, later, hall, hearlier⟩
  · rintro ⟨hfails, earlier, later, hall, hearlier⟩
    exact ⟨earlier, later, hall, hfails, hearlier⟩

theorem mem_all (check : Check) : check ∈ all := by
  cases check <;> decide

end Check

variable {settings : Settings}

/-- The fault of settings is the error of the first check that fails. -/
theorem fault?_eq (settings : Settings) :
    settings.fault? = (Check.all.find? (Check.fails settings)).map (Check.error settings) := by
  rw [fault?, untried?, Check.all]
  simp only [List.find?_cons, List.find?_nil, Check.fails]
  cases Text.isBlankText settings.reason with
  | true => rfl
  | false =>
      cases isRatio settings.ratio with
      | false => rfl
      | true =>
          cases !settings.migrateImmediately && settings.pollInterval.nanos == 0 with
          | true => rfl
          | false =>
              cases !settings.migrateImmediately && settings.minReadyIntervals == 0 with
              | true => rfl
              | false =>
                  cases settings.lockRetry.maxAttempts == 0 <;>
                    cases settings.assignRetry.maxAttempts == 0 <;>
                      cases settings.renameRetry.maxAttempts == 0 <;> rfl

theorem check_of_failsFirst {check : Check} (hfirst : check.FailsFirst settings) :
    settings.check = .error (check.error settings) := by
  have hfault : settings.fault? = some (check.error settings) := by
    rw [fault?_eq, Check.failsFirst_iff.mp hfirst]
    rfl
  rw [Settings.check]
  split
  · rename_i e he
    rw [hfault] at he
    rw [← Option.some.inj he]
  · rename_i hnone
    rw [hfault] at hnone
    cases hnone

/-- Settings are refused by the first check that fails, and only if there is one. -/
theorem check_cases (settings : Settings) :
    (∃ check : Check, check.FailsFirst settings) ∨
      ∃ checked : CheckedSettings, settings.check = .ok checked ∧ checked.toSettings = settings ∧
        ∀ check : Check, ¬ check.Fails settings := by
  cases hfind : Check.all.find? (Check.fails settings) with
  | some check => exact .inl ⟨check, Check.failsFirst_iff.mpr hfind⟩
  | none =>
      have hfault : settings.fault? = none := by
        rw [fault?_eq, hfind]
        rfl
      obtain ⟨checked, hchecked, hsettings⟩ := check_of_fault?_eq_none hfault
      refine .inr ⟨checked, hchecked, hsettings, fun check hfails => ?_⟩
      exact List.find?_eq_none.mp hfind check check.mem_all (Check.fails_iff.mpr hfails)

end Settings

/-! ## Traces and failures -/

/-- Why a call was not answered, if an event is such a call. -/
def Event.failure? : Event → Option ToolFailure
  | .called _ _ (.error failure) => some failure
  | _ => none

/-- The failures of the calls of a trace, in order. -/
def failures (trace : List Event) : List ToolFailure := trace.filterMap Event.failure?

/-- The last event of a trace is a call that failed, and no other call of it did. -/
def EndsAt (failure : ToolFailure) (trace : List Event) : Prop :=
  ∃ earlier time call, trace = earlier ++ [.called time call (.error failure)] ∧
    failures earlier = []

theorem failures_append (a b : List Event) : failures (a ++ b) = failures a ++ failures b :=
  List.filterMap_append

theorem EndsAt.prepend {failure : ToolFailure} {before trace : List Event}
    (hbefore : failures before = []) (h : EndsAt failure trace) :
    EndsAt failure (before ++ trace) := by
  obtain ⟨earlier, time, call, rfl, hearlier⟩ := h
  refine ⟨before ++ earlier, time, call, (List.append_assoc ..).symm, ?_⟩
  rw [failures_append, hbefore, hearlier]
  rfl

theorem EndsAt.failures {failure : ToolFailure} {trace : List Event} (h : EndsAt failure trace) :
    failures trace = [failure] := by
  obtain ⟨earlier, time, call, rfl, hearlier⟩ := h
  rw [failures_append, hearlier]
  rfl

/-! ## Candid runs -/

namespace Run

variable {σ α : Type} {fleet : Fleet σ}

/-- A run ends with a result only if all its calls were answered, and otherwise at the first call
    that was not, with the failure of that call. -/
def Candid (x : Run fleet α) : Prop :=
  ∀ s, x.wp (fun _ t _ => failures t = [])
    (fun e t _ => ∃ failure, e = .tool failure ∧ EndsAt failure t) s

theorem Candid.cases {x : Run fleet α} (hx : x.Candid) (s : σ) :
    (∃ a, (x.run s).result = .ok a ∧ failures (x.run s).trace = []) ∨
      ∃ failure, (x.run s).result = .error (.tool failure) ∧ EndsAt failure (x.run s).trace := by
  cases hresult : (x.run s).result with
  | ok a => exact .inl ⟨a, rfl, (hx s).of_ok hresult⟩
  | error e =>
      obtain ⟨failure, rfl, hends⟩ := (hx s).of_error hresult
      exact .inr ⟨failure, rfl, hends⟩

/-- A call that is not answered is the last thing that a candid run does, and the error that it ends
    with. -/
theorem Candid.endsAt {x : Run fleet α} (hx : x.Candid) {s : σ} {failure : ToolFailure}
    (hfailure : failure ∈ failures (x.run s).trace) :
    (x.run s).result = .error (.tool failure) ∧ EndsAt failure (x.run s).trace := by
  rcases hx.cases s with ⟨a, -, hanswered⟩ | ⟨last, hresult, hends⟩
  · rw [hanswered] at hfailure
    exact nomatch hfailure
  · rw [hends.failures, List.mem_singleton] at hfailure
    subst hfailure
    exact ⟨hresult, hends⟩

theorem Candid.fails_iff {x : Run fleet α} (hx : x.Candid) (s : σ) :
    (∃ e, (x.run s).result = .error e) ↔ ∃ failure, failure ∈ failures (x.run s).trace := by
  constructor
  · rintro ⟨e, he⟩
    rcases hx.cases s with ⟨a, hresult, -⟩ | ⟨last, -, hends⟩
    · exact nomatch hresult.symm.trans he
    · refine ⟨last, ?_⟩
      rw [hends.failures]
      exact List.mem_singleton_self last
  · rintro ⟨failure, hfailure⟩
    exact ⟨_, (hx.endsAt hfailure).1⟩

/-- After calls that were all answered a candid run leaves a trace that is as it should be. -/
theorem Candid.after {x : Run fleet α} (hx : x.Candid) {past : List Event}
    (hpast : failures past = []) (s : σ) :
    x.wp (fun _ t _ => failures (past ++ t) = [])
      (fun e t _ => ∃ failure, e = .tool failure ∧ EndsAt failure (past ++ t)) s := by
  refine wp.mono (hx s) ?_ ?_
  · intro a t s' ht
    rw [failures_append, hpast, ht]
    rfl
  · rintro e t s' ⟨failure, rfl, hends⟩
    exact ⟨failure, rfl, hends.prepend hpast⟩

/-- Runs that are put together from single steps are candid. -/
theorem Composed.candid {x : Run fleet α} (hx : x.Composed) : x.Candid := by
  induction hx with
  | pure a => exact fun _ => rfl
  | call c =>
      intro s
      rw [wp_call]
      exact ⟨fun _ _ _ => rfl, fun failure _ _ => ⟨failure, rfl, [], _, c, rfl, rfl⟩⟩
  | sleep span => exact fun _ => rfl
  | now => exact fun _ => rfl
  | bind _ _ ihx ihf =>
      intro s
      rw [wp_bind]
      refine wp.mono (ihx s) ?_ fun _ _ _ he => he
      intro a t s' ht
      exact (ihf a).after ht s'
  | @repeatUntil _ deadline pause hpause done step a _ ih =>
      intro s
      refine wp_repeatUntil (fun _ t _ => failures t = []) (fun _ _ _ ht => ht) ?_ ?_
        (fun _ _ _ ht _ => ht) rfl
      · intro b t s' ht _ _
        exact (ih b).after ht s'
      · intro b t s' ht _
        rw [failures_append, ht]
        rfl

end Run

/-! ## The whole pass -/

namespace Pass

variable {σ : Type} {fleet : Fleet σ}
variable {source : Planner} {settings : Settings} {hosts : HostSet} {previous : Option Summary}

/-- What a pass comes to: the error of a check, the error of the planner, or carrying out a plan. -/
theorem run_cases (fleet : Fleet σ) (source : Planner) (settings : Settings) (hosts : HostSet)
    (previous : Option Summary) (s : σ) :
    (∃ check : Settings.Check, check.FailsFirst settings ∧
      (run source settings hosts previous : Run fleet Summary).run s =
        ⟨.error (check.error settings), [], s⟩) ∨
    (∀ check : Settings.Check, ¬ check.Fails settings) ∧
      ((∃ e, source (candidates hosts previous) settings.ratio = .error e ∧
        (run source settings hosts previous : Run fleet Summary).run s = ⟨.error e,
          [.planned (fleet.time s) (candidates hosts previous) settings.ratio (.error e)], s⟩) ∨
      ∃ checked plan, source (candidates hosts previous) settings.ratio = .ok plan ∧
        (run source settings hosts previous : Run fleet Summary).run s =
          ⟨((execute checked plan : Run fleet Summary).run s).result,
            .planned (fleet.time s) (candidates hosts previous) settings.ratio (.ok plan) ::
              ((execute checked plan : Run fleet Summary).run s).trace,
            ((execute checked plan : Run fleet Summary).run s).state⟩) := by
  rcases settings.check_cases with ⟨check, hfirst⟩ | ⟨checked, hchecked, -, hnone⟩
  · refine .inl ⟨check, hfirst, ?_⟩
    rw [run_of_fault (Settings.check_of_failsFirst hfirst)]
    rfl
  · refine .inr ⟨hnone, ?_⟩
    cases hplan : source (candidates hosts previous) settings.ratio with
    | error e => exact .inl ⟨e, rfl, run_of_no_plan hchecked hplan s⟩
    | ok plan => exact .inr ⟨checked, plan, rfl, run_of_plan hchecked hplan s⟩

theorem failures_planned (time : Nat) (hosts : HostSet) (ratio : Numeric.Binary64)
    (reply : Except PassError Plan) (trace : List Event) :
    failures (.planned time hosts ratio reply :: trace) = failures trace := rfl

/-- A pass ends without a summary just when a check of its settings fails, the planner has no plan or
    a call is not answered. The first check that fails decides on the error before the planner is
    asked, the planner's error is passed on before anything is called, and a call that is not
    answered is the last thing that is done. The planner is asked first of all and only once. -/
theorem run_fails_iff (source : Planner) (settings : Settings) (hosts : HostSet)
    (previous : Option Summary) (s : σ) :
    (∀ check : Settings.Check, check.FailsFirst settings →
      (run source settings hosts previous : Run fleet Summary).run s =
        ⟨.error (check.error settings), [], s⟩) ∧
    ((∀ check : Settings.Check, ¬ check.Fails settings) → ∀ e,
      source (candidates hosts previous) settings.ratio = .error e →
      (run source settings hosts previous : Run fleet Summary).run s = ⟨.error e,
        [.planned (fleet.time s) (candidates hosts previous) settings.ratio (.error e)], s⟩) ∧
    ((∀ check : Settings.Check, ¬ check.Fails settings) → ∀ plan,
      source (candidates hosts previous) settings.ratio = .ok plan →
      ∃ later, plans later = [] ∧
        ((run source settings hosts previous : Run fleet Summary).run s).trace =
          .planned (fleet.time s) (candidates hosts previous) settings.ratio (.ok plan) ::
            later) ∧
    (∀ failure ∈ failures ((run source settings hosts previous : Run fleet Summary).run s).trace,
      ((run source settings hosts previous : Run fleet Summary).run s).result =
        .error (.tool failure) ∧
      EndsAt failure ((run source settings hosts previous : Run fleet Summary).run s).trace) ∧
    ((∃ e, ((run source settings hosts previous : Run fleet Summary).run s).result = .error e) ↔
      (∃ check : Settings.Check, check.Fails settings) ∨
      (∃ e, source (candidates hosts previous) settings.ratio = .error e) ∨
      ∃ failure,
        failure ∈ failures ((run source settings hosts previous : Run fleet Summary).run s).trace) := by
  rcases run_cases fleet source settings hosts previous s with
    ⟨check, hfirst, hrun⟩ | ⟨hnone, ⟨e, hplan, hrun⟩ | ⟨checked, plan, hplan, hrun⟩⟩
  · rw [hrun]
    refine ⟨fun other hother => ?_, fun hnone => absurd hfirst.fails (hnone check),
      fun hnone => absurd hfirst.fails (hnone check), ?_, ?_⟩
    · rw [← hrun, run_of_fault (Settings.check_of_failsFirst hother)]
      rfl
    · intro failure hfailure
      exact nomatch hfailure
    · exact ⟨fun _ => .inl ⟨check, hfirst.fails⟩, fun _ => ⟨_, rfl⟩⟩
  · rw [hrun]
    refine ⟨fun check hfirst => ?_, fun _ e' hplan' => ?_, fun _ plan hplan' => ?_, ?_, ?_⟩
    · exact absurd hfirst.fails (hnone check)
    · cases hplan.symm.trans hplan'
      rfl
    · exact nomatch hplan.symm.trans hplan'
    · intro failure hfailure
      exact nomatch hfailure
    · exact ⟨fun _ => .inr (.inl ⟨e, hplan⟩), fun _ => ⟨e, rfl⟩⟩
  · rw [hrun]
    dsimp only
    rw [failures_planned]
    refine ⟨fun check hfirst => ?_, fun _ e hplan' => ?_, fun _ plan' hplan' => ?_, ?_, ?_⟩
    · exact absurd hfirst.fails (hnone check)
    · exact nomatch hplan.symm.trans hplan'
    · cases hplan.symm.trans hplan'
      exact ⟨_, (composed_execute checked plan).plans_eq_nil s, rfl⟩
    · intro failure hfailure
      have hasked : failures
          [.planned (fleet.time s) (candidates hosts previous) settings.ratio (.ok plan)] = [] := rfl
      obtain ⟨hresult, hends⟩ := (composed_execute checked plan).candid.endsAt hfailure
      exact ⟨hresult, hends.prepend hasked⟩
    · rw [(composed_execute checked plan).candid.fails_iff s]
      constructor
      · intro hfails
        exact .inr (.inr hfails)
      · rintro (⟨check, hfails⟩ | ⟨e, hplan'⟩ | hfails)
        · exact absurd hfails (hnone check)
        · exact nomatch hplan.symm.trans hplan'
        · exact hfails

end Pass

end Rehome
