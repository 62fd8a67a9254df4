import Rehome.Proofs.Accounting

/-!
# Courses — the trace of a pass, stage by stage

What a pass did is one flat trace. Some of its laws are about one stage only: about hosts that were
moved before the sweep, or about the hosts that the sweep was given. `Pass.course` cuts the trace
where one stage ends and the next begins (`trace_eq_course`), and names the hosts that were handed
over there. A pass that ended early has no later stages: their part of the trace is empty.

The first round is a loop, or a single move. Its laws need no induction of their own: they follow
from what a look at the statuses keeps, and a move (`yields_firstRound_of_steps`).
-/

namespace Rehome

namespace Pass

/-- What the stages of a pass did, and the hosts that each of them handed to the next. -/
structure Course where
  /-- Asking for a plan. -/
  planning : List Event := []
  /-- The attempts to lock the hosts of the plan, and the look at which of them are locked. -/
  locking : List Event := []
  /-- The hosts that were verified locked. -/
  locked : HostSet := ∅
  /-- Moving hosts at once, or as they become idle. -/
  firstRound : List Event := []
  /-- The hosts that the sweep is given. -/
  leftovers : HostSet := ∅
  /-- Moving what is left. -/
  sweep : List Event := []

/-- The whole trace. -/
def Course.trace (c : Course) : List Event := c.planning ++ c.locking ++ c.firstRound ++ c.sweep

variable {σ : Type}

/-- The course of carrying a plan out from a state. -/
def executionCourse (fleet : Fleet σ) (settings : CheckedSettings) (plan : Plan) (s : σ) : Course :=
  let secured := (secure settings plan.transfer : Run fleet StepResult).run s
  match secured.result with
  | .error _ => { locking := secured.trace }
  | .ok verified =>
    let round := (firstRound settings verified.succeeded { notLocked := verified.failed } :
      Run fleet (HostSet × Duts)).run secured.state
    match round.result with
    | .error _ =>
      { locking := secured.trace, locked := verified.succeeded, firstRound := round.trace }
    | .ok (waiting, duts) =>
      { locking := secured.trace
        locked := verified.succeeded
        firstRound := round.trace
        leftovers := waiting ∪ duts.stuckAfterLock
        sweep := ((Pass.sweep settings waiting duts : Run fleet Duts).run round.state).trace }

/-- The course of a pass from a state. -/
def course (fleet : Fleet σ) (source : Planner) (settings : Settings) (hosts : HostSet)
    (previous : Option Summary) (s : σ) : Course :=
  match settings.check with
  | .error _ => {}
  | .ok checked =>
    let reply := source (candidates hosts previous) settings.ratio
    let planning := [.planned (fleet.time s) (candidates hosts previous) settings.ratio reply]
    match reply with
    | .error _ => { planning }
    | .ok plan => { executionCourse fleet checked plan s with planning }

variable {fleet : Fleet σ} {checked : CheckedSettings} {settings : Settings} {source : Planner}
variable {hosts : HostSet} {previous : Option Summary} {plan : Plan} {s : σ} {summary : Summary}

/-! ## The course is the trace -/

theorem trace_execute (planning : List Event) :
    planning ++ ((execute checked plan : Run fleet Summary).run s).trace =
      { executionCourse fleet checked plan s with planning }.trace := by
  rw [execute, Run.run_bind, Run.andThen, executionCourse]
  cases (secure checked plan.transfer : Run fleet StepResult).run s with
  | mk result locking s₁ =>
      cases result with
      | error e => simp [Course.trace]
      | ok verified =>
          simp only [Run.run_bind, Run.andThen]
          cases (firstRound checked verified.succeeded { notLocked := verified.failed } :
              Run fleet (HostSet × Duts)).run s₁ with
          | mk result round s₂ =>
              cases result with
              | error e => simp [Course.trace]
              | ok handed =>
                  obtain ⟨waiting, duts⟩ := handed
                  dsimp only
                  cases (Pass.sweep checked waiting duts : Run fleet Duts).run s₂ with
                  | mk result sweeping s₃ => cases result <;> simp [Course.trace]

/-- A pass without a plan does nothing more, and one with a plan carries it out. Nothing is called for
    the plan. -/
theorem course_cases (fleet : Fleet σ) (source : Planner) (settings : Settings) (hosts : HostSet)
    (previous : Option Summary) (s : σ) :
    ∃ planning, exchanges planning = [] ∧
      ((∃ e, (run source settings hosts previous : Run fleet Summary).run s =
          ⟨.error e, planning, s⟩ ∧
        course fleet source settings hosts previous s = { planning }) ∨
      ∃ checked plan, checked.toSettings = settings ∧
        (run source settings hosts previous : Run fleet Summary).run s =
          ⟨((execute checked plan : Run fleet Summary).run s).result,
            planning ++ ((execute checked plan : Run fleet Summary).run s).trace,
            ((execute checked plan : Run fleet Summary).run s).state⟩ ∧
        course fleet source settings hosts previous s =
          { executionCourse fleet checked plan s with planning }) := by
  cases hcheck : settings.check with
  | error e =>
      refine ⟨[], rfl, .inl ⟨e, ?_, ?_⟩⟩
      · rw [run_of_fault hcheck]
        rfl
      · rw [course, hcheck]
  | ok checked =>
      rw [course, hcheck]
      dsimp only
      cases hplan : source (candidates hosts previous) settings.ratio with
      | error e => exact ⟨_, rfl, .inl ⟨e, run_of_no_plan hcheck hplan s, rfl⟩⟩
      | ok plan =>
          exact ⟨_, rfl, .inr ⟨checked, plan, Settings.toSettings_of_check hcheck,
            run_of_plan hcheck hplan s, rfl⟩⟩

/-- The stages of a pass make up its trace. -/
theorem trace_eq_course :
    ((run source settings hosts previous : Run fleet Summary).run s).trace =
      (course fleet source settings hosts previous s).trace := by
  obtain ⟨planning, -, hcases⟩ := course_cases fleet source settings hosts previous s
  rcases hcases with ⟨e, hrun, hcourse⟩ | ⟨checked, plan, -, hrun, hcourse⟩
  · rw [hrun, hcourse]
    simp [Course.trace]
  · rw [hrun, hcourse, ← trace_execute]

/-- Asking for a plan is no call. -/
theorem exchanges_planning :
    exchanges (course fleet source settings hosts previous s).planning = [] := by
  obtain ⟨planning, hnone, hcases⟩ := course_cases fleet source settings hosts previous s
  rcases hcases with ⟨e, -, hcourse⟩ | ⟨checked, plan, -, -, hcourse⟩
  · rw [hcourse]
    exact hnone
  · rw [hcourse]
    exact hnone

/-! ## Its stages are runs -/

/-- A pass that did something in its first round ran it. -/
theorem firstRound_course (hsome : (course fleet source settings hosts previous s).firstRound ≠ []) :
    ∃ checked locked duts s₁, checked.toSettings = settings ∧
      (course fleet source settings hosts previous s).firstRound =
        ((firstRound checked locked duts : Run fleet (HostSet × Duts)).run s₁).trace := by
  obtain ⟨planning, -, hcases⟩ := course_cases fleet source settings hosts previous s
  rcases hcases with ⟨e, -, hcourse⟩ | ⟨checked, plan, hchecked, -, hcourse⟩
  · rw [hcourse] at hsome
    exact absurd rfl hsome
  · rw [hcourse, executionCourse] at hsome ⊢
    cases hsecured : (secure checked plan.transfer : Run fleet StepResult).run s with
    | mk result locking s₁ =>
        rw [hsecured] at hsome
        cases result with
        | error e => exact absurd rfl hsome
        | ok verified =>
            refine ⟨checked, verified.succeeded, { notLocked := verified.failed }, s₁, hchecked, ?_⟩
            dsimp only
            cases (firstRound checked verified.succeeded { notLocked := verified.failed } :
                Run fleet (HostSet × Duts)).run s₁ with
            | mk result round s₂ => cases result <;> rfl

/-- A pass that ends with a summary ran all of its stages, each from where the one before it ended. -/
theorem course_of_ok
    (hok : ((run source settings hosts previous : Run fleet Summary).run s).result = .ok summary) :
    ∃ checked verified s₁ waiting duts s₂ duts' s₃, checked.toSettings = settings ∧
      (secure checked summary.plan.transfer : Run fleet StepResult).run s =
        ⟨.ok verified, (course fleet source settings hosts previous s).locking, s₁⟩ ∧
      (course fleet source settings hosts previous s).locked = verified.succeeded ∧
      (firstRound checked verified.succeeded { notLocked := verified.failed } :
          Run fleet (HostSet × Duts)).run s₁ =
        ⟨.ok (waiting, duts), (course fleet source settings hosts previous s).firstRound, s₂⟩ ∧
      (course fleet source settings hosts previous s).leftovers = waiting ∪ duts.stuckAfterLock ∧
      (sweep checked waiting duts : Run fleet Duts).run s₂ =
        ⟨.ok duts', (course fleet source settings hosts previous s).sweep, s₃⟩ := by
  obtain ⟨planning, -, hcases⟩ := course_cases fleet source settings hosts previous s
  rcases hcases with ⟨e, hrun, -⟩ | ⟨checked, plan, hchecked, hrun, hcourse⟩
  · rw [hrun] at hok
    exact nomatch hok
  · rw [hrun] at hok
    dsimp only at hok
    rw [execute] at hok
    obtain ⟨verified, locking, s₁, hsecured, hok⟩ := Run.ok_of_bind hok
    obtain ⟨⟨waiting, duts⟩, round, s₂, hround, hok⟩ := Run.ok_of_bind hok
    obtain ⟨duts', sweeping, s₃, hswept, hok⟩ := Run.ok_of_bind hok
    cases hok
    rw [hcourse, executionCourse, hsecured]
    dsimp only
    rw [hround]
    dsimp only
    rw [hswept]
    exact ⟨checked, verified, s₁, waiting, duts, s₂, duts', s₃, hchecked, hsecured, rfl, hround, rfl,
      hswept⟩

/-! ## The first round, step by step -/

/-- The induction over the first round: what asking about the hosts that are waited for keeps, and
    moving some of them, holds at its end. -/
theorem yields_firstRound_of_steps {locked : HostSet} {duts : Duts}
    (inv : HostSet → Duts → List Exchange → Prop)
    (hlook : ∀ waiting duts t rows, inv waiting duts t →
      inv waiting duts (t ++ [⟨.queryStatus waiting, .ok rows⟩]))
    (hmove : ∀ waiting duts t ready s, inv waiting duts t → ready ⊆ waiting →
      (move checked ready : Run fleet Duts).yields (fun moved t' _ =>
        inv (waiting \ ready) (duts.merge moved) (t ++ exchanges t')) s)
    (hstart : inv locked duts []) (s : σ) :
    (firstRound checked locked duts : Run fleet (HostSet × Duts)).yields (fun r t _ =>
      inv r.1 r.2 (exchanges t)) s := by
  by_cases himmediate : checked.migrateImmediately = true
  · rw [firstRound_immediately himmediate, Run.yields_bind]
    refine (hmove locked duts [] locked s hstart fun _ hh => hh).mono ?_
    intro moved t s₁ hmoved
    show inv ∅ (duts.merge moved) (exchanges (t ++ []))
    rw [List.append_nil, ← HostSet.sdiff_self locked]
    exact hmoved
  · rw [firstRound_waiting (Bool.eq_false_iff.mpr himmediate), Run.yields_bind]
    refine Run.yields_now.mpr (Run.yields_bind.mpr ?_)
    refine (Run.yields_repeatUntil (fun (w : Waiting) t _ =>
        inv w.monitor.watched w.duts (exchanges t))
      (fun _ _ _ hw => hw) (fun w t s hw _ _ => ?_) (fun w t s hw _ => ?_)
      (fun _ _ _ hw _ => hw) ?_).mono fun w t s₁ hw => ?_
    · rw [poll, Run.yields_bind, Run.yields_call]
      intro rows s₁ _
      rw [Run.yields_bind]
      refine (hmove _ _ _ (w.monitor.poll rows).1.ready s₁ (hlook _ _ _ rows hw) fun h hh =>
        Readiness.mem_watched_of_mem_ready hh).mono ?_
      intro moved t' s₂ hmoved
      have hrest : (w.monitor.poll rows).2.watched =
          w.monitor.watched \ (w.monitor.poll rows).1.ready := by
        ext h
        rw [Readiness.mem_watched_poll, HostSet.mem_sdiff]
      show inv (w.monitor.poll rows).2.watched (w.duts.merge moved)
        (exchanges (t ++ (.called _ _ (.ok rows) :: (t' ++ []))))
      rw [hrest, List.append_nil, exchanges_append, exchanges_called, ← List.singleton_append,
        ← List.append_assoc]
      exact hmoved
    · -- a pause is no exchange
      rw [exchanges_append]
      show inv _ _ (exchanges t ++ [])
      rw [List.append_nil]
      exact hw
    · show inv (Readiness.watch locked checked.minReadyIntervals).watched duts []
      rw [Readiness.watched_watch]
      exact hstart
    · show inv w.monitor.watched w.duts (exchanges (t ++ []))
      rw [List.append_nil]
      exact hw

end Pass

end Rehome
