import Rehome.Pass

/-!
# The stages of a pass, opened once

What the laws of the stages have in common is how a stage is put together. The equations here say
that, for each stage and each case of it, as one sequence of steps; the laws rewrite with them and
never open a definition. Sequences are flattened by the laws of runs in a row.
-/

namespace Rehome

/-! ## Runs in a row -/

namespace Run

variable {σ α β γ : Type} {fleet : Fleet σ}

theorem ext {x y : Run fleet α} (h : ∀ s, x.run s = y.run s) : x = y := by
  cases x with
  | mk run time_le =>
      cases y with
      | mk run' time_le' =>
          have hrun : run = run' := funext h
          subst hrun
          rfl

private theorem andThen_assoc (o : Outcome σ α) (f : α → σ → Outcome σ β)
    (g : β → σ → Outcome σ γ) :
    andThen (andThen o f) g = andThen o fun a s => andThen (f a s) g := by
  obtain ⟨result, trace, state⟩ := o
  cases result with
  | error e => rfl
  | ok a =>
      cases hf : f a state with
      | mk result' trace' state' =>
          cases result' with
          | error e => simp only [andThen, hf]
          | ok b => simp only [andThen, hf, List.append_assoc]

theorem bind_assoc (x : Run fleet α) (f : α → Run fleet β) (g : β → Run fleet γ) :
    x >>= f >>= g = x >>= fun a => f a >>= g :=
  ext fun s => andThen_assoc (x.run s) (fun a => (f a).run) fun b => (g b).run

theorem pure_bind (a : α) (f : α → Run fleet β) : Pure.pure a >>= f = f a :=
  ext fun _ => rfl

/-- Two runs in a row end with a result when the first does and then the second. -/
theorem ok_of_bind {x : Run fleet α} {f : α → Run fleet β} {b : β} {s : σ}
    (hok : ((x >>= f).run s).result = .ok b) :
    ∃ a t s', x.run s = ⟨.ok a, t, s'⟩ ∧ ((f a).run s').result = .ok b := by
  rw [run_bind, andThen] at hok
  cases hx : x.run s with
  | mk result t s' =>
      rw [hx] at hok
      cases result with
      | error e => exact nomatch hok
      | ok a => exact ⟨a, t, s', rfl, hok⟩

end Run

/-! ## Checked settings -/

theorem Settings.toSettings_of_check {settings : Settings} {checked : CheckedSettings}
    (h : settings.check = .ok checked) : checked.toSettings = settings := by
  rw [Settings.check] at h
  split at h
  · exact nomatch h
  · cases h
    rfl

/-- Settings without a fault pass the check as they are. -/
theorem Settings.check_of_fault?_eq_none {settings : Settings} (hf : settings.fault? = none) :
    ∃ checked : CheckedSettings, settings.check = .ok checked ∧ checked.toSettings = settings := by
  refine ⟨⟨settings, hf⟩, ?_, rfl⟩
  rw [Settings.check]
  split
  · rename_i e he
    exact nomatch hf.symm.trans he
  · rfl

/-- Checked settings give a reason, and attempts for every stage. -/
theorem CheckedSettings.tries_everything (settings : CheckedSettings) :
    Text.isBlankText settings.reason = false ∧ 0 < settings.lockRetry.maxAttempts ∧
      0 < settings.assignRetry.maxAttempts ∧ 0 < settings.renameRetry.maxAttempts := by
  have hf := settings.faultless
  rw [Settings.fault?] at hf
  by_cases hblank : Text.isBlankText settings.reason = true
  · rw [if_pos hblank] at hf
    exact nomatch hf
  · rw [if_neg hblank] at hf
    have huntried : settings.untried? = none := by
      split at hf
      · exact nomatch hf
      · split at hf
        · exact nomatch hf
        · split at hf
          · exact nomatch hf
          · exact Option.map_eq_none_iff.mp hf
    have hall := List.find?_eq_none.mp (Option.map_eq_none_iff.mp huntried)
    have hlock := hall (.lock, settings.lockRetry) (by simp)
    have hassign := hall (.droneAssignment, settings.assignRetry) (by simp)
    have hrename := hall (.rename, settings.renameRetry) (by simp)
    simp only [beq_iff_eq] at hlock hassign hrename
    exact ⟨Bool.eq_false_iff.mpr hblank, Nat.pos_of_ne_zero hlock, Nat.pos_of_ne_zero hassign,
      Nat.pos_of_ne_zero hrename⟩

/-! ## Stages -/

variable {σ : Type} {fleet : Fleet σ}

namespace Locking

theorem mem_lockedAmong {h : Host} {hosts : HostSet} {rows : List StatusRow} :
    h ∈ lockedAmong hosts rows ↔ h ∈ hosts ∧ ∃ row ∈ rows, row.host = h ∧ row.locked = true := by
  rw [lockedAmong, HostSet.mem_ofList, List.mem_map]
  constructor
  · rintro ⟨row, hrow, rfl⟩
    obtain ⟨hrow, htest⟩ := List.mem_filter.mp hrow
    simp only [Bool.and_eq_true, decide_eq_true_eq] at htest
    exact ⟨htest.2, row, hrow, rfl, htest.1⟩
  · rintro ⟨hh, row, hrow, rfl, hlocked⟩
    exact ⟨row, List.mem_filter.mpr ⟨hrow, by simp [hlocked, hh]⟩, rfl⟩

theorem run_of_reason {policy : RetryPolicy} {hosts : HostSet} {reason : String}
    (hreason : Text.isBlankText reason = false) :
    (run policy hosts reason : Run fleet StepResult) =
      attempts policy reason policy.maxAttempts 0 hosts ∅ := by
  rw [run, hreason, if_neg Bool.false_ne_true]

theorem attempts_succ (policy : RetryPolicy) (reason : String) (left made : Nat)
    (remaining locked : HostSet) :
    (attempts policy reason (left + 1) made remaining locked : Run fleet StepResult) =
      if remaining.isEmpty then pure ⟨locked, remaining⟩
      else if made ≠ 0 then
        (do
          Run.waitAfter policy made
          Run.call (.lock remaining reason)
          let seen ← look remaining
          attempts policy reason left (made + 1) (remaining \ seen) (locked ∪ seen))
      else
        (do
          Run.call (.lock remaining reason)
          let seen ← look remaining
          attempts policy reason left (made + 1) (remaining \ seen) (locked ∪ seen)) := rfl

end Locking

namespace Relocation

theorem assign_succ (policy : RetryPolicy) (host : Host) (left attempt : Nat) :
    (assign policy host (left + 1) attempt : Run fleet Bool) =
      (do
        let outcome ← Run.call (.assignDrone host)
        if Effect.isFailed outcome then
          if policy.allowsAfter attempt then
            (do Run.waitAfter policy attempt; assign policy host left (attempt + 1))
          else assign policy host left (attempt + 1)
        else return true) := rfl

/-- The categories of a relocation, once the hosts are known that remain to be renamed. -/
def duts (r : Relocation) (rest : HostSet) : Duts where
  migrated := r.succeeded \ rest
  needsAddToTarget := r.needsAddToTarget
  needsDroneAssignment := r.needsDroneAssignment
  needsRename := rest

end Relocation

namespace Renaming

theorem attempts_succ (policy : RetryPolicy) (left made : Nat) (remaining : HostSet) :
    (attempts policy (left + 1) made remaining : Run fleet HostSet) =
      if remaining.isEmpty then pure remaining
      else if made ≠ 0 then
        (do
          Run.waitAfter policy made
          let renamed ← Run.call (.rename remaining .moved)
          attempts policy left (made + 1) (remaining \ .ofList renamed))
      else
        (do
          let renamed ← Run.call (.rename remaining .moved)
          attempts policy left (made + 1) (remaining \ .ofList renamed)) := rfl

end Renaming

namespace Pass

variable {settings : CheckedSettings} {hosts : HostSet}

theorem secure_empty : (secure settings ∅ : Run fleet StepResult) = pure {} := rfl

theorem secure_of_ne (hne : hosts ≠ ∅) :
    (secure settings hosts : Run fleet StepResult) =
      (do
        let _ ← Locking.run settings.lockRetry hosts settings.reason
        let rows ← Run.call (.queryStatus hosts)
        return .split hosts (Locking.lockedAmong hosts rows)) := by
  have hempty : ¬ hosts.isEmpty = true := fun he => hne (HostSet.isEmpty_iff.mp he)
  rw [secure, if_neg hempty, Locking.verify, if_neg hempty, Locking.look]
  simp only [Run.bind_assoc, Run.pure_bind]

theorem move_empty : (move settings ∅ : Run fleet Duts) = pure {} := rfl

theorem move_of_ne (hne : hosts ≠ ∅) :
    (move settings hosts : Run fleet Duts) =
      (do
        let relocated ← Relocation.all settings.assignRetry hosts.toList
        let rest ← Renaming.attempts settings.renameRetry settings.renameRetry.maxAttempts 0
          relocated.succeeded
        return relocated.duts rest) := by
  have hempty : ¬ hosts.isEmpty = true := fun he => hne (HostSet.isEmpty_iff.mp he)
  rw [move, if_neg hempty, Relocation.run]
  simp only [Renaming.run, Run.bind_assoc, Run.pure_bind]
  rfl

theorem firstRound_immediately (h : settings.migrateImmediately = true) (duts : Duts) :
    (firstRound settings hosts duts : Run fleet (HostSet × Duts)) =
      (do
        let moved ← move settings hosts
        return (∅, duts.merge moved)) := by
  rw [firstRound, dif_pos h]

theorem firstRound_waiting (h : settings.migrateImmediately = false) (duts : Duts) :
    (firstRound settings hosts duts : Run fleet (HostSet × Duts)) =
      (do
        let start ← Run.now
        let w ← Run.repeatUntil (start + settings.maxDuration.nanos) settings.pollInterval
          (settings.pollInterval_pos h) (·.monitor.isOver) (poll settings)
          ⟨.watch hosts settings.minReadyIntervals, duts⟩
        return (w.monitor.watched, w.duts)) := by
  rw [firstRound, dif_neg (Bool.eq_false_iff.mp h), moveWhenIdle]
  simp only [Run.bind_assoc]

/-! ## The whole pass, by what precedes its first call -/

section

variable {source : Planner} {asked : Settings} {previous : Option Summary} {e : PassError}

theorem run_of_fault (hcheck : asked.check = .error e) :
    (run source asked hosts previous : Run fleet Summary) = Run.fail e := by
  rw [run, hcheck]
  rfl

/-- The first thing that a pass does is to ask for a plan. -/
theorem run_of_check (hcheck : asked.check = .ok settings) :
    (run source asked hosts previous : Run fleet Summary) =
      (do
        let plan ← Run.plan source (candidates hosts previous) asked.ratio
        execute settings plan) := by
  obtain rfl := Settings.toSettings_of_check hcheck
  rw [run, hcheck]
  rfl

/-- A planner that has a plan hands it on. -/
theorem run_plan_eq {plan : Plan} {ratio : Numeric.Binary64} (hplan : source hosts ratio = .ok plan)
    {α : Type} (f : Plan → Run fleet α) :
    (do let plan ← Run.plan source hosts ratio; f plan) =
      (do let _ ← Run.plan source hosts ratio; f plan) := by
  refine Run.ext fun s => ?_
  rw [Run.run_bind, Run.run_bind, Run.plan]
  dsimp only
  rw [hplan]
  rfl

theorem run_of_no_plan (hcheck : asked.check = .ok settings)
    (hplan : source (candidates hosts previous) asked.ratio = .error e) (s : σ) :
    (run source asked hosts previous : Run fleet Summary).run s =
      ⟨.error e, [.planned (fleet.time s) (candidates hosts previous) asked.ratio (.error e)], s⟩ := by
  rw [run_of_check hcheck, Run.run_bind, Run.plan]
  dsimp only
  rw [hplan]
  rfl

theorem run_of_plan {plan : Plan} (hcheck : asked.check = .ok settings)
    (hplan : source (candidates hosts previous) asked.ratio = .ok plan) (s : σ) :
    (run source asked hosts previous : Run fleet Summary).run s =
      ⟨((execute settings plan : Run fleet Summary).run s).result,
        .planned (fleet.time s) (candidates hosts previous) asked.ratio (.ok plan) ::
          ((execute settings plan : Run fleet Summary).run s).trace,
        ((execute settings plan : Run fleet Summary).run s).state⟩ := by
  rw [run_of_check hcheck, Run.run_bind, Run.plan]
  dsimp only
  rw [hplan]
  rfl

end

end Pass

end Rehome
