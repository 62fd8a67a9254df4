import Rehome.Fleet.Memory
import Rehome.Proofs.Placing
import Rehome.Proofs.Retrying

/-!
# Backoff — one schedule for all that is tried again

Locking and renaming wait before an attempt, unless it is the first one. Asking for a drone waits
after an attempt that was refused, if another one is allowed. Here is that this makes no difference
(`one_schedule`): whatever is answered, and wherever a run ends, the waits are those of the policy
after the first attempt, after the second and so on, up to the last attempt but one. So a run takes
as long as these waits together, on a clock that only sleeping moves on.
-/

namespace Rehome

variable {σ : Type} {fleet : Fleet σ} {policy : RetryPolicy}

/-! ## Runs that keep to a schedule -/

/-- A run made attempts of a kind, and between them the waits of a policy. -/
structure Run.Paces {α : Type} (policy : RetryPolicy) (kind : List Exchange → Prop)
    (x : Run fleet α) (s : σ) (attempts : List (List Exchange)) : Prop where
  kinds : ∀ attempt ∈ attempts, kind attempt
  acts_eq : acts (x.run s).trace = spaced policy 0 attempts
  sleeps_eq : sleeps (x.run s).trace = (waits policy attempts.length).filter Duration.lasts
  takes : fleet.Virtual →
    fleet.time (x.run s).state =
      fleet.time s + ((waits policy attempts.length).map Duration.nanos).sum

/-- Attempts with the waits that are due between them are a schedule kept. -/
theorem Run.Composed.paces {α : Type} {x : Run fleet α} (hx : x.Composed) {s : σ}
    {kind : List Exchange → Prop}
    (h : x.wp (fun _ t _ => Tried policy 0 kind t) (fun _ t _ => Tried policy 0 kind t) s) :
    ∃ attempts, x.Paces policy kind s attempts := by
  obtain ⟨attempts, hkinds, hacts⟩ := h.trace
  have hsleeps := sleeps_of_spaced hacts
  refine ⟨attempts, hkinds, hacts, hsleeps, ?_⟩
  intro hvirtual
  rw [hx.time_eq hvirtual, hsleeps, sum_filter_nanos]

/-! ## The three steps -/

theorem Locking.paces_run (hosts : HostSet) (reason : String) (s : σ) :
    ∃ attempts, (run policy hosts reason : Run fleet StepResult).Paces policy (IsAttempt reason) s
      attempts := by
  cases hreason : Text.isBlankText reason with
  | true =>
      -- without a reason nothing is tried
      rw [run, hreason]
      exact ⟨[], by simp, rfl, rfl, fun _ => rfl⟩
  | false =>
      rw [run_of_reason hreason]
      refine (composed_attempts policy reason policy.maxAttempts 0 hosts ∅).paces ?_
      refine (wp_attempts policy.maxAttempts 0 hosts ∅ s).mono ?_ fun _ _ _ h => h
      rintro result t s' ⟨inquiries, hacts, -, -⟩
      refine ⟨_, ?_, hacts⟩
      intro attempt hin
      obtain ⟨i, -, rfl⟩ := List.mem_map.mp hin
      exact .looked i.hosts (.ok i.rows)

theorem Renaming.paces_run (hosts : HostSet) (s : σ) :
    ∃ attempts, (run policy hosts : Run fleet StepResult).Paces policy IsAttempt s attempts := by
  refine (composed_run policy hosts).paces ?_
  rw [run, Run.wp_bind]
  refine (wp_attempts policy.maxAttempts 0 hosts s).mono ?_ fun _ _ _ h => h
  rintro rest t s' ⟨requests, hacts, -⟩
  refine ⟨requests.map fun r => [r.exchange], ?_, ?_⟩
  · intro attempt hin
    obtain ⟨r, -, rfl⟩ := List.mem_map.mp hin
    exact .asked r.hosts (.ok r.answer)
  · show acts (t ++ []) = _
    rw [List.append_nil, hacts]

theorem Relocation.paces_assign (host : Host) (s : σ) :
    ∃ attempts, (assign policy host policy.maxAttempts 1 : Run fleet Bool).Paces policy
      (fun attempt => ∃ reply, attempt = asksDrone host reply) s attempts := by
  refine (composed_assign policy host policy.maxAttempts 1).paces ?_
  have hasked : ∀ answers : List Effect,
      ∀ attempt ∈ answers.map fun answer => asksDrone host (.ok answer),
        ∃ reply, attempt = asksDrone host reply := by
    intro answers attempt hin
    obtain ⟨answer, -, rfl⟩ := List.mem_map.mp hin
    exact ⟨.ok answer, rfl⟩
  refine (wp_assign_all s).mono ?_ ?_
  · rintro given t s' ⟨answers, hacts, -, -⟩
    exact ⟨_, hasked answers, hacts⟩
  · rintro e t s' ⟨failure, refused, -, hacts, -, -⟩
    refine ⟨_, ?_, hacts⟩
    exact List.forall_mem_append.mpr
      ⟨hasked refused, List.forall_mem_singleton.mpr ⟨.error failure, rfl⟩⟩

/-- Whether hosts are locked, renamed or given a drone: what is tried again is tried again on the same
    schedule, however the run ends. -/
theorem one_schedule (fleet : Fleet σ) (policy : RetryPolicy) (s : σ) :
    (∀ hosts reason, ∃ attempts,
      (Locking.run policy hosts reason : Run fleet StepResult).Paces policy
        (Locking.IsAttempt reason) s attempts) ∧
    (∀ hosts, ∃ attempts,
      (Renaming.run policy hosts : Run fleet StepResult).Paces policy Renaming.IsAttempt s
        attempts) ∧
    ∀ host, ∃ attempts,
      (Relocation.assign policy host policy.maxAttempts 1 : Run fleet Bool).Paces policy
        (fun attempt => ∃ reply, attempt = Relocation.asksDrone host reply) s attempts := by
  refine ⟨?_, ?_, ?_⟩
  · intro hosts reason
    exact Locking.paces_run hosts reason s
  · intro hosts
    exact Renaming.paces_run hosts s
  · intro host
    exact Relocation.paces_assign host s

/-! ## A clock that only sleeping moves on -/

/-- A fleet that answers the same, on a clock that only sleeping moves on. -/
def Fleet.onVirtualClock (fleet : Fleet σ) : Fleet (σ × Nat) where
  time s := s.2
  look s := s
  sleep span s := (s.1, s.2 + span.nanos)
  time_le_look _ := Nat.le_refl _
  time_le_sleep _ _ := Nat.le_add_right _ _
  time_lt_sleep _ _ hpos := Nat.lt_add_of_pos_right hpos
  reply call s := ((fleet.reply call s.1).1, (fleet.reply call s.1).2, s.2)
  time_le_reply _ _ := Nat.le_refl _

theorem Fleet.virtual_onVirtualClock (fleet : Fleet σ) : fleet.onVirtualClock.Virtual where
  look _ := rfl
  sleep _ _ := rfl
  reply _ _ := rfl

/-- Three attempts to rename a host that cannot be renamed take a second and two. -/
theorem one_schedule_renaming :
    (Memory.fleet.onVirtualClock).Virtual ∧
    ((Renaming.run {} (.ofList ["a"]) : Run Memory.fleet.onVirtualClock StepResult).run
      ({ hosts := [("a", { renameFails := true })] }, 0)).state.2 = 3 * Duration.nanosPerSec ∧
    ∃ attempts : List (List Exchange),
      ((waits {} attempts.length).map Duration.nanos).sum = 3 * Duration.nanosPerSec := by
  have htime : ((Renaming.run {} (.ofList ["a"]) : Run Memory.fleet.onVirtualClock StepResult).run
      ({ hosts := [("a", { renameFails := true })] }, 0)).state.2 = 3 * Duration.nanosPerSec := by
    decide +kernel
  refine ⟨Memory.fleet.virtual_onVirtualClock, htime, ?_⟩
  obtain ⟨attempts, hpaces⟩ := (one_schedule Memory.fleet.onVirtualClock {}
    ({ hosts := [("a", { renameFails := true })] }, 0)).2.1 (.ofList ["a"])
  have htakes := hpaces.takes Memory.fleet.virtual_onVirtualClock
  exact ⟨attempts, (Nat.zero_add _).symm.trans (htakes.symm.trans htime)⟩

end Rehome
