import Rehome.Proofs.Runs
import Rehome.Proofs.Stages

/-!
# Composition — what every single step keeps

A plan is carried out by nothing but calls, sleeps and looks at the clock: the stages of a pass are
put together from those alone (`Run.Composed`). So what holds of each of them, of the state that it
starts in, the event that it leaves and the state that it ends in, holds of carrying a plan out as well
if it can be said of steps in a row (`Run.Composed.keeps`), however that ends. No stage has to be looked
into again for it. The first use is that none of them asks for another plan
(`Run.Composed.plans_eq_nil`).
-/

namespace Rehome

/-- A relation between states of a fleet and the trace from the one to the other, which holds across
    every single step and across steps in a row. -/
structure Fleet.Keeps {σ : Type} (fleet : Fleet σ) (R : σ → List Event → σ → Prop) : Prop where
  refl : ∀ s, R s [] s
  trans : ∀ {s s' s'' t t'}, R s t s' → R s' t' s'' → R s (t ++ t') s''
  look : ∀ s, R s [] (fleet.look s)
  sleep : ∀ span s, R s [.slept (fleet.time s) span] (fleet.sleep span s)
  reply : ∀ call s,
    R s [.called (fleet.time s) call (fleet.reply call s).1] (fleet.reply call s).2

/-- What a planner answered, if an event is that it was asked. -/
def Event.plan? : Event → Option (Except PassError Plan)
  | .planned _ _ _ reply => some reply
  | _ => none

/-- The answers of planners in a trace, in order. -/
def plans (trace : List Event) : List (Except PassError Plan) := trace.filterMap Event.plan?

theorem plans_append (a b : List Event) : plans (a ++ b) = plans a ++ plans b :=
  List.filterMap_append

namespace Run

variable {σ α : Type} {fleet : Fleet σ}

/-- Runs that are put together from single steps. None of them ends such a run but a call that is not
    answered. -/
inductive Composed {σ : Type} {fleet : Fleet σ} : {α : Type} → Run fleet α → Prop where
  | pure {α : Type} (a : α) : Composed (Pure.pure a : Run fleet α)
  | call (c : Call) : Composed (Run.call c)
  | sleep (span : Duration) : Composed (Run.sleep span)
  | now : Composed Run.now
  | bind {α β : Type} {x : Run fleet α} {f : α → Run fleet β} :
      Composed x → (∀ a, Composed (f a)) → Composed (x >>= f)
  | repeatUntil {α : Type} {deadline : Nat} {pause : Duration} {hpause : 0 < pause.nanos}
      {done : α → Bool} {step : α → Run fleet α} (a : α) :
      (∀ a, Composed (step a)) → Composed (Run.repeatUntil deadline pause hpause done step a)

/-- What holds of every single step holds of a run that is put together from them. -/
theorem Composed.keeps {R : σ → List Event → σ → Prop} (hR : fleet.Keeps R) {x : Run fleet α}
    (hx : x.Composed) (s : σ) : R s (x.run s).trace (x.run s).state := by
  have hkeeps : x.wp (fun _ => R s) (fun _ => R s) s := by
    induction hx generalizing s with
    | pure a => exact hR.refl s
    | call c =>
        have hreply := hR.reply c s
        rw [wp_call]
        constructor
        · intro a s' hback
          rw [hback] at hreply
          exact hreply
        · intro e s' hback
          rw [hback] at hreply
          exact hreply
    | sleep span => exact hR.sleep span s
    | now => exact hR.look s
    | bind _ _ ihx ihf =>
        rw [wp_bind]
        refine wp.mono (ihx s) ?_ fun _ _ _ he => he
        intro a t s' ht
        exact wp.mono (ihf a s') (fun _ _ _ => hR.trans ht) (fun _ _ _ => hR.trans ht)
    | @repeatUntil _ deadline pause hpause done step a _ ih =>
        refine wp_repeatUntil (fun _ => R s) ?_ ?_ ?_ (fun _ _ _ ht _ => ht) (hR.refl s)
        · intro b t s' ht
          have hlooked := hR.trans ht (hR.look s')
          rwa [List.append_nil] at hlooked
        · intro b t s' ht _ _
          exact wp.mono (ih b s') (fun _ _ _ => hR.trans ht) (fun _ _ _ => hR.trans ht)
        · intro b t s' ht _
          exact hR.trans ht (hR.sleep pause s')
  cases hresult : (x.run s).result with
  | ok a => exact hkeeps.of_ok hresult
  | error e => exact hkeeps.of_error hresult

/-- Runs that are put together from single steps ask for no plan. -/
theorem Composed.plans_eq_nil {x : Run fleet α} (hx : x.Composed) (s : σ) :
    plans (x.run s).trace = [] := by
  have hkeeps : fleet.Keeps fun _ t _ => plans t = [] := by
    refine ⟨fun _ => rfl, ?_, fun _ => rfl, fun _ _ => rfl, fun _ _ => rfl⟩
    intro s s' s'' t t' ht ht'
    rw [plans_append, ht, ht']
    rfl
  exact hx.keeps hkeeps s

theorem composed_waitAfter (policy : RetryPolicy) (attempt : Nat) :
    (waitAfter policy attempt : Run fleet Unit).Composed := by
  rw [waitAfter]
  split
  · exact .pure ()
  · exact .sleep _

/-- Putting a run off adds a single step. -/
theorem Composed.pause {c : Prop} [Decidable c] {policy : RetryPolicy} {attempt : Nat}
    {x : Run fleet α} (hx : x.Composed) :
    (if c then (do waitAfter policy attempt; x) else x).Composed := by
  split
  · exact .bind (composed_waitAfter policy attempt) fun _ => hx
  · exact hx

end Run

/-! ## The stages of a pass -/

variable {σ : Type} {fleet : Fleet σ}

namespace Locking

theorem composed_look (hosts : HostSet) : (look hosts : Run fleet HostSet).Composed :=
  .bind (.call _) fun _ => .pure _

theorem composed_attempts (policy : RetryPolicy) (reason : String) (left made : Nat)
    (remaining locked : HostSet) :
    (attempts policy reason left made remaining locked : Run fleet StepResult).Composed := by
  induction left generalizing made remaining locked with
  | zero => exact .pure _
  | succ left ih =>
      rw [attempts_succ]
      split
      · exact .pure _
      · refine .pause (.bind (.call _) fun _ => ?_)
        exact .bind (composed_look remaining) fun seen => ih _ _ _

end Locking

namespace Relocation

theorem composed_assign (policy : RetryPolicy) (host : Host) (left attempt : Nat) :
    (assign policy host left attempt : Run fleet Bool).Composed := by
  induction left generalizing attempt with
  | zero => exact .pure _
  | succ left ih =>
      rw [assign_succ]
      refine .bind (.call _) fun effect => ?_
      split
      · exact .pause (ih (attempt + 1))
      · exact .pure _

/-- That a host could not be added or was given no drone is a result like any other. -/
theorem composed_place (policy : RetryPolicy) (host : Host) :
    (place policy host : Run fleet Placement).Composed := by
  rw [place]
  refine .bind (.call _) fun descriptor => .bind (.call _) fun effect => ?_
  split
  · exact .pure _
  · refine .bind (composed_assign policy host _ _) fun given => ?_
    cases given with
    | true => exact .pure _
    | false => exact .pure _

theorem composed_all (policy : RetryPolicy) (hosts : List Host) :
    (all policy hosts : Run fleet Relocation).Composed := by
  induction hosts with
  | nil => exact .pure _
  | cons host hosts ih =>
      rw [all]
      exact .bind (composed_place policy host) fun placement => .bind ih fun rest => .pure _

end Relocation

namespace Renaming

theorem composed_attempts (policy : RetryPolicy) (left made : Nat) (remaining : HostSet) :
    (attempts policy left made remaining : Run fleet HostSet).Composed := by
  induction left generalizing made remaining with
  | zero => exact .pure _
  | succ left ih =>
      rw [attempts_succ]
      split
      · exact .pure _
      · exact .pause (.bind (.call _) fun answer => ih _ _)

theorem composed_run (policy : RetryPolicy) (hosts : HostSet) :
    (run policy hosts : Run fleet StepResult).Composed :=
  .bind (composed_attempts policy _ _ _) fun _ => .pure _

end Renaming

namespace Pass

/-- The settings were checked for a reason to lock hosts, so locking does not refuse it. -/
theorem composed_secure (settings : CheckedSettings) (hosts : HostSet) :
    (secure settings hosts : Run fleet StepResult).Composed := by
  by_cases hempty : hosts = ∅
  · rw [hempty, secure_empty]
    exact .pure _
  · rw [secure_of_ne hempty, Locking.run_of_reason settings.tries_everything.1]
    refine .bind (Locking.composed_attempts ..) fun attempted => ?_
    exact .bind (.call _) fun rows => .pure _

theorem composed_move (settings : CheckedSettings) (hosts : HostSet) :
    (move settings hosts : Run fleet Duts).Composed := by
  by_cases hempty : hosts = ∅
  · rw [hempty, move_empty]
    exact .pure _
  · rw [move_of_ne hempty]
    refine .bind (Relocation.composed_all ..) fun relocated => ?_
    exact .bind (Renaming.composed_attempts ..) fun rest => .pure _

theorem composed_poll (settings : CheckedSettings) (w : Waiting) :
    (poll settings w : Run fleet Waiting).Composed := by
  rw [poll]
  refine .bind (.call _) fun rows => ?_
  exact .bind (composed_move settings _) fun moved => .pure _

/-- Time that runs out ends the waiting and not the pass. -/
theorem composed_firstRound (settings : CheckedSettings) (locked : HostSet) (duts : Duts) :
    (firstRound settings locked duts : Run fleet (HostSet × Duts)).Composed := by
  by_cases himmediate : settings.migrateImmediately = true
  · rw [firstRound_immediately himmediate]
    exact .bind (composed_move settings locked) fun moved => .pure _
  · rw [firstRound_waiting (Bool.eq_false_iff.mpr himmediate)]
    refine .bind .now fun start => ?_
    exact .bind (.repeatUntil _ (composed_poll settings)) fun w => .pure _

theorem composed_execute (settings : CheckedSettings) (plan : Plan) :
    (execute settings plan : Run fleet Summary).Composed := by
  rw [execute]
  refine .bind (composed_secure settings plan.transfer) fun verified => ?_
  refine .bind (composed_firstRound settings _ _) fun round => ?_
  refine .bind ?_ fun duts => .pure _
  exact .bind (composed_move settings _) fun moved => .pure _

end Pass

end Rehome
