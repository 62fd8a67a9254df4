import Rehome.Fleet.Basic
import Rehome.Planner
import Rehome.Retry

/-!
# Runs — activities on a fleet, with the trace they leave

A run starts in a state of the fleet and leaves a result, the events in the order they happened,
and a state. Runs are put together from calls, sleeps, looks at the clock and questions to a planner;
a call that gives no answer ends the run with that error, and so does a planner without a plan. The
trace of two runs in a row is the one trace after the other, and no run turns the clock back: that is
part of what a run is, so `repeatUntil` can count on it to reach its deadline.
-/

namespace Rehome

/-- What a run leaves behind. -/
structure Outcome (σ α : Type) where
  result : Except PassError α
  trace : List Event
  state : σ

/-- An activity on a fleet. -/
structure Run {σ : Type} (fleet : Fleet σ) (α : Type) where
  run : σ → Outcome σ α
  time_le : ∀ s, fleet.time s ≤ fleet.time (run s).state

namespace Run

variable {σ α β : Type} {fleet : Fleet σ}

/-! ## Putting runs together -/

/-- Nothing is done. -/
def pure (a : α) : Run fleet α where
  run s := ⟨.ok a, [], s⟩
  time_le _ := Nat.le_refl _

/-- Nothing is done, and the run ends. -/
def fail (e : PassError) : Run fleet α where
  run s := ⟨.error e, [], s⟩
  time_le _ := Nat.le_refl _

/-- What two runs in a row leave behind. -/
def andThen (o : Outcome σ α) (f : α → σ → Outcome σ β) : Outcome σ β :=
  match o.result with
  | .error e => ⟨.error e, o.trace, o.state⟩
  | .ok a =>
    let next := f a o.state
    ⟨next.result, o.trace ++ next.trace, next.state⟩

/-- A run and, unless it ended with an error, another that depends on its result. -/
def bind (x : Run fleet α) (f : α → Run fleet β) : Run fleet β where
  run s := andThen (x.run s) fun a => (f a).run
  time_le s := by
    unfold andThen
    split
    · exact x.time_le s
    · exact Nat.le_trans (x.time_le s) ((f _).time_le _)

instance : Monad (Run fleet) where
  pure := pure
  bind := bind

@[simp] theorem run_pure (a : α) (s : σ) :
    (Pure.pure a : Run fleet α).run s = ⟨.ok a, [], s⟩ := rfl

@[simp] theorem run_fail (e : PassError) (s : σ) :
    (fail e : Run fleet α).run s = ⟨.error e, [], s⟩ := rfl

@[simp] theorem run_bind (x : Run fleet α) (f : α → Run fleet β) (s : σ) :
    (x >>= f).run s = andThen (x.run s) fun a => (f a).run := rfl

/-- The result of a computation, or the end of the run. -/
def ofExcept : Except PassError α → Run fleet α
  | .ok a => pure a
  | .error e => fail e

/-! ## Single steps -/

/-- Make a call. Its answer is the result; without one the run ends. -/
def call (c : Call) : Run fleet c.Answer where
  run s :=
    let back := fleet.reply c s
    ⟨back.1.mapError .tool, [.called (fleet.time s) c back.1], back.2⟩
  time_le s := fleet.time_le_reply c s

/-- Sleep for a while. -/
def sleep (span : Duration) : Run fleet Unit where
  run s := ⟨.ok (), [.slept (fleet.time s) span], fleet.sleep span s⟩
  time_le s := fleet.time_le_sleep span s

/-- Ask a planner for a plan. That is the result; without one the run ends. -/
def plan (source : Planner) (hosts : HostSet) (ratio : Numeric.Binary64) : Run fleet Plan where
  run s := ⟨source hosts ratio, [.planned (fleet.time s) hosts ratio (source hosts ratio)], s⟩
  time_le _ := Nat.le_refl _

/-- Look at the clock. -/
def now : Run fleet Nat where
  run s := ⟨.ok (fleet.time (fleet.look s)), [], fleet.look s⟩
  time_le s := fleet.time_le_look s

/-- Wait after a failed attempt and before the next one. Waiting for no time is not sleeping. -/
def waitAfter (policy : RetryPolicy) (attempt : Nat) : Run fleet Unit :=
  if (policy.waitAfter attempt).nanos = 0 then pure () else sleep (policy.waitAfter attempt)

/-! ## Repetition until a deadline -/

/-- What a repetition leaves behind, started in a state: with nothing left to do, or at the
    deadline, it ends; otherwise it takes a step and, with something left to do, pauses before it
    goes on. Each pause brings the deadline nearer. -/
def repeatFrom (deadline : Nat) (pause : Duration) (pause_pos : 0 < pause.nanos) (done : α → Bool)
    (step : α → Run fleet α) (a : α) (s : σ) :
    { o : Outcome σ α // fleet.time s ≤ fleet.time o.state } :=
  if done a then ⟨⟨.ok a, [], s⟩, Nat.le_refl _⟩
  else if _h : fleet.time (fleet.look s) < deadline then
    let first := (step a).run (fleet.look s)
    have hfirst : fleet.time s ≤ fleet.time first.state :=
      Nat.le_trans (fleet.time_le_look s) ((step a).time_le _)
    match first.result with
    | .error e => ⟨⟨.error e, first.trace, first.state⟩, hfirst⟩
    | .ok b =>
      if done b then ⟨⟨.ok b, first.trace, first.state⟩, hfirst⟩
      else
        let rest := repeatFrom deadline pause pause_pos done step b (fleet.sleep pause first.state)
        ⟨⟨rest.val.result,
            first.trace ++ .slept (fleet.time first.state) pause :: rest.val.trace,
            rest.val.state⟩,
          Nat.le_trans hfirst (Nat.le_trans (fleet.time_le_sleep _ _) rest.property)⟩
  else ⟨⟨.ok a, [], fleet.look s⟩, fleet.time_le_look s⟩
termination_by deadline - fleet.time s
decreasing_by
  have := fleet.time_le_look s
  have hstep := (step a).time_le (fleet.look s)
  have hsleep := fleet.time_lt_sleep pause ((step a).run (fleet.look s)).state pause_pos
  omega

/-- Repeat a step, with a pause after each, until nothing is left to do or the deadline has come.
    The clock is looked at before every step. -/
def repeatUntil (deadline : Nat) (pause : Duration) (pause_pos : 0 < pause.nanos)
    (done : α → Bool) (step : α → Run fleet α) (a : α) : Run fleet α where
  run s := (repeatFrom deadline pause pause_pos done step a s).val
  time_le s := (repeatFrom deadline pause pause_pos done step a s).property

end Run

end Rehome
