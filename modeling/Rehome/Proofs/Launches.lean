import Rehome.Proofs.Composition
import Rehome.Tool.Systems

/-!
# Launches — what is started for a call

A reply does not tell which tool it came from. A runner that takes down what it is asked to launch does
(`Runner.noting`). It is the runner that it watches in all else, so a call gets the same reply and leaves
the same state with either (`reply_noting`). What it has taken down after a call is the one run that makes
the call, or nothing where a NUL among the arguments keeps that from being started (`launches_eq`). What
carrying a plan out launches is therefore read off its trace: the runs of its calls, in their order
(`launches_execute`).
-/

namespace Rehome.Tool

variable {σ : Type}

namespace Runner

/-- A runner that takes down what it is asked to launch. -/
def noting (runner : Runner σ) : Runner (σ × List Invocation) where
  time s := runner.time s.1
  look s := (runner.look s.1, s.2)
  sleep span s := (runner.sleep span s.1, s.2)
  time_le_look s := runner.time_le_look s.1
  time_le_sleep span s := runner.time_le_sleep span s.1
  time_lt_sleep span s := runner.time_lt_sleep span s.1
  launch i s := ((runner.launch i s.1).1, (runner.launch i s.1).2, s.2 ++ [i])
  time_le_launch i s := runner.time_le_launch i s.1

variable {runner : Runner σ} {i : Invocation} {s : σ} {noted : List Invocation}

/-- Running a tool to its end is one launch, unless there is a NUL. -/
theorem execute_noting :
    runner.noting.execute i (s, noted) =
      ((runner.execute i s).1, (runner.execute i s).2, noted ++ if i.hasNul then [] else [i]) := by
  by_cases hnul : i.hasNul = true
  · rw [execute, execute, if_pos hnul, if_pos hnul, if_pos hnul, List.append_nil]
  · rw [execute, execute, if_neg hnul, if_neg hnul, if_neg hnul]
    cases hlaunch : runner.launch i s with
    | mk result later =>
        have hnoted : runner.noting.launch i (s, noted) = (result, later, noted ++ [i]) := by
          show ((runner.launch i s).1, (runner.launch i s).2, noted ++ [i]) = _
          rw [hlaunch]
        rw [hnoted]
        cases result with
        | ok completion => rfl
        | error e => rfl

end Runner

namespace Systems

variable {t : Systems} {runner : Runner σ} {call : Call} {s : σ} {noted : List Invocation}

/-- Taking down the launches changes neither the reply to a call nor the state that it leaves. -/
theorem reply_noting :
    t.reply runner.noting call (s, noted) =
      ((t.reply runner call s).1, (t.reply runner call s).2,
        noted ++ if (t.invocation call).hasNul then [] else [t.invocation call]) := by
  rw [reply, Runner.execute_noting]
  rfl

/-- What is launched to reply to a call, in order. -/
def launches (t : Systems) (runner : Runner σ) (call : Call) (s : σ) : List Invocation :=
  (t.reply runner.noting call (s, [])).2.2

/-- Whatever the runner and its state are, one run is launched for a call, the one that makes it, or none
    if that cannot be started. -/
theorem launches_eq (t : Systems) (runner : Runner σ) (call : Call) (s : σ) :
    t.launches runner call s =
      if (t.invocation call).hasNul then [] else [t.invocation call] := by
  rw [launches, reply_noting]
  exact List.nil_append _

/-! ## Calls in a row -/

/-- From one state to another were launched, in their order, the runs of the calls in between that can be
    started. -/
def Launched (t : Systems) (s : σ × List Invocation) (trace : List Event)
    (s' : σ × List Invocation) : Prop :=
  s'.2 = s.2 ++ ((calls trace).map t.invocation).filter fun i => !i.hasNul

theorem keeps_launched (t : Systems) (runner : Runner σ) :
    (t.fleet runner.noting).Keeps t.Launched where
  refl s := (List.append_nil s.2).symm
  trans := by
    intro s s' s'' trace trace' h h'
    have hcalls : calls (trace ++ trace') = calls trace ++ calls trace' := List.filterMap_append
    rw [Launched] at h h'
    rw [Launched, h', h, hcalls, List.map_append, List.filter_append, List.append_assoc]
  look s := (List.append_nil s.2).symm
  sleep span s := (List.append_nil s.2).symm
  reply := by
    intro call s
    show (t.reply runner.noting call s).2.2 = s.2 ++ [t.invocation call].filter fun i => !i.hasNul
    rw [reply_noting, List.filter_cons, List.filter_nil]
    cases (t.invocation call).hasNul with
    | true => rfl
    | false => rfl

/-- Carrying a plan out launches the runs of its calls, one after the other, and nothing else, however
    it ends. -/
theorem launches_execute (t : Systems) (runner : Runner σ) (settings : CheckedSettings) (plan : Plan)
    (s : σ × List Invocation) :
    t.Launched s
      ((Pass.execute settings plan : Run (t.fleet runner.noting) Summary).run s).trace
      ((Pass.execute settings plan : Run (t.fleet runner.noting) Summary).run s).state :=
  (Pass.composed_execute settings plan).keeps (t.keeps_launched runner) s

end Systems

end Rehome.Tool
