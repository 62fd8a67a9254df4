import Mathlib.Algebra.Ring.Nat
import Rehome.Proofs.Composition
import Rehome.Proofs.Journal

/-!
# Schedules — attempts, and the waits between them

A step that is tried again leaves attempts in its trace, and waits between them. Here is what a
policy says about these waits (`spaced`): none before the first attempt, and before each further one
the wait after as many attempts as were made, unless that is no time at all. It does not matter
whether a step waits before an attempt or after one that failed.

On a clock that only sleeping moves on, and by just what is slept (`Fleet.Virtual`), a run takes as
long as it sleeps (`Run.Composed.time_eq`).
-/

namespace Rehome

/-! ## What is done, apart from when -/

/-- Something that was done: a plan that was asked for and a call that was made, each with what came
    back from it, or a wait. -/
inductive Act where
  | planned (hosts : HostSet) (ratio : Numeric.Binary64) (reply : Except PassError Plan)
  | asked (exchange : Exchange)
  | waited (span : Duration)

/-- The exchange, if that is what was done. -/
def Act.exchange? : Act → Option Exchange
  | .asked exchange => some exchange
  | _ => none

/-- The span waited for, if that is what was done. -/
def Act.span? : Act → Option Duration
  | .waited span => some span
  | _ => none

/-- What was done, apart from when. -/
def Event.act : Event → Act
  | .planned _ hosts ratio reply => .planned hosts ratio reply
  | .called _ call reply => .asked ⟨call, reply⟩
  | .slept _ span => .waited span

/-- What was done in a trace, in order. -/
def acts (trace : List Event) : List Act := trace.map Event.act

@[simp] theorem acts_nil : acts [] = [] := rfl

@[simp] theorem acts_called (time : Nat) (call : Call) (reply : call.Reply) (trace : List Event) :
    acts (.called time call reply :: trace) = .asked ⟨call, reply⟩ :: acts trace := rfl

@[simp] theorem acts_append (a b : List Event) : acts (a ++ b) = acts a ++ acts b :=
  List.map_append

theorem exchanges_eq (trace : List Event) : exchanges trace = (acts trace).filterMap Act.exchange? := by
  rw [exchanges, acts, List.filterMap_map]
  congr 1
  funext event
  cases event <;> rfl

theorem sleeps_eq (trace : List Event) : sleeps trace = (acts trace).filterMap Act.span? := by
  rw [sleeps, acts, List.filterMap_map]
  congr 1
  funext event
  cases event <;> rfl

theorem sleeps_append (a b : List Event) : sleeps (a ++ b) = sleeps a ++ sleeps b :=
  List.filterMap_append

/-! ## Attempts and waits -/

/-- Whether a span is some time. -/
def Duration.lasts (span : Duration) : Bool := decide (0 < span.nanos)

/-- What is waited for after so many attempts, before another one. Nothing is before the first, and
    waiting for no time is not waiting. -/
def due (policy : RetryPolicy) : (made : Nat) → List Act
  | 0 => []
  | made + 1 =>
    if (policy.waitAfter (made + 1)).nanos = 0 then [] else [.waited (policy.waitAfter (made + 1))]

/-- Attempts in a row after so many that were made, each of them after what is waited for. -/
def spaced (policy : RetryPolicy) : (made : Nat) → List (List Exchange) → List Act
  | _, [] => []
  | made, attempt :: later =>
    due policy made ++ attempt.map .asked ++ spaced policy (made + 1) later

/-- A trace is of attempts of a kind, after so many others, each of them after what is waited for. -/
def Tried (policy : RetryPolicy) (made : Nat) (kind : List Exchange → Prop) (trace : List Event) :
    Prop :=
  ∃ attempts : List (List Exchange), (∀ attempt ∈ attempts, kind attempt) ∧
    acts trace = spaced policy made attempts

/-- The waits between so many attempts: after the first, after the second, up to the last but one. -/
def waits (policy : RetryPolicy) (attempts : Nat) : List Duration :=
  (List.range' 1 (attempts - 1)).map policy.waitAfter

variable {policy : RetryPolicy}

theorem filterMap_exchange?_asked (attempt : List Exchange) :
    (attempt.map Act.asked).filterMap Act.exchange? = attempt := by
  rw [List.filterMap_map]
  exact List.filterMap_some

theorem filterMap_span?_asked (attempt : List Exchange) :
    (attempt.map Act.asked).filterMap Act.span? = [] := by
  rw [List.filterMap_map]
  exact List.filterMap_eq_nil_iff.mpr fun _ _ => rfl

theorem filterMap_exchange?_due (made : Nat) : (due policy made).filterMap Act.exchange? = [] := by
  cases made with
  | zero => rfl
  | succ made =>
      rw [due]
      split
      · rfl
      · rfl

/-- The exchanges of attempts with waits between them are those of the attempts. -/
theorem filterMap_exchange?_spaced (made : Nat) (attempts : List (List Exchange)) :
    (spaced policy made attempts).filterMap Act.exchange? = attempts.flatten := by
  induction attempts generalizing made with
  | nil => rfl
  | cons attempt later ih =>
      rw [spaced, List.filterMap_append, List.filterMap_append, filterMap_exchange?_due,
        filterMap_exchange?_asked, ih, List.nil_append, List.flatten_cons]

theorem exchanges_of_spaced {trace : List Event} {made : Nat} {attempts : List (List Exchange)}
    (h : acts trace = spaced policy made attempts) : exchanges trace = attempts.flatten := by
  rw [exchanges_eq, h, filterMap_exchange?_spaced]

theorem filterMap_span?_due (made : Nat) :
    (due policy (made + 1)).filterMap Act.span? =
      [policy.waitAfter (made + 1)].filter Duration.lasts := by
  rw [due]
  by_cases hzero : (policy.waitAfter (made + 1)).nanos = 0
  · have hnot : (policy.waitAfter (made + 1)).lasts = false := by
      rw [Duration.lasts, hzero]
      rfl
    rw [if_pos hzero, List.filter_singleton, hnot]
    rfl
  · have hlasts : (policy.waitAfter (made + 1)).lasts = true :=
      decide_eq_true (Nat.pos_of_ne_zero hzero)
    rw [if_neg hzero, List.filter_singleton, hlasts]
    rfl

/-- What is waited for between attempts that follow others. -/
theorem filterMap_span?_spaced_succ (made : Nat) (attempts : List (List Exchange)) :
    (spaced policy (made + 1) attempts).filterMap Act.span? =
      ((List.range' (made + 1) attempts.length).map policy.waitAfter).filter Duration.lasts := by
  induction attempts generalizing made with
  | nil => rfl
  | cons attempt later ih =>
      rw [spaced, List.filterMap_append, List.filterMap_append, filterMap_span?_due,
        filterMap_span?_asked, ih, List.append_nil, ← List.filter_append, List.length_cons,
        List.range'_succ, List.map_cons]
      rfl

/-- Between attempts just the waits of the policy are made, of those that are some time. -/
theorem sleeps_of_spaced {trace : List Event} {attempts : List (List Exchange)}
    (h : acts trace = spaced policy 0 attempts) :
    sleeps trace = (waits policy attempts.length).filter Duration.lasts := by
  rw [sleeps_eq, h]
  cases attempts with
  | nil => rfl
  | cons attempt later =>
      rw [spaced, List.filterMap_append, List.filterMap_append, filterMap_span?_asked,
        filterMap_span?_spaced_succ]
      rfl

theorem Tried.nil (made : Nat) (kind : List Exchange → Prop) : Tried policy made kind [] :=
  ⟨[], List.forall_mem_nil kind, rfl⟩

/-- One more attempt comes before others. -/
theorem Tried.cons {made : Nat} {kind : List Exchange → Prop} {pause now later : List Event}
    {attempt : List Exchange} (hkind : kind attempt) (hpause : acts pause = due policy made)
    (hnow : acts now = attempt.map .asked) (hlater : Tried policy (made + 1) kind later) :
    Tried policy made kind (pause ++ (now ++ later)) := by
  obtain ⟨attempts, hkinds, hacts⟩ := hlater
  refine ⟨attempt :: attempts, List.forall_mem_cons.mpr ⟨hkind, hkinds⟩, ?_⟩
  rw [acts_append, acts_append, hpause, hnow, hacts, spaced, List.append_assoc]

/-- An attempt is all there is. -/
theorem Tried.last {made : Nat} {kind : List Exchange → Prop} {pause now : List Event}
    {attempt : List Exchange} (hkind : kind attempt) (hpause : acts pause = due policy made)
    (hnow : acts now = attempt.map .asked) : Tried policy made kind (pause ++ now) := by
  have htried := Tried.cons hkind hpause hnow (Tried.nil (made + 1) kind)
  rw [List.append_nil] at htried
  exact htried

/-- Waits that are no time do not count. -/
theorem sum_filter_nanos (spans : List Duration) :
    ((spans.filter Duration.lasts).map Duration.nanos).sum =
      (spans.map Duration.nanos).sum := by
  induction spans with
  | nil => rfl
  | cons span spans ih =>
      rw [List.map_cons, List.sum_cons, ← ih]
      by_cases hlasts : span.lasts = true
      · rw [List.filter_cons_of_pos hlasts, List.map_cons, List.sum_cons]
      · have hzero : span.nanos = 0 := by simpa [Duration.lasts] using hlasts
        rw [List.filter_cons_of_neg hlasts, hzero, Nat.zero_add]

/-! ## The waits of a step -/

namespace Run

variable {σ α : Type} {fleet : Fleet σ} {s : σ}
variable {post : α → List Event → σ → Prop} {crash : PassError → List Event → σ → Prop}
variable {x : Run fleet α}

/-- Waiting after attempts leaves in the trace what is waited for. -/
theorem wp_waitAfter_due {made : Nat}
    (h : ∀ t s', acts t = due policy (made + 1) →
      x.wp (fun a t' => post a (t ++ t')) (fun e t' => crash e (t ++ t')) s') :
    (do waitAfter policy (made + 1); x : Run fleet α).wp post crash s := by
  rw [wp_bind, wp_waitAfter]
  by_cases hzero : (policy.waitAfter (made + 1)).nanos = 0
  · rw [if_pos hzero]
    refine h [] s ?_
    rw [due, if_pos hzero]
    rfl
  · rw [if_neg hzero]
    refine h _ _ ?_
    rw [due, if_neg hzero]
    rfl

/-- So does waiting before an attempt, unless it is the first. -/
theorem wp_due {made : Nat}
    (h : ∀ t s', acts t = due policy made →
      x.wp (fun a t' => post a (t ++ t')) (fun e t' => crash e (t ++ t')) s') :
    (if made ≠ 0 then (do waitAfter policy made; x) else x).wp post crash s := by
  cases made with
  | zero => exact h [] s rfl
  | succ made =>
      rw [if_pos (Nat.succ_ne_zero made)]
      exact wp_waitAfter_due h

end Run

/-! ## Time -/

/-- Only sleeping takes time on the clock of a fleet, and it takes just as long as is slept. -/
structure Fleet.Virtual {σ : Type} (fleet : Fleet σ) : Prop where
  look : ∀ s, fleet.time (fleet.look s) = fleet.time s
  sleep : ∀ span s, fleet.time (fleet.sleep span s) = fleet.time s + span.nanos
  reply : ∀ call s, fleet.time (fleet.reply call s).2 = fleet.time s

namespace Run

variable {σ α : Type} {fleet : Fleet σ}

/-- The clock was moved on from a state by just what was slept in a trace. -/
def TimedBy (fleet : Fleet σ) (s : σ) (t : List Event) (s' : σ) : Prop :=
  fleet.time s' = fleet.time s + ((sleeps t).map Duration.nanos).sum

theorem keeps_timedBy (hfleet : fleet.Virtual) : fleet.Keeps (TimedBy fleet) where
  refl _ := rfl
  trans := by
    intro s s' s'' t t' h h'
    rw [TimedBy] at h h'
    rw [TimedBy, h', h, sleeps_append, List.map_append, List.sum_append, Nat.add_assoc]
  look := hfleet.look
  sleep := hfleet.sleep
  reply := hfleet.reply

/-- A run takes as long as it sleeps. -/
theorem Composed.time_eq (hfleet : fleet.Virtual) {x : Run fleet α} (hx : x.Composed) (s : σ) :
    fleet.time (x.run s).state =
      fleet.time s + ((sleeps (x.run s).trace).map Duration.nanos).sum :=
  hx.keeps (keeps_timedBy hfleet) s

end Run

end Rehome
