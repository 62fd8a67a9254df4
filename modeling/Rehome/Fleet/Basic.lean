import Rehome.Duration
import Rehome.PassError

/-!
# Fleets — two systems and a clock, as one state machine

A fleet is anything that answers calls from a state and lets time pass. It may answer whatever it
likes: rows for hosts that were not asked about, missing rows, the same row twice. All that is
required of it is required of its clock: it never goes back, and sleeping for a while moves it on.
-/

namespace Rehome

/-- The passing of time in a state, in nanoseconds. -/
structure Clock (σ : Type) where
  /-- The reading of the clock. -/
  time : σ → Nat
  /-- The state when the clock is looked at next: until then time may pass. -/
  look : σ → σ
  /-- The state after sleeping. -/
  sleep : Duration → σ → σ
  time_le_look : ∀ s, time s ≤ time (look s)
  time_le_sleep : ∀ d s, time s ≤ time (sleep d s)
  time_lt_sleep : ∀ d s, 0 < d.nanos → time s < time (sleep d s)

/-- The two systems: how they answer calls, and their clock. -/
structure Fleet (σ : Type) extends Clock σ where
  /-- What comes back from a call, and the state it leaves. -/
  reply : (call : Call) → σ → call.Reply × σ
  time_le_reply : ∀ call s, time s ≤ time (reply call s).2

/-- Something that was done, with the reading of the clock when it began. -/
inductive Event where
  /-- A plan was asked for, a ratio of whose hosts should move. -/
  | planned (time : Nat) (hosts : HostSet) (ratio : Numeric.Binary64) (reply : Except PassError Plan)
  | called (time : Nat) (call : Call) (reply : call.Reply)
  | slept (time : Nat) (span : Duration)

namespace Event

/-- The call, if the event is one. -/
def call? : Event → Option Call
  | .called _ call _ => some call
  | _ => none

/-- The span slept for, if the event is that. -/
def slept? : Event → Option Duration
  | .slept _ span => some span
  | _ => none

end Event

/-- The calls of a trace, in order. -/
def calls (trace : List Event) : List Call := trace.filterMap Event.call?

/-- The spans slept for in a trace, in order. -/
def sleeps (trace : List Event) : List Duration := trace.filterMap Event.slept?

/-- The hosts that some call tried to add to the target system. -/
def triedToAdd (calls : List Call) : HostSet :=
  .unions (calls.filterMap fun
    | .add descriptor => some (.ofList [descriptor.host])
    | _ => none)

/-- The hosts that some call tried to rename for migration. -/
def triedToRename (calls : List Call) : HostSet :=
  .unions (calls.filterMap fun
    | .rename hosts .moved => some hosts
    | _ => none)

end Rehome
