import Rehome.Documents
import Rehome.Partition
import Rehome.PassError

/-!
# Planners — where the plan of a pass comes from

A plan is drawn by lot, such as from the stream of a seed, or decided ahead of time. A fixed plan is
restricted to the hosts of the pass and does not look at the ratio. Either way the groups of the
plan are disjoint and together they are the hosts of the pass.
-/

namespace Rehome

open Numeric (Binary64)

/-- Gives a plan for hosts, a ratio of which should move. -/
abbrev Planner : Type := HostSet → Binary64 → Except PassError Plan

namespace Planner

/-- Plans that move hosts chosen by lot, with the words of a source from a state on. For one draw of
    the sample so many words may be tried. -/
def drawnWithin {τ : Type} (tries : Nat) (source : Chance.Source τ) (start : τ) : Planner :=
  fun hosts ratio =>
    match partition source tries hosts.toList ratio start with
    | .error halt => .error (.halted halt)
    | .ok (.error e, _) => .error (.rejected e)
    | .ok (.ok split, _) =>
      (Plan.check ⟨.ofList split.transfer, .ofList split.retain⟩).mapError .rejected

/-- The words that may be tried for one draw of a sample. Each word is as likely to do as not, so
    this many in a row are not expected to be thrown away. -/
def sampleTries : Nat := 1000000

/-- Plans that move hosts chosen by lot, with the words of a source from a state on. -/
def drawn {τ : Type} (source : Chance.Source τ) (start : τ) : Planner :=
  drawnWithin sampleTries source start

/-- The same seed gives the same plan for the same hosts. -/
def fair (seed : UInt64) : Planner := drawn Chance.Generator.source (.seeded seed)

/-- A plan decided ahead of time. -/
def fixed (plan : Plan) : Planner := fun hosts _ =>
  (plan.restrict hosts).mapError .rejected

/-- The plan that a file holds. Its groups must not overlap. -/
def ofFile (path : String) (content : Except FileError String) : Except PassError Planner :=
  match content with
  | .error e => .error (.planUnreadable path e)
  | .ok text =>
    match Plan.parse? text with
    | none => .error (.planMalformed path)
    | some plan =>
      match plan.check with
      | .error e => .error (.rejected e)
      | .ok plan => .ok (fixed plan)

end Planner

end Rehome
