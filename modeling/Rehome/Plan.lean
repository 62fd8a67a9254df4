import Rehome.Rejection

/-!
# Plans — who moves and who stays

A plan names the hosts to transfer and the hosts to retain. As it is read from a file a plan may
name a host twice; `Plan.check` and `Plan.restrict` refuse such a plan by the smallest host in
both groups.
-/

namespace Rehome

/-- Which hosts move and which stay. -/
structure Plan where
  transfer : HostSet
  retain : HostSet
  deriving DecidableEq

namespace Plan

instance : Inhabited Plan := ⟨⟨∅, ∅⟩⟩

/-- The smallest host in both groups. -/
def overlap? (plan : Plan) : Option Host := (plan.transfer ∩ plan.retain).first?

/-- The plan itself, if no host is in both groups. -/
def check (plan : Plan) : Except Rejection Plan :=
  match plan.overlap? with
  | some host => .error (.overlap host)
  | none => .ok plan

/-- The smallest of the hosts that is in neither group. -/
def uncovered? (plan : Plan) (hosts : HostSet) : Option Host :=
  (hosts \ (plan.transfer ∪ plan.retain)).first?

/-- The plan for some of the hosts only. Each of them has to be in one group. -/
def restrict (plan : Plan) (hosts : HostSet) : Except Rejection Plan :=
  match plan.overlap? with
  | some host => .error (.overlap host)
  | none =>
    match plan.uncovered? hosts with
    | some host => .error (.uncovered host)
    | none => .ok ⟨plan.transfer ∩ hosts, plan.retain ∩ hosts⟩

/-- The plan that moves every host. -/
def movingAll (hosts : HostSet) : Plan := ⟨hosts, ∅⟩

end Plan

end Rehome
