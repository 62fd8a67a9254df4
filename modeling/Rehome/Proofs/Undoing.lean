import Rehome.Proofs.Batches
import Rehome.Proofs.Composition
import Rehome.Proofs.MemoryPass

/-!
# Undoing — a rollback takes a pass back

A pass over a fleet in memory leaves on each host of its transfer group the marks of the stages that
were tried on it (`MemoryHost.after`), and a rollback of the group takes all of these marks off. So
where a group was untouched before, it is so again (`rollback_restores`), however far the pass came
with each of its hosts and whether or not it was cut short. All that is left of the pass are the looks
at the hosts: their busy scripts have gone on (`Memory.Later`), as each call lets them do at most.
-/

namespace Rehome

namespace MemoryHost

/-- The same host later on: some looks at it were taken, and nothing else is different. -/
def SameButLooks (before later : MemoryHost) : Prop :=
  ∃ busy, busy <:+ before.busy ∧ later = { before with busy }

theorem SameButLooks.refl (h : MemoryHost) : h.SameButLooks h := ⟨h.busy, List.suffix_rfl, rfl⟩

theorem busy_looked (h : MemoryHost) : h.looked.busy <:+ h.busy := by
  rw [looked]
  split
  · rename_i first next later hbusy
    rw [hbusy]
    exact List.suffix_cons first _
  · exact List.suffix_rfl

/-- Whatever stages were tried on an untouched host, it is untouched once it is taken back. -/
theorem takenBack_after {h : MemoryHost} (hlocked : h.locked = false) (htarget : h.inTarget = false)
    (hdrone : h.hasDrone = false) (hrenamed : h.renamed = false) (tried : Nat) (busy : List Bool) :
    takenBack { h.after tried with busy } = { h with busy } := by
  cases h with
  | mk locked unlockable hidden descriptorFails addFails assignFails renameFails inTarget hasDrone
      renamed looks =>
      cases hlocked
      cases htarget
      cases hdrone
      cases hrenamed
      cases renameFails with
      | false => rfl
      | true => simp [takenBack, after]

end MemoryHost

namespace Memory

/-- Of each host in a later state some looks were taken since an earlier one, and no host is new or
    gone. -/
def Later (before later : Memory) : Prop :=
  ∀ n, Option.Rel (fun h h' : MemoryHost => h'.busy <:+ h.busy) (before.host? n) (later.host? n)

theorem Later.refl (m : Memory) : m.Later m := by
  intro n
  cases m.host? n with
  | none => exact .none
  | some h => exact .some List.suffix_rfl

theorem Later.trans {m₁ m₂ m₃ : Memory} (h₁ : m₁.Later m₂) (h₂ : m₂.Later m₃) : m₁.Later m₃ := by
  intro n
  have hfirst := h₁ n
  have hsecond := h₂ n
  generalize m₁.host? n = before at hfirst ⊢
  generalize m₂.host? n = between at hfirst hsecond
  generalize m₃.host? n = later at hsecond ⊢
  cases hfirst with
  | none =>
      cases hsecond
      exact .none
  | some hbusy =>
      cases hsecond with
      | some hbusy' => exact .some (hbusy'.trans hbusy)

theorem later_updateAll (m : Memory) (names : HostSet) {f : MemoryHost → MemoryHost}
    (hf : ∀ h, (f h).busy <:+ h.busy) : m.Later (m.updateAll names f) := by
  intro n
  rw [host?_updateAll]
  cases m.host? n with
  | none => exact .none
  | some h =>
      refine .some ?_
      by_cases hn : n ∈ names
      · simp only [hn, if_true]
        exact hf h
      · simp only [hn, if_false]
        exact List.suffix_rfl

/-- No call winds a busy script back. -/
theorem later_reply (call : Call) (m : Memory) : m.Later (reply call m).2 := by
  cases call with
  | queryStatus hosts =>
      refine later_updateAll m hosts fun h => ?_
      split
      · exact List.suffix_rfl
      · exact h.busy_looked
  | fetchDescriptor host =>
      have hstate : (reply (.fetchDescriptor host) m).2 = m := by
        simp only [reply]
        split
        · split <;> rfl
        · rfl
      rw [hstate]
      exact .refl m
  | add descriptor =>
      simp only [reply, update_eq_updateAll]
      refine later_updateAll m _ fun h => ?_
      split <;> exact List.suffix_rfl
  | assignDrone host =>
      simp only [reply, update_eq_updateAll]
      refine later_updateAll m _ fun h => ?_
      split <;> exact List.suffix_rfl
  | lock hosts reason =>
      refine later_updateAll m hosts fun h => ?_
      split <;> exact List.suffix_rfl
  | rename hosts direction =>
      refine later_updateAll m hosts fun h => ?_
      split <;> exact List.suffix_rfl
  | unlock hosts => exact later_updateAll m hosts fun h => List.suffix_rfl
  | remove hosts bug => exact later_updateAll m hosts fun h => List.suffix_rfl

theorem later_sleep (span : Duration) (m : Memory) : m.Later (fleet.sleep span m) := by
  intro n
  rw [host?_sleep]
  exact Later.refl m n

theorem keeps_later : fleet.Keeps fun m _ m' => m.Later m' where
  refl := Later.refl
  trans := Later.trans
  look := Later.refl
  sleep := later_sleep
  reply := later_reply

/-- A state that a pass over a transfer group can reach from one, if the group is taken back: as at
    the start, but for the looks that were taken. -/
theorem Reached.takenBack {start m : Memory} {transfer : HostSet} {tried : Host → Nat}
    (hr : Reached start transfer tried m) (hlater : start.Later m)
    (huntouched : ∀ n ∈ transfer, ∀ h, start.host? n = some h →
      h.locked = false ∧ h.inTarget = false ∧ h.hasDrone = false ∧ h.renamed = false) (n : Host) :
    Option.Rel MemoryHost.SameButLooks (start.host? n)
      ((m.updateAll transfer MemoryHost.takenBack).host? n) := by
  rw [host?_updateAll]
  have hlooks := hlater n
  by_cases hn : n ∈ transfer
  · simp only [hn, if_true]
    cases hstart : start.host? n with
    | none =>
        rw [hr.unknown n hstart]
        exact .none
    | some h =>
        obtain ⟨busy, hbusy⟩ := hr.known n hn h hstart
        obtain ⟨hlocked, htarget, hdrone, hrenamed⟩ := huntouched n hn h hstart
        rw [hbusy, Option.map_some,
          MemoryHost.takenBack_after hlocked htarget hdrone hrenamed (tried n) busy]
        rw [hstart, hbusy] at hlooks
        cases hlooks with
        | some hsuffix => exact .some ⟨busy, hsuffix, rfl⟩
  · -- the pass and the rollback leave hosts outside the group alone
    simp only [hn, if_false, Option.map_id']
    rw [hr.others n hn]
    cases start.host? n with
    | none => exact .none
    | some h => exact .some (.refl h)

end Memory

namespace Rollback

variable {source : Planner} {settings : Settings} {hosts : HostSet} {previous : Option Summary}
variable {plan : Plan}

/-- A rollback of the transfer group takes a pass over a fleet in memory back, by batches of any
    size and whether or not the pass was cut short: if the known hosts of the group were not touched
    before, every host of the fleet is as it was, except that looks at it were taken. -/
theorem rollback_restores (hsettings : settings.fault? = none)
    (hplan : source (Pass.candidates hosts previous) settings.ratio = .ok plan) (start : Memory)
    (huntouched : ∀ n ∈ plan.transfer, ∀ h, start.host? n = some h →
      h.locked = false ∧ h.inTarget = false ∧ h.hasDrone = false ∧ h.renamed = false)
    (bug : String) (size : Nat) :
    (∃ report, ((run bug size plan.transfer false : Run Memory.fleet Report).run
      ((Pass.run source settings hosts previous : Run Memory.fleet Summary).run start).state).result =
        .ok report) ∧
    ∀ n, Option.Rel MemoryHost.SameButLooks (start.host? n)
      (((run bug size plan.transfer false : Run Memory.fleet Report).run
        ((Pass.run source settings hosts previous : Run Memory.fleet Summary).run
          start).state).state.host? n) := by
  obtain ⟨checked, hchecked, -⟩ := Settings.check_of_fault?_eq_none hsettings
  rw [Pass.run_of_plan hchecked hplan start]
  dsimp only
  have hlater : start.Later ((Pass.execute checked plan : Run Memory.fleet Summary).run start).state :=
    (Pass.composed_execute checked plan).keeps Memory.keeps_later start
  have hreached : ∃ tried, Memory.Reached start plan.transfer tried
      ((Pass.execute checked plan : Run Memory.fleet Summary).run start).state := by
    have hends : (Pass.execute checked plan : Run Memory.fleet Summary).ends _ _ start :=
      Pass.ends_execute plan start
    rcases hends.cases with
      ⟨summary, -, -, hreached⟩ | ⟨e, -, n, -, h, tried, -, -, -, hreached⟩
    · exact ⟨_, hreached⟩
    · exact ⟨tried, hreached⟩
  generalize ((Pass.execute checked plan : Run Memory.fleet Summary).run start).state = m at *
  obtain ⟨tried, hreached⟩ := hreached
  have hends : (run bug size plan.transfer false : Run Memory.fleet Report).ends _ (fun _ _ => False)
      m := ends_run bug size plan.transfer m
  rcases hends.cases with ⟨report, hresult, -, hstate⟩ | ⟨e, -, hnever⟩
  · refine ⟨⟨report, hresult⟩, fun n => ?_⟩
    rw [hstate]
    exact hreached.takenBack hlater huntouched n
  · exact hnever.elim

/-- Untouched hosts, the last of which gives no descriptor once the others are on their way. -/
def cutShortStart : Memory :=
  ⟨[("a", { busy := [false, true, false] }), ("b", { renameFails := true }),
    ("c", { unlockable := true }), ("d", { descriptorFails := true })], 0⟩

/-- A pass is cut short after it gave `a` and `b` a drone, and taken back three hosts at a time. -/
theorem rollback_restores_cut_short :
    Pass.briefSettings.fault? = none ∧
    Planner.fixed (.movingAll Pass.unsteadyHosts) (Pass.candidates Pass.unsteadyHosts none)
      Pass.briefSettings.ratio = .ok (.movingAll Pass.unsteadyHosts) ∧
    (∀ n ∈ Pass.unsteadyHosts, ∀ h, cutShortStart.host? n = some h →
      h.locked = false ∧ h.inTarget = false ∧ h.hasDrone = false ∧ h.renamed = false) ∧
    ∃ e m, (((Pass.run (.fixed (.movingAll Pass.unsteadyHosts)) Pass.briefSettings
        Pass.unsteadyHosts none : Run Memory.fleet Summary).run cutShortStart).result = .error e ∧
      ((Pass.run (.fixed (.movingAll Pass.unsteadyHosts)) Pass.briefSettings
        Pass.unsteadyHosts none : Run Memory.fleet Summary).run cutShortStart).state = m) ∧
      (m.host? "b").any (·.hasDrone) = true ∧
      (∃ report, ((run defaultBug 3 Pass.unsteadyHosts false : Run Memory.fleet Report).run m).result =
        .ok report) ∧
      ∀ n, Option.Rel MemoryHost.SameButLooks (cutShortStart.host? n)
        (((run defaultBug 3 Pass.unsteadyHosts false : Run Memory.fleet Report).run m).state.host? n) := by
  have hsettings : Pass.briefSettings.fault? = none := by decide +kernel
  have hplan : Planner.fixed (.movingAll Pass.unsteadyHosts) (Pass.candidates Pass.unsteadyHosts none)
      Pass.briefSettings.ratio = .ok (.movingAll Pass.unsteadyHosts) := by
    decide +kernel
  have hall : ∀ n ∈ Pass.unsteadyHosts.toList, (cutShortStart.host? n).all (fun h =>
      decide (h.locked = false ∧ h.inTarget = false ∧ h.hasDrone = false ∧ h.renamed = false)) =
        true := by
    decide +kernel
  have huntouched : ∀ n ∈ Pass.unsteadyHosts, ∀ h, cutShortStart.host? n = some h →
      h.locked = false ∧ h.inTarget = false ∧ h.hasDrone = false ∧ h.renamed = false := by
    intro n hn h hh
    have hn' := hall n hn
    rw [hh] at hn'
    simpa using hn'
  have herror : ((Pass.run (.fixed (.movingAll Pass.unsteadyHosts)) Pass.briefSettings
      Pass.unsteadyHosts none : Run Memory.fleet Summary).run cutShortStart).result =
      .error (.tool (Memory.reply.noDescriptor "d")) := by
    decide +kernel
  have hdrone : (((Pass.run (.fixed (.movingAll Pass.unsteadyHosts)) Pass.briefSettings
      Pass.unsteadyHosts none : Run Memory.fleet Summary).run cutShortStart).state.host? "b").any
      (·.hasDrone) = true := by
    decide +kernel
  exact ⟨hsettings, hplan, huntouched, _, _, ⟨herror, rfl⟩, hdrone,
    rollback_restores hsettings hplan cutShortStart huntouched defaultBug 3⟩

end Rollback

end Rehome
