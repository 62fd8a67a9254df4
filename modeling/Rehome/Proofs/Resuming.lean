import Rehome.Proofs.Accounting
import Rehome.Proofs.Safety

/-!
# Resuming — passes over the same hosts, each given the summary of the one before

A pass leaves alone just the hosts that the summary it is given reports as moved
(`leavesAlone_iff`). That summary is about one pass only: it says nothing of the hosts that were
moved before, because the pass left them alone. So in a chain of passes each one leaves alone what
the pass just before it moved, and the pass after that takes it up again. Everything that was ever
moved is left alone exactly in the chains where only the last two passes moved any host
(`chain_respects_iff`).
-/

namespace Rehome

variable {σ : Type} {fleet : Fleet σ} {h : Host}

/-- Whether a call is about a host and asks for more than its status. -/
def Call.Handles (call : Call) (h : Host) : Prop :=
  match call with
  | .queryStatus _ => False
  | call => h ∈ call.hosts

theorem Call.Handles.mem_hosts {call : Call} (hhandles : call.Handles h) : h ∈ call.hosts := by
  cases call with
  | queryStatus hosts => exact hhandles.elim
  | _ => exact hhandles

namespace Locking

/-- The first thing asked is to lock all of the hosts. -/
theorem yields_run {policy : RetryPolicy} {hosts : HostSet} {reason : String}
    (hpolicy : 0 < policy.maxAttempts) (hne : hosts ≠ ∅) (s : σ) :
    (run policy hosts reason : Run fleet StepResult).yields (fun _ t _ =>
      ∃ reply rest, exchanges t = ⟨.lock hosts reason, reply⟩ :: rest) s := by
  by_cases hblank : Text.isBlankText reason = true
  · rw [run, if_pos hblank]
    exact trivial
  · rw [run_of_reason (Bool.eq_false_iff.mpr hblank)]
    obtain ⟨left, hleft⟩ := Nat.exists_eq_add_of_lt hpolicy
    have hempty : ¬ hosts.isEmpty = true := fun he => hne (HostSet.isEmpty_iff.mp he)
    rw [hleft, Nat.zero_add, attempts_succ, if_neg hempty, if_neg (not_not.mpr rfl), Run.yields_bind,
      Run.yields_call]
    intro answer s₁ _
    refine Run.wp.mono (Run.wp_self _ s₁) ?_ fun _ _ _ _ => trivial
    intro _ t _ _
    exact ⟨.ok answer, exchanges t, by simp⟩

end Locking

namespace Pass

variable {hosts : HostSet} {settings : Settings} {previous : Option Summary} {s : σ}
variable {summary : Summary}

/-- A pass that ended with a summary. -/
structure Finished where
  trace : List Event
  summary : Summary

/-- Neither is a host handled in a pass, nor does the summary report anything of it. -/
def Finished.LeavesAlone (p : Finished) (h : Host) : Prop :=
  (∀ x ∈ exchanges p.trace, ¬ x.1.Handles h) ∧ ¬ h ∈ p.summary.duts.allHosts

/-- A pass leaves alone every host that an earlier one reported as moved. -/
def Finished.Respects (earlier later : Finished) : Prop :=
  ∀ h ∈ earlier.summary.duts.migrated, later.LeavesAlone h

/-- Passes over the same hosts, all of which are to move. Each ended with a summary, which the next
    one is given. The settings may change from pass to pass, and so may the fleet in between. -/
inductive Chain (fleet : Fleet σ) (hosts : HostSet) : Option Summary → List Finished → Prop where
  | nil (previous : Option Summary) : Chain fleet hosts previous []
  | cons {previous : Option Summary} {settings : Settings} {s : σ} {summary : Summary}
      {later : List Finished}
      (hok : ((run (.fixed (.movingAll hosts)) settings hosts previous : Run fleet Summary).run
        s).result = .ok summary)
      (hlater : Chain fleet hosts (some summary) later) :
      Chain fleet hosts previous
        (⟨((run (.fixed (.movingAll hosts)) settings hosts previous : Run fleet Summary).run
          s).trace, summary⟩ :: later)

/-! ## One pass -/

/-- The plan that moves all hosts, for the hosts of a pass. -/
theorem transfer_of_movingAll {ratio : Numeric.Binary64} {plan : Plan}
    (hplan : (Planner.fixed (.movingAll hosts)) (candidates hosts previous) ratio = .ok plan) :
    plan.transfer = candidates hosts previous := by
  rw [Planner.fixed] at hplan
  cases hrestrict : (Plan.movingAll hosts).restrict (candidates hosts previous) with
  | error e =>
      rw [hrestrict] at hplan
      cases hplan
  | ok restricted =>
      rw [hrestrict] at hplan
      rw [← Except.ok.inj hplan, Planner.transfer_of_restrict hrestrict]
      ext h
      rw [HostSet.mem_inter]
      exact ⟨fun hh => hh.2, fun hh => ⟨(mem_candidates hh).1, hh⟩⟩

/-- What a pass that moves all hosts leaves alone: all but the hosts it is about, and of those
    none, since it asks to lock them. -/
theorem leavesAlone_iff (hfleet : fleet.DescribesAsked)
    (hok : ((run (.fixed (.movingAll hosts)) settings hosts previous : Run fleet Summary).run
      s).result = .ok summary) (h : Host) :
    (⟨((run (.fixed (.movingAll hosts)) settings hosts previous : Run fleet Summary).run s).trace,
      summary⟩ : Finished).LeavesAlone h ↔ ¬ h ∈ candidates hosts previous := by
  have hyields : (run (.fixed (.movingAll hosts)) settings hosts previous :
      Run fleet Summary).yields (fun summary t _ =>
        (h ∈ summary.duts.allHosts ↔ h ∈ candidates hosts previous) ∧
        (h ∈ candidates hosts previous → ∃ x ∈ exchanges t, x.1.Handles h)) s := by
    refine yields_run fun checked plan hchecked hplan => (yields_execute h plan s).mono ?_
    have htransfer := transfer_of_movingAll hplan
    rintro summary t s' ⟨duts, fate, rfl, hreports, hsome, hshown⟩
    rw [htransfer] at hsome
    refine ⟨hreports.mem_allHosts.trans hsome, fun hh => ?_⟩
    obtain ⟨f, hf⟩ := Option.isSome_iff_exists.mp (hsome.mpr hh)
    obtain ⟨locking, attempted, s₁, time, rows, moving, hlocking, rfl, -⟩ := hshown f hf
    have hne : plan.transfer ≠ ∅ := HostSet.ne_empty_of_mem (htransfer ▸ hh)
    have hfirst : (Locking.run checked.lockRetry plan.transfer checked.reason :
        Run fleet StepResult).yields _ s := Locking.yields_run checked.tries_everything.2.1 hne s
    obtain ⟨reply, rest, hex⟩ := hfirst.of_ok (by rw [hlocking])
    rw [hlocking] at hex
    refine ⟨⟨.lock plan.transfer checked.reason, reply⟩, ?_, ?_⟩
    · rw [exchanges_planned, exchanges_append, hex]
      simp
    · show h ∈ plan.transfer
      rw [htransfer]
      exact hh
  obtain ⟨hreported, hlocked⟩ := hyields.of_ok hok
  constructor
  · rintro ⟨-, hsilent⟩ hh
    exact hsilent (hreported.mpr hh)
  · intro hout
    refine ⟨fun x hx hhandles => hout ?_, fun hh => hout (hreported.mp hh)⟩
    obtain ⟨earlier, later, hsplit⟩ := List.append_of_mem hx
    have hrun : (run (.fixed (.movingAll hosts)) settings hosts previous :
        Run fleet Summary).obeys _ [] _ s := obeys_run hfleet
    have hobeys := hrun.trace
    rw [hsplit] at hobeys
    obtain ⟨plan, hplan, -, hsub, -⟩ := hobeys.rule_of_split
    rw [← transfer_of_movingAll hplan]
    exact hsub h hhandles.mem_hosts

/-! ## Chains of passes -/

section

variable {p q r : Finished} {later passes : List Finished}

theorem Finished.not_leavesAlone_of_migrated (hh : h ∈ p.summary.duts.migrated) :
    ¬ p.LeavesAlone h := by
  rintro ⟨-, hsilent⟩
  exact hsilent (HostSet.mem_unions.mpr ⟨p.summary.duts.migrated, List.mem_cons_self, hh⟩)

theorem Chain.head (hfleet : fleet.DescribesAsked)
    (hchain : Chain fleet hosts previous (p :: later)) :
    (∀ h, p.LeavesAlone h ↔ ¬ h ∈ candidates hosts previous) ∧
      Chain fleet hosts (some p.summary) later := by
  cases hchain with
  | cons hok hlater => exact ⟨leavesAlone_iff hfleet hok, hlater⟩

theorem Chain.respects_next (hfleet : fleet.DescribesAsked)
    (hchain : Chain fleet hosts previous (p :: q :: later)) : p.Respects q := by
  obtain ⟨-, hlater⟩ := hchain.head hfleet
  obtain ⟨hq, -⟩ := hlater.head hfleet
  intro h hh
  rw [hq h]
  intro hin
  exact (mem_candidates hin).2 p.summary rfl hh

/-- What a pass moved is not moved by the next one, and so it is not left alone by the one after. -/
theorem Chain.taken_up_again (hfleet : fleet.DescribesAsked)
    (hchain : Chain fleet hosts previous (p :: q :: r :: later))
    (hh : h ∈ p.summary.duts.migrated) : ¬ r.LeavesAlone h := by
  have hnext := hchain.respects_next hfleet h hh
  obtain ⟨hp, hlater⟩ := hchain.head hfleet
  obtain ⟨-, hlater'⟩ := hlater.head hfleet
  obtain ⟨hr, -⟩ := hlater'.head hfleet
  have hin : h ∈ candidates hosts previous := by
    by_contra hout
    exact Finished.not_leavesAlone_of_migrated hh ((hp h).mpr hout)
  have hq : ¬ h ∈ q.summary.duts.migrated := fun hmoved =>
    Finished.not_leavesAlone_of_migrated hmoved hnext
  rw [hr h, not_not]
  exact HostSet.mem_sdiff.mpr ⟨(mem_candidates hin).1, hq⟩

/-- In a chain each pass leaves alone what the one just before it moved. That every pass leaves alone
    what any earlier one moved holds exactly when no pass but the last two moved a host. -/
theorem chain_respects_iff (hfleet : fleet.DescribesAsked)
    (hchain : Chain fleet hosts previous passes) :
    passes.IsChain Finished.Respects ∧
    (passes.Pairwise Finished.Respects ↔
      ∀ p ∈ passes.dropLast.dropLast, p.summary.duts.migrated = ∅) := by
  induction passes generalizing previous with
  | nil => exact ⟨.nil, fun _ _ hp => (nomatch hp), fun _ => .nil⟩
  | cons p later ih =>
      obtain ⟨hnext, hpairs⟩ := ih (hchain.head hfleet).2
      cases later with
      | nil => exact ⟨.singleton p, fun _ _ hp => (nomatch hp), fun _ => List.pairwise_singleton _ p⟩
      | cons q later =>
          have hfirst := hchain.respects_next hfleet
          refine ⟨.cons_cons hfirst hnext, ?_⟩
          rw [List.pairwise_cons, hpairs]
          cases later with
          | nil =>
              constructor
              · intro _ _ hp
                exact nomatch hp
              · intro hnone
                exact ⟨fun x hx => List.mem_singleton.mp hx ▸ hfirst, fun _ hp => (nomatch hp)⟩
          | cons r later =>
              have hsplit : (∀ x ∈ (p :: q :: r :: later).dropLast.dropLast,
                  x.summary.duts.migrated = ∅) ↔ p.summary.duts.migrated = ∅ ∧
                    ∀ x ∈ (q :: r :: later).dropLast.dropLast, x.summary.duts.migrated = ∅ :=
                List.forall_mem_cons
              rw [hsplit]
              refine and_congr_left fun _ => ?_
              constructor
              · intro hall
                ext h
                refine ⟨fun hh => ?_, fun hh => absurd hh (HostSet.notMem_empty h)⟩
                exact absurd (hall r (by simp) h hh) (hchain.taken_up_again hfleet hh)
              · intro hnone x _ h hh
                rw [hnone] at hh
                exact absurd hh (HostSet.notMem_empty h)

end

/-! ## Three passes over two hosts -/

/-- Of two hosts one is never renamed. -/
def stragglerStart : Memory := ⟨[("a", {}), ("b", { renameFails := true })], 0⟩

def stragglerHosts : HostSet := .ofList ["a", "b"]

/-- A pass over both hosts without waiting. -/
def stragglerPass (previous : Option Summary) : Run Memory.fleet Summary :=
  run (.fixed (.movingAll stragglerHosts))
    { migrateImmediately := true, renameRetry := .immediate 1 } stragglerHosts previous

/-- A pass over both hosts. -/
def bothSummary : Summary :=
  .ofDuts (.movingAll stragglerHosts)
    { migrated := .ofList ["a"], needsRename := .ofList ["b"] }

/-- A pass that is told that `a` has moved. -/
def secondSummary : Summary :=
  .ofDuts (.movingAll (.ofList ["b"])) { needsRename := .ofList ["b"] }

/-- A first pass, which moves `a`. -/
def firstPass : Finished := ⟨((stragglerPass none).run stragglerStart).trace, bothSummary⟩

/-- The fleet after the first pass. -/
def afterFirst : Memory := ((stragglerPass none).run stragglerStart).state

/-- A second pass, which is given the summary of the first. -/
def secondPass : Finished :=
  ⟨((stragglerPass (some bothSummary)).run afterFirst).trace, secondSummary⟩

/-- The fleet after the second pass. -/
def afterSecond : Memory := ((stragglerPass (some bothSummary)).run afterFirst).state

/-- A third pass, which is given the summary of the second. -/
def thirdPass : Finished :=
  ⟨((stragglerPass (some secondSummary)).run afterSecond).trace, bothSummary⟩

theorem chain_straggler :
    Chain Memory.fleet stragglerHosts none [firstPass, secondPass, thirdPass] := by
  have hfirst : ((stragglerPass none).run stragglerStart).result = .ok bothSummary := by
    decide +kernel
  have hsecond : ((stragglerPass (some bothSummary)).run afterFirst).result =
      .ok secondSummary := by
    decide +kernel
  have hthird : ((stragglerPass (some secondSummary)).run afterSecond).result =
      .ok bothSummary := by
    decide +kernel
  exact .cons hfirst (.cons hsecond (.cons hthird (.nil _)))

/-- The second pass is about `b` only, so the third locks `a` and moves it again. -/
theorem moved_again_by_third_pass :
    Chain Memory.fleet stragglerHosts none [firstPass, secondPass, thirdPass] ∧
    "a" ∈ firstPass.summary.duts.migrated ∧
    (∃ x ∈ exchanges thirdPass.trace,
      x.1 = .lock stragglerHosts "migration to the new fleet system") ∧
    "a" ∈ stragglerHosts ∧ "a" ∈ thirdPass.summary.duts.migrated := by
  refine ⟨chain_straggler, ?_, ?_, ?_, ?_⟩ <;> decide +kernel

/-- Each of the three passes respects the one before it, but the third does not respect the first. -/
theorem chain_respects_straggler :
    Memory.fleet.DescribesAsked ∧
    Chain Memory.fleet stragglerHosts none [firstPass, secondPass, thirdPass] ∧
    [firstPass, secondPass, thirdPass].IsChain Finished.Respects ∧
    ¬ [firstPass, secondPass, thirdPass].Pairwise Finished.Respects := by
  have hchain := chain_respects_iff describesAsked_memory chain_straggler
  refine ⟨describesAsked_memory, chain_straggler, hchain.1, fun hpairs => ?_⟩
  have hnone : firstPass.summary.duts.migrated = ∅ :=
    hchain.2.mp hpairs firstPass List.mem_cons_self
  exact absurd hnone (by decide +kernel)

end Pass

end Rehome
