import Rehome.Fleet.Memory
import Rehome.Proofs.Accounting
import Rehome.Proofs.Planning

/-!
# Stragglers — what a second pass with the same fixed plan is about

A fixed plan says of every host whether it moves, so a pass that is given the summary of an earlier
one over the same hosts gets the earlier plan again without the hosts that were moved. Planning
cannot fail: hosts that a plan covers are covered when there are fewer of them. What is to move is
then just what the first summary says needs attention, and together the two summaries account for
the first transfer group once (`second_pass_retries_stragglers`).

The two passes have nothing in common but the hosts, the plan and the summary. The settings of the
second may be others, and so may its fleet, which may answer what it likes.
-/

namespace Rehome

/-! ## What needs attention -/

/-- What an account of a transfer group says needs attention is what was not moved. -/
theorem Summary.needsAttention_eq {plan : Plan} {duts : Duts} (hd : duts.AccountsFor plan.transfer) :
    (ofDuts plan duts).needsAttention = plan.transfer \ duts.migrated := by
  show duts.allHosts \ duts.migrated = _
  rw [hd.allHosts_eq]

theorem Duts.AccountsFor.migrated_subset {duts : Duts} {hosts : HostSet}
    (hd : duts.AccountsFor hosts) : duts.migrated ⊆ hosts := by
  intro h hh
  obtain ⟨fate, hreports, hiff⟩ := hd h
  refine hiff.mp ?_
  rw [(hreports .migrated).mp hh]
  rfl

/-- Where one account ends and another of the rest goes on, each host is in one category of both. -/
theorem Duts.AccountsFor.pairwise_cons_categories {moved hosts : HostSet} {duts : Duts}
    (hd : duts.AccountsFor (hosts \ moved)) :
    (moved :: duts.categories).Pairwise fun a b => a ∩ b = ∅ := by
  refine List.pairwise_cons.mpr ⟨fun category hcategory => ?_, hd.pairwise_categories⟩
  ext h
  refine ⟨fun hh => ?_, fun hh => absurd hh (HostSet.notMem_empty h)⟩
  obtain ⟨hmoved, hin⟩ := HostSet.mem_inter.mp hh
  have hrest : h ∈ hosts \ moved :=
    hd.allHosts_eq ▸ HostSet.mem_unions.mpr ⟨category, hcategory, hin⟩
  exact absurd hmoved (HostSet.mem_sdiff.mp hrest).2

theorem Duts.AccountsFor.unions_cons_categories {moved hosts : HostSet} {duts : Duts}
    (hd : duts.AccountsFor (hosts \ moved)) (hmoved : moved ⊆ hosts) :
    HostSet.unions (moved :: duts.categories) = hosts := by
  show moved ∪ duts.allHosts = hosts
  rw [hd.allHosts_eq]
  ext h
  rw [HostSet.mem_union, HostSet.mem_sdiff]
  constructor
  · rintro (hh | ⟨hh, -⟩)
    · exact hmoved h hh
    · exact hh
  · intro hh
    by_cases hin : h ∈ moved
    · exact .inl hin
    · exact .inr ⟨hh, hin⟩

namespace Pass

variable {σ τ : Type} {fleet : Fleet σ} {settings : Settings} {hosts : HostSet}
variable {previous : Option Summary} {s : σ}

/-! ## One pass -/

/-- The summary of a pass is of the plan that its source made, and accounts for the transfer group of
    that plan. -/
theorem yields_run_accounts {source : Planner} :
    (run source settings hosts previous : Run fleet Summary).yields (fun summary _ _ =>
      ∃ plan duts, source (candidates hosts previous) settings.ratio = .ok plan ∧
        summary = .ofDuts plan duts ∧ duts.AccountsFor plan.transfer) s := by
  refine yields_run fun checked plan _ hplan => ?_
  -- the account is of one host at a time, and the summary is the same for all of them
  refine (Run.yields_forall fun h => yields_execute h plan s).mono ?_
  intro summary t s' hall
  obtain ⟨duts, -, rfl, -⟩ := hall ""
  refine ⟨plan, duts, hplan, rfl, fun h => ?_⟩
  obtain ⟨duts', fate, hsame, hreports, hsome, -⟩ := hall h
  have hduts : duts = duts' := congrArg Summary.duts hsame
  exact ⟨fate, hduts ▸ hreports, hsome⟩

/-! ## Two passes -/

/-- A second pass over the same hosts with the same fixed plan, given the summary of a first, has a
    plan, whatever its settings: to move what needs attention, which is what the first was to move
    and did not, and to retain what the first retained. If it ends with a summary as well, the hosts
    that the first moved and the categories of the second are disjoint and make up what the first
    was to move. -/
theorem second_pass_retries_stragglers {plan : Plan} {first : Summary}
    (hok : ((run (.fixed plan) settings hosts none : Run fleet Summary).run s).result = .ok first)
    (fleet' : Fleet τ) (settings' : Settings) :
    ∃ again : Plan,
      (Planner.fixed plan) (candidates hosts (some first)) settings'.ratio = .ok again ∧
      again.transfer = first.needsAttention ∧
      first.needsAttention = first.plan.transfer \ first.duts.migrated ∧
      again.retain = first.plan.retain ∧
      (run (.fixed plan) settings' hosts (some first) : Run fleet' Summary) =
        (do
          let checked ← Run.ofExcept settings'.check
          let _ ← Run.plan (.fixed plan) (candidates hosts (some first)) settings'.ratio
          execute checked again) ∧
      ∀ (s' : τ) (second : Summary),
        ((run (.fixed plan) settings' hosts (some first) : Run fleet' Summary).run s').result =
          .ok second →
        second.plan = again ∧
        ((first.duts.migrated :: second.duts.categories).Pairwise fun a b => a ∩ b = ∅) ∧
        HostSet.unions (first.duts.migrated :: second.duts.categories) = first.plan.transfer := by
  have hfirst : (run (.fixed plan) settings hosts none : Run fleet Summary).yields _ s :=
    yields_run_accounts
  obtain ⟨split, duts, hsplit, rfl, haccounts⟩ := hfirst.of_ok hok
  have hmoved := haccounts.migrated_subset
  have hagain : (Planner.fixed plan) (candidates hosts (some (.ofDuts split duts)))
      settings'.ratio = .ok ⟨split.transfer \ duts.migrated, split.retain⟩ :=
    Planner.fixed_eq_ok_iff.mpr
      (Planner.restrict_sdiff (Planner.fixed_eq_ok_iff.mp hsplit) hmoved)
  refine ⟨⟨split.transfer \ duts.migrated, split.retain⟩, hagain,
    (Summary.needsAttention_eq haccounts).symm, Summary.needsAttention_eq haccounts, rfl, ?_, ?_⟩
  · cases hcheck : settings'.check with
    | error e => exact run_of_fault hcheck
    | ok checked =>
        rw [run_of_check hcheck]
        exact run_plan_eq hagain fun again => execute checked again
  · intro s' second hsecond
    have hyields : (run (.fixed plan) settings' hosts (some (.ofDuts split duts)) :
        Run fleet' Summary).yields _ s' := yields_run_accounts
    obtain ⟨again, duts', hplan, rfl, haccounts'⟩ := hyields.of_ok hsecond
    have hsame : again = ⟨split.transfer \ duts.migrated, split.retain⟩ :=
      Except.ok.inj (hplan.symm.trans hagain)
    rw [hsame] at haccounts'
    exact ⟨hsame, haccounts'.pairwise_cons_categories, haccounts'.unions_cons_categories hmoved⟩

/-- Two hosts are to move and one is to stay. -/
def twoOfThree : Plan := ⟨.ofList ["a", "b"], .ofList ["c"]⟩

/-- A pass over three hosts without waiting. -/
def twoOfThreePass (previous : Option Summary) : Run Memory.fleet Summary :=
  run (.fixed twoOfThree) { migrateImmediately := true, renameRetry := .immediate 1 }
    (.ofList ["a", "b", "c"]) previous

/-- A fleet that never renames `b`. -/
def oneNeverRenamed : Memory := ⟨[("a", {}), ("b", { renameFails := true }), ("c", {})], 0⟩

/-- The first pass over it moves `a`. -/
def oneMoved : Summary :=
  .ofDuts twoOfThree { migrated := .ofList ["a"], needsRename := .ofList ["b"] }

/-- The second pass is on another fleet, where `b` is renamed, and moves what the first did not. -/
theorem second_pass_retries_b :
    ((twoOfThreePass none).run oneNeverRenamed).result = .ok oneMoved ∧
    ∃ second : Summary,
      ((twoOfThreePass (some oneMoved)).run ⟨[("b", {})], 0⟩).result = .ok second ∧
      second.plan = ⟨.ofList ["b"], .ofList ["c"]⟩ ∧
      HostSet.unions (oneMoved.duts.migrated :: second.duts.categories) = twoOfThree.transfer := by
  have hok : ((twoOfThreePass none).run oneNeverRenamed).result = .ok oneMoved := by
    decide +kernel
  have hsecond : ((twoOfThreePass (some oneMoved)).run ⟨[("b", {})], 0⟩).result =
      .ok (.ofDuts ⟨.ofList ["b"], .ofList ["c"]⟩ { migrated := .ofList ["b"] }) := by
    decide +kernel
  obtain ⟨_, -, -, -, -, -, hall⟩ := second_pass_retries_stragglers hok Memory.fleet
    { migrateImmediately := true, renameRetry := .immediate 1 }
  exact ⟨hok, _, hsecond, rfl, (hall _ _ hsecond).2.2⟩

end Pass

end Rehome
