import Rehome.Proofs.Splitting

/-!
# Restricting — a plan for some of the hosts

A plan as it is read from a file may name a host in both groups (`Plan.NamesTwice`), and it may leave
hosts out (`Plan.LeavesOut`). A restriction refuses it for either, the first before the second, and
blames the smallest host that there is to blame. Otherwise it splits the hosts.

A restriction is a plan like any other, so it can be restricted again, as one pass after the other
has fewer hosts left. The main result, `restrictions_compose`, says that it makes no difference
whether the plan of the pass before is restricted or the one that all began with.
-/

namespace Rehome

/-! ## Smallest hosts -/

/-- The smallest of the hosts with a property. -/
def Smallest (p : Host → Prop) (h : Host) : Prop := p h ∧ ∀ k, p k → ¬ k < h

theorem Smallest.congr {p q : Host → Prop} {h : Host} (hsmallest : Smallest p h)
    (hsame : ∀ k, p k ↔ q k) : Smallest q h :=
  ⟨(hsame h).mp hsmallest.1, fun k hk => hsmallest.2 k ((hsame k).mpr hk)⟩

theorem HostSet.smallest_of_first? {s : HostSet} {h : Host} (hfirst : s.first? = some h) :
    Smallest (· ∈ s) h := by
  rw [first?, List.head?_eq_some_iff] at hfirst
  obtain ⟨later, hlist⟩ := hfirst
  have hascending := s.ascending
  rw [hlist, List.pairwise_cons] at hascending
  have hmem : ∀ k, k ∈ s ↔ k = h ∨ k ∈ later := by
    intro k
    rw [← mem_toList, hlist, List.mem_cons]
  refine ⟨(hmem h).mpr (.inl rfl), ?_⟩
  intro k hk hlt
  rcases (hmem k).mp hk with rfl | hlater
  · exact String.lt_irrefl k hlt
  · exact String.lt_irrefl k (String.lt_trans hlt (hascending.1 k hlater))

/-- A set with a member has a first one, and that is the smallest. -/
theorem HostSet.exists_first? {s : HostSet} {n : Host} (hn : n ∈ s) :
    ∃ h, s.first? = some h ∧ Smallest (· ∈ s) h := by
  cases hfirst : s.first? with
  | none =>
      rw [Planner.first?_eq_none_iff.mp hfirst] at hn
      exact absurd hn (notMem_empty n)
  | some h => exact ⟨h, rfl, smallest_of_first? hfirst⟩

namespace Plan

variable {plan restricted : Plan} {hosts fewer : HostSet} {n : Host}

/-! ## What a plan can be blamed for -/

/-- The plan names a host in both groups. -/
def NamesTwice (plan : Plan) (h : Host) : Prop := h ∈ plan.transfer ∧ h ∈ plan.retain

/-- The plan has no group for a host. -/
def LeavesOut (plan : Plan) (h : Host) : Prop := ¬ h ∈ plan.transfer ∧ ¬ h ∈ plan.retain

theorem overlap?_of_namesTwice (hn : plan.NamesTwice n) :
    ∃ host, plan.overlap? = some host ∧ Smallest plan.NamesTwice host := by
  obtain ⟨host, hfirst, hsmallest⟩ := HostSet.exists_first? (HostSet.mem_inter.mpr hn)
  exact ⟨host, hfirst, hsmallest.congr fun _ => HostSet.mem_inter⟩

theorem overlap?_eq_none (honce : ∀ h, ¬ plan.NamesTwice h) : plan.overlap? = none := by
  refine Planner.first?_eq_none_iff.mpr (HostSet.eq_empty_iff.mpr ?_)
  intro h hh
  exact honce h (HostSet.mem_inter.mp hh)

theorem mem_uncovered_iff {h : Host} :
    h ∈ hosts \ (plan.transfer ∪ plan.retain) ↔ h ∈ hosts ∧ plan.LeavesOut h := by
  rw [HostSet.mem_sdiff, HostSet.mem_union, not_or, LeavesOut]

theorem uncovered?_of_leavesOut (hn : n ∈ hosts) (hout : plan.LeavesOut n) :
    ∃ host, plan.uncovered? hosts = some host ∧
      Smallest (fun h => h ∈ hosts ∧ plan.LeavesOut h) host := by
  obtain ⟨host, hfirst, hsmallest⟩ := HostSet.exists_first? (mem_uncovered_iff.mpr ⟨hn, hout⟩)
  exact ⟨host, hfirst, hsmallest.congr fun _ => mem_uncovered_iff⟩

/-! ## Restricting again -/

/-- A plan that splits hosts can be restricted to some of them. -/
theorem Splits.restrict (hsplits : plan.Splits hosts) (hfewer : fewer ⊆ hosts) :
    plan.restrict fewer = .ok ⟨plan.transfer ∩ fewer, plan.retain ∩ fewer⟩ := by
  refine Planner.restrict_eq_ok_iff.mpr ⟨hsplits.disjoint, ?_, rfl⟩
  rw [hsplits.covers]
  exact HostSet.sdiff_eq_empty_iff.mpr hfewer

/-- Restricting a restriction comes to restricting the plan itself. -/
theorem restrict_restrict (hok : plan.restrict hosts = .ok restricted) (hfewer : fewer ⊆ hosts) :
    ∃ again, restricted.restrict fewer = .ok again ∧ plan.restrict fewer = .ok again :=
  ⟨_, (Planner.splits_of_restrict hok).restrict hfewer, Planner.restrict_of_subset hok hfewer⟩

/-- A restriction to hosts has nothing left to restrict to them. -/
theorem restrict_of_restrict (hok : plan.restrict hosts = .ok restricted) :
    restricted.restrict hosts = .ok restricted := by
  have hsplits := Planner.splits_of_restrict hok
  have hself := restrict_self hsplits.disjoint
  rwa [hsplits.covers] at hself

/-- What becomes of a plan that is restricted to hosts. If it names hosts twice, the smallest of
    these is blamed; if not, but it leaves out some of the hosts, the smallest of those is; and else
    the hosts are split as the plan has it. What is left of a plan can be restricted to fewer hosts as
    the plan itself can, with the same result, and to the same hosts without any. -/
theorem restrictions_compose (plan : Plan) (hosts : HostSet) :
    ((∃ h, plan.NamesTwice h) →
      ∃ host, plan.restrict hosts = .error (.overlap host) ∧ Smallest plan.NamesTwice host) ∧
    ((∀ h, ¬ plan.NamesTwice h) → (∃ h ∈ hosts, plan.LeavesOut h) →
      ∃ host, plan.restrict hosts = .error (.uncovered host) ∧
        Smallest (fun h => h ∈ hosts ∧ plan.LeavesOut h) host) ∧
    ((∀ h, ¬ plan.NamesTwice h) → (∀ h ∈ hosts, ¬ plan.LeavesOut h) →
      ∃ restricted, plan.restrict hosts = .ok restricted ∧ restricted.Splits hosts ∧
        restricted.transfer ⊆ plan.transfer ∧ restricted.retain ⊆ plan.retain) ∧
    ∀ restricted, plan.restrict hosts = .ok restricted →
      (∀ fewer, fewer ⊆ hosts →
        ∃ again, restricted.restrict fewer = .ok again ∧ plan.restrict fewer = .ok again) ∧
      restricted.restrict hosts = .ok restricted := by
  refine ⟨?_, ?_, ?_, ?_⟩
  · rintro ⟨h, hh⟩
    obtain ⟨host, hoverlap, hsmallest⟩ := overlap?_of_namesTwice hh
    exact ⟨host, by rw [Plan.restrict, hoverlap], hsmallest⟩
  · rintro honce ⟨h, hin, hout⟩
    obtain ⟨host, huncovered, hsmallest⟩ := uncovered?_of_leavesOut hin hout
    exact ⟨host, by rw [Plan.restrict, overlap?_eq_none honce, huncovered], hsmallest⟩
  · intro honce hcovers
    have hnone : plan.uncovered? hosts = none := by
      refine Planner.first?_eq_none_iff.mpr (HostSet.eq_empty_iff.mpr ?_)
      intro h hh
      obtain ⟨hin, hout⟩ := mem_uncovered_iff.mp hh
      exact hcovers h hin hout
    have hok : plan.restrict hosts = .ok ⟨plan.transfer ∩ hosts, plan.retain ∩ hosts⟩ := by
      rw [Plan.restrict, overlap?_eq_none honce, hnone]
    refine ⟨_, hok, Planner.splits_of_restrict hok, ?_, ?_⟩
    · exact fun h hh => (HostSet.mem_inter.mp hh).1
    · exact fun h hh => (HostSet.mem_inter.mp hh).1
  · intro restricted hok
    exact ⟨fun fewer hfewer => restrict_restrict hok hfewer, restrict_of_restrict hok⟩

/-- A plan with two hosts in both groups. -/
def tornPlan : Plan := ⟨.ofList ["b", "d", "a"], .ofList ["c", "d", "b"]⟩

/-- A plan for more hosts than there are. -/
def widePlan : Plan := ⟨.ofList ["a", "b", "x"], .ofList ["c", "y"]⟩

/-- The first of two hosts in both groups is blamed although one host has no group, the first of two
    hosts without a group is, and a plan for three hosts is restricted to two of them. -/
theorem restrictions_compose_wide :
    (∃ host, tornPlan.restrict (.ofList ["z", "a"]) = .error (.overlap host) ∧
      Smallest tornPlan.NamesTwice host) ∧
    (∃ host, widePlan.restrict (.ofList ["e", "a", "d"]) = .error (.uncovered host) ∧
      Smallest (fun h => h ∈ HostSet.ofList ["e", "a", "d"] ∧ widePlan.LeavesOut h) host) ∧
    ∃ restricted, widePlan.restrict (.ofList ["a", "b", "c"]) = .ok restricted ∧
      restricted.Splits (.ofList ["a", "b", "c"]) ∧
      (∃ again, restricted.restrict (.ofList ["c", "a"]) = .ok again ∧
        widePlan.restrict (.ofList ["c", "a"]) = .ok again) ∧
      restricted.restrict (.ofList ["a", "b", "c"]) = .ok restricted := by
  have hdisjoint : widePlan.transfer ∩ widePlan.retain = ∅ := by decide
  have honce : ∀ h, ¬ widePlan.NamesTwice h := by
    intro h hh
    exact HostSet.notMem_empty h (hdisjoint ▸ HostSet.mem_inter.mpr hh)
  have hcovers : ∀ h ∈ HostSet.ofList ["a", "b", "c"], ¬ widePlan.LeavesOut h := by
    have hnone : HostSet.ofList ["a", "b", "c"] \ (widePlan.transfer ∪ widePlan.retain) = ∅ := by decide
    intro h hin hout
    exact HostSet.notMem_empty h (hnone ▸ mem_uncovered_iff.mpr ⟨hin, hout⟩)
  obtain ⟨htorn, -⟩ := restrictions_compose tornPlan (.ofList ["z", "a"])
  obtain ⟨-, hleft, -⟩ := restrictions_compose widePlan (.ofList ["e", "a", "d"])
  obtain ⟨-, -, hok, hagain⟩ := restrictions_compose widePlan (.ofList ["a", "b", "c"])
  obtain ⟨restricted, hrestricted, hsplits, -⟩ := hok honce hcovers
  obtain ⟨hfewer, hsame⟩ := hagain restricted hrestricted
  refine ⟨htorn ⟨"d", by decide, by decide⟩, hleft honce ⟨"d", by decide, by decide, by decide⟩,
    restricted, hrestricted, hsplits, hfewer _ ?_, hsame⟩
  exact HostSet.sdiff_eq_empty_iff.mp (by decide)

end Plan

end Rehome
