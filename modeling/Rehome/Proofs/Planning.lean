import Rehome.Planner

/-!
# Planning — who is asked to move

Whoever makes the plan of a pass, and whatever the words that decide it by lot, only hosts of the
pass are to move (`Planner.Provided.transfer_subset`).
-/

namespace Rehome

namespace Planner

/-- The planners there are: the words of a source decide, or the plan is decided ahead of time. -/
inductive Provided : Planner → Prop where
  | drawn {τ : Type} (source : Chance.Source τ) (start : τ) : Provided (drawn source start)
  | fixed (plan : Plan) : Provided (fixed plan)

theorem mem_of_mem_ofPositions {α : Type} {items : List α} {chosen : List Nat} {a : α}
    (ha : a ∈ (Partition.ofPositions items chosen).transfer) : a ∈ items := by
  rw [Partition.ofPositions, List.partition_eq_filter_filter, List.mem_map] at ha
  obtain ⟨entry, hentry, rfl⟩ := ha
  exact List.fst_mem_of_mem_zipIdx (List.mem_filter.mp hentry).1

theorem mem_of_mem_partition {τ α : Type} {source : Chance.Source τ} {tries : Nat}
    {items : List α} {ratio : Numeric.Binary64} {w w' : τ} {split : Partition α}
    (hsplit : partition source tries items ratio w = .ok (.ok split, w')) {a : α}
    (ha : a ∈ split.transfer) : a ∈ items := by
  unfold partition at hsplit
  split at hsplit
  · exact nomatch hsplit
  · exact nomatch hsplit
  · split at hsplit
    · exact nomatch hsplit
    · cases hsplit
      exact mem_of_mem_ofPositions ha

theorem eq_of_check {plan plan' : Plan} (h : plan.check = .ok plan') : plan' = plan := by
  rw [Plan.check] at h
  cases hoverlap : plan.overlap? with
  | some host => rw [hoverlap] at h; exact nomatch h
  | none => rw [hoverlap] at h; exact (Except.ok.inj h).symm

theorem first?_eq_none_iff {s : HostSet} : s.first? = none ↔ s = ∅ := by
  rw [HostSet.first?, List.head?_eq_none_iff, ← HostSet.isEmpty_iff, HostSet.isEmpty,
    List.isEmpty_iff]

/-- A plan can be restricted to hosts that it puts into a group each, if its groups are disjoint. -/
theorem restrict_eq_ok_iff {plan plan' : Plan} {hosts : HostSet} :
    plan.restrict hosts = .ok plan' ↔ plan.transfer ∩ plan.retain = ∅ ∧
      hosts \ (plan.transfer ∪ plan.retain) = ∅ ∧
      plan' = ⟨plan.transfer ∩ hosts, plan.retain ∩ hosts⟩ := by
  rw [Plan.restrict, ← first?_eq_none_iff, ← first?_eq_none_iff]
  show _ ↔ plan.overlap? = none ∧ plan.uncovered? hosts = none ∧ _
  cases hoverlap : plan.overlap? with
  | some host => simp
  | none =>
      cases huncovered : plan.uncovered? hosts with
      | some host => simp
      | none => simp [eq_comm]

theorem transfer_of_restrict {plan plan' : Plan} {hosts : HostSet}
    (h : plan.restrict hosts = .ok plan') : plan'.transfer = plan.transfer ∩ hosts := by
  obtain ⟨-, -, rfl⟩ := restrict_eq_ok_iff.mp h
  rfl

/-- A plan for hosts can be restricted further to some of them. -/
theorem restrict_of_subset {plan plan' : Plan} {hosts fewer : HostSet}
    (h : plan.restrict hosts = .ok plan') (hfewer : fewer ⊆ hosts) :
    plan.restrict fewer = .ok ⟨plan'.transfer ∩ fewer, plan'.retain ∩ fewer⟩ := by
  obtain ⟨hoverlap, huncovered, rfl⟩ := restrict_eq_ok_iff.mp h
  have hrestricted : ∀ group : HostSet, group ∩ fewer = group ∩ hosts ∩ fewer := by
    intro group
    ext h
    simp only [HostSet.mem_inter]
    exact ⟨fun hh => ⟨⟨hh.1, hfewer h hh.2⟩, hh.2⟩, fun hh => ⟨hh.1.1, hh.2⟩⟩
  refine restrict_eq_ok_iff.mpr ⟨hoverlap, ?_, ?_⟩
  · ext h
    refine ⟨fun hh => ?_, fun hh => absurd hh (HostSet.notMem_empty h)⟩
    obtain ⟨hin, hout⟩ := HostSet.mem_sdiff.mp hh
    exact huncovered ▸ HostSet.mem_sdiff.mpr ⟨hfewer h hin, hout⟩
  · rw [← hrestricted, ← hrestricted]

/-- A plan for hosts can be restricted to those that did not move yet, and retains the same hosts. -/
theorem restrict_sdiff {plan plan' : Plan} {hosts moved : HostSet}
    (h : plan.restrict hosts = .ok plan') (hmoved : moved ⊆ plan'.transfer) :
    plan.restrict (hosts \ moved) = .ok ⟨plan'.transfer \ moved, plan'.retain⟩ := by
  rw [restrict_of_subset h fun k hk => (HostSet.mem_sdiff.mp hk).1]
  obtain ⟨hoverlap, -, rfl⟩ := restrict_eq_ok_iff.mp h
  have htransfer : plan.transfer ∩ hosts ∩ (hosts \ moved) = (plan.transfer ∩ hosts) \ moved := by
    ext k
    simp only [HostSet.mem_inter, HostSet.mem_sdiff]
    exact ⟨fun hk => ⟨hk.1, hk.2.2⟩, fun hk => ⟨hk.1, hk.1.2, hk.2⟩⟩
  have hretain : plan.retain ∩ hosts ∩ (hosts \ moved) = plan.retain ∩ hosts := by
    ext k
    simp only [HostSet.mem_inter, HostSet.mem_sdiff]
    refine ⟨fun hk => hk.1, fun hk => ⟨hk, hk.2, fun hm => ?_⟩⟩
    -- a host that moved was to move, and the groups of the plan have no host in common
    have hboth : k ∈ plan.transfer ∩ plan.retain :=
      HostSet.mem_inter.mpr ⟨(HostSet.mem_inter.mp (hmoved k hm)).1, hk.1⟩
    exact HostSet.notMem_empty k (hoverlap ▸ hboth)
  simp only [htransfer, hretain]

theorem fixed_eq_ok_iff {plan plan' : Plan} {hosts : HostSet} {ratio : Numeric.Binary64} :
    fixed plan hosts ratio = .ok plan' ↔ plan.restrict hosts = .ok plan' := by
  rw [fixed]
  cases plan.restrict hosts with
  | error e => exact ⟨fun h => (nomatch h), fun h => (nomatch h)⟩
  | ok restricted =>
      show Except.ok restricted = Except.ok plan' ↔ _
      rw [Except.ok.injEq, Except.ok.injEq]

/-- Nobody plans to move other hosts than those of the pass. -/
theorem Provided.transfer_subset {source : Planner} (hsource : source.Provided) {hosts : HostSet}
    {ratio : Numeric.Binary64} {plan : Plan} (hplan : source hosts ratio = .ok plan) :
    plan.transfer ⊆ hosts := by
  cases hsource with
  | drawn words w =>
      rw [Planner.drawn, Planner.drawnWithin] at hplan
      split at hplan
      · exact nomatch hplan
      · exact nomatch hplan
      · rename_i split w' hsplit
        cases hcheck : Plan.check ⟨.ofList split.transfer, .ofList split.retain⟩ with
        | error e => rw [hcheck] at hplan; exact nomatch hplan
        | ok checked =>
            rw [hcheck] at hplan
            rw [← Except.ok.inj hplan, eq_of_check hcheck]
            exact fun h hh => mem_of_mem_partition hsplit (HostSet.mem_ofList.mp hh)
  | fixed ahead =>
      rw [Planner.fixed] at hplan
      cases hrestrict : ahead.restrict hosts with
      | error e => rw [hrestrict] at hplan; exact nomatch hplan
      | ok restricted =>
          rw [hrestrict] at hplan
          rw [← Except.ok.inj hplan, transfer_of_restrict hrestrict]
          exact fun h hh => (HostSet.mem_inter.mp hh).2

end Planner

/-- A plan restricted to all of its hosts is the same plan. -/
theorem Plan.restrict_self {plan : Plan} (hdisjoint : plan.transfer ∩ plan.retain = ∅) :
    plan.restrict (plan.transfer ∪ plan.retain) = .ok plan := by
  refine Planner.restrict_eq_ok_iff.mpr ⟨hdisjoint, HostSet.sdiff_self _, ?_⟩
  have htransfer : plan.transfer ∩ (plan.transfer ∪ plan.retain) = plan.transfer := by
    ext h
    simp only [HostSet.mem_inter, HostSet.mem_union]
    exact ⟨fun hh => hh.1, fun hh => ⟨hh, .inl hh⟩⟩
  have hretain : plan.retain ∩ (plan.transfer ∪ plan.retain) = plan.retain := by
    ext h
    simp only [HostSet.mem_inter, HostSet.mem_union]
    exact ⟨fun hh => hh.1, fun hh => ⟨hh, .inr hh⟩⟩
  rw [htransfer, hretain]

end Rehome
