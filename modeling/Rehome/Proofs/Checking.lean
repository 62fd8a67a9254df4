import Mathlib.Data.List.Nodup
import Mathlib.Data.List.Pairwise
import Rehome.Proofs.Stragglers

/-!
# Checking — a summary is consistent when the check finds nothing

A summary can be read from a file, so its categories may be anything: they may overlap, leave hosts of
the transfer group out and name others. What is wrong with it is said here host by host and without
the check (`Violation.Applies`). The check is an enumeration of just that (`mem_violations_iff`,
`nodup_violations`), and it finds nothing when each host of the transfer group met one fate and no
other host met any (`violations_eq_nil_iff`).

Overlaps are found by adding up sizes. That this finds every host in two sets of a list, whatever
their positions, is `HostSet.pairwiseDisjoint_iff_positions`.
-/

namespace Rehome

/-! ## Sets at different positions -/

/-- At most one item of a list passes a test just when no two of them do. -/
theorem countP_le_one_iff {α : Type} {p : α → Bool} {items : List α} :
    items.countP p ≤ 1 ↔ items.Pairwise fun a b => ¬ (p a = true ∧ p b = true) := by
  induction items with
  | nil => simp
  | cons a items ih =>
      rw [List.pairwise_cons, ← ih]
      by_cases ha : p a = true
      · rw [List.countP_cons_of_pos ha]
        constructor
        · intro hle
          have hnone : items.countP p = 0 := by omega
          refine ⟨fun b hb hboth => ?_, by omega⟩
          exact List.countP_eq_zero.mp hnone b hb hboth.2
        · rintro ⟨hothers, -⟩
          have hnone : items.countP p = 0 :=
            List.countP_eq_zero.mpr fun b hb hpb => hothers b hb ⟨ha, hpb⟩
          omega
      · rw [List.countP_cons_of_neg ha]
        exact ⟨fun hle => ⟨fun _ _ hboth => ha hboth.1, hle⟩, fun h => h.2⟩

/-- The sizes of sets add up to the size of the union just when no host is in the sets at two
    different positions. -/
theorem HostSet.pairwiseDisjoint_iff_positions {sets : List HostSet} :
    pairwiseDisjoint sets = true ↔
      ∀ i j : Fin sets.length, i ≠ j → ∀ h, ¬ (h ∈ sets.get i ∧ h ∈ sets.get j) := by
  rw [pairwiseDisjoint_iff]
  constructor
  · intro hcount i j hij h hboth
    have hpairs := List.pairwise_iff_get.mp (countP_le_one_iff.mp (hcount h))
    rcases Nat.lt_or_gt_of_ne (Fin.val_ne_of_ne hij) with hlt | hgt
    · exact hpairs i j hlt ⟨decide_eq_true hboth.1, decide_eq_true hboth.2⟩
    · exact hpairs j i hgt ⟨decide_eq_true hboth.2, decide_eq_true hboth.1⟩
  · intro hpositions h
    refine countP_le_one_iff.mpr (List.pairwise_iff_get.mpr ?_)
    intro i j hlt hboth
    exact hpositions i j (Fin.ne_of_lt hlt) h
      ⟨of_decide_eq_true hboth.1, of_decide_eq_true hboth.2⟩

/-! ## Categories by fate -/

theorem Fate.mem_all (f : Fate) : f ∈ Fate.all := by
  cases f with
  | migrated => decide
  | stuck stage => cases stage <;> decide

/-- At most one fate passes a test just when any two that do are the same. -/
theorem Fate.countP_all_le_one_iff {p : Fate → Bool} :
    Fate.all.countP p ≤ 1 ↔ ∀ f g, p f = true → p g = true → f = g := by
  have hnodup : Fate.all.Nodup := by decide
  have hsymmetric : Std.Symm fun f g : Fate => ¬ (p f = true ∧ p g = true) :=
    ⟨fun _ _ hfg hgf => hfg ⟨hgf.2, hgf.1⟩⟩
  rw [countP_le_one_iff]
  constructor
  · intro hpairwise f g hf hg
    by_contra hne
    exact hpairwise.forall (Fate.mem_all f) (Fate.mem_all g) hne ⟨hf, hg⟩
  · intro hone
    exact hnodup.pairwise_of_forall_ne fun f _ g _ hne hboth => hne (hone f g hboth.1 hboth.2)

namespace Duts

variable {duts : Duts} {h : Host}

theorem mem_allHosts_iff : h ∈ duts.allHosts ↔ ∃ f, h ∈ duts.category f := by
  rw [allHosts, HostSet.mem_unions, categories_eq]
  constructor
  · rintro ⟨set, hset, hh⟩
    obtain ⟨f, -, rfl⟩ := List.mem_map.mp hset
    exact ⟨f, hh⟩
  · rintro ⟨f, hh⟩
    exact ⟨_, List.mem_map_of_mem (Fate.mem_all f), hh⟩

/-- The check for overlaps finds a host in two categories. -/
theorem disjoint_iff :
    duts.disjoint = true ↔ ∀ h f g, h ∈ duts.category f → h ∈ duts.category g → f = g := by
  rw [disjoint, HostSet.pairwiseDisjoint_iff, categories_eq]
  refine forall_congr' fun h => ?_
  rw [List.countP_map, Fate.countP_all_le_one_iff]
  simp only [Function.comp_apply, decide_eq_true_eq]

/-- The categories account for hosts when each of these met one fate and no other host met any. -/
theorem accountsFor_iff {hosts : HostSet} : duts.AccountsFor hosts ↔
    (∀ h ∈ hosts, ∃! f, h ∈ duts.category f) ∧ ∀ f, duts.category f ⊆ hosts := by
  constructor
  · intro hd
    refine ⟨fun h hh => ?_, fun f h hh => ?_⟩
    · obtain ⟨fate, hreports, hiff⟩ := hd h
      obtain ⟨f, rfl⟩ := Option.isSome_iff_exists.mp (hiff.mpr hh)
      exact ⟨f, (hreports f).mpr rfl, fun g hg => (Option.some.inj ((hreports g).mp hg)).symm⟩
    · obtain ⟨fate, hreports, hiff⟩ := hd h
      refine hiff.mp ?_
      rw [(hreports f).mp hh]
      rfl
  · rintro ⟨hone, hsub⟩ h
    by_cases hh : h ∈ hosts
    · obtain ⟨f, hf, hunique⟩ := hone h hh
      refine ⟨some f, fun g => ⟨fun hg => congrArg some (hunique g hg).symm, ?_⟩, by simp [hh]⟩
      rintro ⟨⟩
      exact hf
    · exact ⟨none, fun g => ⟨fun hg => absurd (hsub g h hg) hh, fun hg => nomatch hg⟩, by simp [hh]⟩

/-- The stage that failed is the earliest with a host stuck at it. -/
theorem failedStep_eq_some_iff {stage : Stage} : duts.failedStep = some stage ↔
    duts.stuckAt stage ≠ ∅ ∧
      ∃ before after, Stage.all = before ++ stage :: after ∧
        ∀ earlier ∈ before, duts.stuckAt earlier = ∅ := by
  have hempty : ∀ s, (!(duts.stuckAt s).isEmpty) = true ↔ duts.stuckAt s ≠ ∅ := by
    intro s
    rw [Bool.not_eq_true', Bool.eq_false_iff, ne_eq, HostSet.isEmpty_iff]
  rw [failedStep, List.find?_eq_some_iff_append, hempty]
  refine and_congr_right fun _ => exists_congr fun before => exists_congr fun after =>
    and_congr_right fun _ => forall₂_congr fun earlier _ => ?_
  rw [Bool.not_not, HostSet.isEmpty_iff]

end Duts

/-! ## What is wrong with a summary -/

/-- What a violation says of a summary. -/
def Violation.Applies (s : Summary) : Violation → Prop
  | .overlap => ∃ h f g, f ≠ g ∧ h ∈ s.duts.category f ∧ h ∈ s.duts.category g
  | .unaccounted h => h ∈ s.plan.transfer ∧ ∀ f, ¬ h ∈ s.duts.category f
  | .stranger h => ¬ h ∈ s.plan.transfer ∧ ∃ f, h ∈ s.duts.category f

namespace Summary

variable {s : Summary} {plan : Plan} {duts : Duts}

/-- The check finds what applies and nothing else. -/
theorem mem_violations_iff {v : Violation} : v ∈ s.violations ↔ v.Applies s := by
  rw [violations, List.mem_append, List.mem_append, List.mem_map, List.mem_map]
  cases v with
  | overlap =>
      have hoverlap : (¬ s.duts.disjoint = true) ↔ Violation.overlap.Applies s := by
        rw [Duts.disjoint_iff]
        simp only [Violation.Applies, not_forall, exists_prop]
        exact exists_congr fun h => exists_congr fun f => exists_congr fun g => by tauto
      rw [← hoverlap]
      by_cases hdisjoint : s.duts.disjoint = true
      · simp [hdisjoint]
      · simp [hdisjoint]
  | unaccounted h =>
      have hsplit : h ∈ s.plan.transfer \ s.duts.allHosts ↔ (Violation.unaccounted h).Applies s := by
        rw [HostSet.mem_sdiff, Duts.mem_allHosts_iff, not_exists, Violation.Applies]
      rw [← hsplit]
      split <;> simp
  | stranger h =>
      have hsplit : h ∈ s.duts.allHosts \ s.plan.transfer ↔ (Violation.stranger h).Applies s := by
        rw [HostSet.mem_sdiff, Duts.mem_allHosts_iff, and_comm, Violation.Applies]
      rw [← hsplit]
      split <;> simp

/-- The check says everything once. -/
theorem nodup_violations (s : Summary) : s.violations.Nodup := by
  have hunaccounted : ∀ hosts : HostSet, (hosts.toList.map Violation.unaccounted).Nodup :=
    fun hosts => hosts.nodup_toList.map fun _ _ heq => Violation.unaccounted.inj heq
  have hstranger : ∀ hosts : HostSet, (hosts.toList.map Violation.stranger).Nodup :=
    fun hosts => hosts.nodup_toList.map fun _ _ heq => Violation.stranger.inj heq
  have hoverlap : ∀ v ∈ (if s.duts.disjoint then [] else [Violation.overlap]), v = .overlap := by
    intro v hv
    split at hv
    · exact absurd hv List.not_mem_nil
    · exact List.mem_singleton.mp hv
  rw [violations, List.nodup_append, List.nodup_append]
  refine ⟨⟨?_, hunaccounted _, ?_⟩, hstranger _, ?_⟩
  · split <;> simp
  · intro v hv w hw heq
    obtain ⟨h, -, rfl⟩ := List.mem_map.mp hw
    cases (hoverlap v hv).symm.trans heq
  · intro v hv w hw heq
    obtain ⟨h, -, rfl⟩ := List.mem_map.mp hw
    rcases List.mem_append.mp hv with hv | hv
    · cases (hoverlap v hv).symm.trans heq
    · obtain ⟨k, -, rfl⟩ := List.mem_map.mp hv
      cases heq

/-- Nothing is wrong with a summary just when its categories account for the transfer group. -/
theorem violations_eq_nil_iff : s.violations = [] ↔ s.duts.AccountsFor s.plan.transfer := by
  rw [List.eq_nil_iff_forall_not_mem]
  constructor
  · intro hnone
    have happlies : ∀ v : Violation, ¬ v.Applies s := fun v hv => hnone v (mem_violations_iff.mpr hv)
    refine Duts.accountsFor_iff.mpr ⟨fun h hh => ?_, fun f h hh => ?_⟩
    · obtain ⟨f, hf⟩ : ∃ f, h ∈ s.duts.category f := by
        by_contra hno
        exact happlies (.unaccounted h) ⟨hh, not_exists.mp hno⟩
      refine ⟨f, hf, fun g hg => ?_⟩
      by_contra hne
      exact happlies .overlap ⟨h, g, f, hne, hg, hf⟩
    · by_contra hout
      exact happlies (.stranger h) ⟨hout, f, hh⟩
  · intro hd v hv
    obtain ⟨hone, hsub⟩ := Duts.accountsFor_iff.mp hd
    have happlies := mem_violations_iff.mp hv
    cases v with
    | overlap =>
        obtain ⟨h, f, g, hne, hf, hg⟩ := happlies
        exact hne ((hone h (hsub f h hf)).unique hf hg)
    | unaccounted h =>
        obtain ⟨f, hf, -⟩ := hone h happlies.1
        exact happlies.2 f hf
    | stranger h =>
        obtain ⟨hout, f, hf⟩ := happlies
        exact hout (hsub f h hf)

/-- Where nothing is wrong, no stage failed just when no host needs attention. -/
theorem failedStep_eq_none_iff_needsAttention (hd : duts.AccountsFor plan.transfer) :
    (ofDuts plan duts).failedStep = none ↔ (ofDuts plan duts).needsAttention = ∅ := by
  rw [failedStep_eq_none_iff hd, needsAttention_eq hd, HostSet.sdiff_eq_empty_iff]
  constructor
  · intro heq
    rw [heq]
    exact fun h hh => hh
  · intro hsub
    ext h
    exact ⟨fun hh => hd.migrated_subset h hh, fun hh => hsub h hh⟩

/-- The check of a summary is exact, and what a summary without violations says can be relied on.
    Nothing is found just when every host of the transfer group is in one category and every host in
    a category is in the group; in general each violation that applies is found once. Sets are taken
    to be disjoint just when no two of them, at different positions, have a host in common. Where
    nothing is found, what needs attention is what was not moved, and the stage that failed is the
    earliest with a host stuck at it, if anything needs attention. -/
theorem violations_exact :
    (∀ s : Summary, s.violations = [] ↔
      (∀ h ∈ s.plan.transfer, ∃! f, h ∈ s.duts.category f) ∧
        ∀ f, s.duts.category f ⊆ s.plan.transfer) ∧
    (∀ s : Summary, s.violations.Nodup ∧ ∀ v, v ∈ s.violations ↔ v.Applies s) ∧
    (∀ sets : List HostSet, HostSet.pairwiseDisjoint sets = true ↔
      ∀ i j : Fin sets.length, i ≠ j → ∀ h, ¬ (h ∈ sets.get i ∧ h ∈ sets.get j)) ∧
    ∀ (plan : Plan) (duts : Duts), (ofDuts plan duts).violations = [] →
      (ofDuts plan duts).needsAttention = plan.transfer \ duts.migrated ∧
      ((ofDuts plan duts).failedStep = none ↔ (ofDuts plan duts).needsAttention = ∅) ∧
      ∀ stage, (ofDuts plan duts).failedStep = some stage ↔
        duts.stuckAt stage ≠ ∅ ∧
          ∃ before after, Stage.all = before ++ stage :: after ∧
            ∀ earlier ∈ before, duts.stuckAt earlier = ∅ := by
  refine ⟨?_, ?_, ?_, ?_⟩
  · intro s
    rw [violations_eq_nil_iff, Duts.accountsFor_iff]
  · intro s
    exact ⟨nodup_violations s, fun v => mem_violations_iff⟩
  · intro sets
    exact HostSet.pairwiseDisjoint_iff_positions
  · intro plan duts hnone
    have hd : duts.AccountsFor plan.transfer := violations_eq_nil_iff.mp hnone
    exact ⟨needsAttention_eq hd, failedStep_eq_none_iff_needsAttention hd,
      fun stage => Duts.failedStep_eq_some_iff⟩

/-- A host was moved and another one got no drone. -/
def droneless : Duts := { migrated := .ofList ["a"], needsDroneAssignment := .ofList ["b"] }

/-- The summary of two hosts with nothing wrong with it says what needs attention. -/
theorem violations_exact_droneless :
    (ofDuts ⟨.ofList ["a", "b"], .ofList ["c"]⟩ droneless).violations = [] ∧
    (ofDuts ⟨.ofList ["a", "b"], .ofList ["c"]⟩ droneless).needsAttention = .ofList ["b"] ∧
    (ofDuts ⟨.ofList ["a", "b"], .ofList ["c"]⟩ droneless).failedStep = some .droneAssignment := by
  have hnone : (ofDuts ⟨.ofList ["a", "b"], .ofList ["c"]⟩ droneless).violations = [] := by decide
  obtain ⟨-, -, -, hconsistent⟩ := violations_exact
  obtain ⟨hneeds, -, hstage⟩ := hconsistent ⟨.ofList ["a", "b"], .ofList ["c"]⟩ droneless hnone
  refine ⟨hnone, hneeds.trans (by decide), (hstage .droneAssignment).mpr ?_⟩
  exact ⟨HostSet.singleton_ne_empty "b", [.lock, .addToTarget], [.rename], rfl, by decide⟩

/-- A host in two categories, one in none and one from outside are three violations. -/
example : (ofDuts ⟨.ofList ["a", "b"], .ofList ["c"]⟩
    { migrated := .ofList ["a", "c"], needsRename := .ofList ["a"] }).violations =
    [.overlap, .unaccounted "b", .stranger "c"] := by decide

end Summary

end Rehome
