import Mathlib.Data.Finset.Card
import Rehome.Summary

/-!
# Fates — what the categories of a summary say of one host

The five categories are five sets, but what matters is read host by host: a host has met one fate
or none. `Duts.Reports` is that reading, and it survives the two ways in which a pass changes its
categories: putting in those of a step (`Duts.merge`), and taking hosts out to try them again
(`Duts.withoutStuck`).

Two things follow for a summary whose categories report a fate of the hosts of the transfer group
and of no others: it has no violations (`violations_eq_nil`), and its failed step says whether
every host was moved (`failedStep_eq_none_iff`). The check for overlaps counts members instead of
comparing sets; that it finds every overlap is `pairwiseDisjoint_iff`.
-/

namespace Rehome

namespace HostSet

/-! ## Counting members -/

theorem nodup_toList (s : HostSet) : s.toList.Nodup :=
  s.ascending.imp fun h => String.ne_of_lt h

/-- A list without repetition makes a set of its length. -/
theorem size_ofList {names : List Host} (hnodup : names.Nodup) :
    (ofList names).size = names.length := by
  refine List.Perm.length_eq ?_
  rw [List.perm_ext_iff_of_nodup (nodup_toList _) hnodup]
  intro h
  exact mem_ofList

private theorem card_toFinset (s : HostSet) : s.toList.toFinset.card = s.size :=
  List.toFinset_card_of_nodup s.nodup_toList

theorem size_union_add_size_inter (s t : HostSet) :
    (s ∪ t).size + (s ∩ t).size = s.size + t.size := by
  have hunion : (s ∪ t).toList.toFinset = s.toList.toFinset ∪ t.toList.toFinset := by
    ext h
    simp
  have hinter : (s ∩ t).toList.toFinset = s.toList.toFinset ∩ t.toList.toFinset := by
    ext h
    simp
  rw [← card_toFinset, ← card_toFinset, ← card_toFinset, ← card_toFinset, hunion, hinter]
  exact Finset.card_union_add_card_inter _ _

theorem size_eq_zero_iff {s : HostSet} : s.size = 0 ↔ ∀ h, ¬ h ∈ s := by
  constructor
  · intro hs h hh
    have hnil : s.toList = [] := List.eq_nil_of_length_eq_zero hs
    have : h ∈ s.toList := hh
    rw [hnil] at this
    exact List.not_mem_nil this
  · intro hs
    have hempty : s = ∅ := by
      ext h
      exact ⟨fun hh => absurd hh (hs h), fun hh => absurd hh (notMem_empty h)⟩
    rw [hempty]
    rfl

private theorem foldl_size (sets : List HostSet) (n : Nat) :
    sets.foldl (fun n s => n + s.size) n = n + sets.foldl (fun n s => n + s.size) 0 := by
  induction sets generalizing n with
  | nil => rfl
  | cons s sets ih =>
      rw [List.foldl_cons, List.foldl_cons, ih, ih (0 + s.size)]
      omega

private theorem foldl_size_cons (s : HostSet) (sets : List HostSet) :
    (s :: sets).foldl (fun n s => n + s.size) 0 =
      s.size + sets.foldl (fun n s => n + s.size) 0 := by
  rw [List.foldl_cons, foldl_size, Nat.zero_add]

private theorem size_unions_cons (s : HostSet) (sets : List HostSet) :
    (unions (s :: sets)).size + (s ∩ unions sets).size = s.size + (unions sets).size :=
  size_union_add_size_inter s (unions sets)

private theorem size_unions_le (sets : List HostSet) :
    (unions sets).size ≤ sets.foldl (fun n s => n + s.size) 0 := by
  induction sets with
  | nil => exact Nat.le_refl 0
  | cons s sets ih =>
      have := size_unions_cons s sets
      rw [foldl_size_cons]
      omega

/-- The sizes add up to the size of the union just when no host is in two of the sets. -/
theorem pairwiseDisjoint_iff {sets : List HostSet} :
    pairwiseDisjoint sets = true ↔ ∀ h, sets.countP (fun s => h ∈ s) ≤ 1 := by
  rw [pairwiseDisjoint, beq_iff_eq]
  induction sets with
  | nil => simp [unions, size]
  | cons s sets ih =>
      have hsize := size_unions_cons s sets
      have hle := size_unions_le sets
      -- the union falls short of the sum by the members that are counted twice
      have hsplit : (unions (s :: sets)).size = (s :: sets).foldl (fun n s => n + s.size) 0 ↔
          (unions sets).size = sets.foldl (fun n s => n + s.size) 0 ∧
            (s ∩ unions sets).size = 0 := by
        rw [foldl_size_cons]
        omega
      rw [hsplit, ih, size_eq_zero_iff]
      constructor
      · rintro ⟨hsets, hinter⟩ h
        by_cases hs : h ∈ s
        · have hnone : sets.countP (fun t => h ∈ t) = 0 := by
            rw [List.countP_eq_zero]
            intro t ht hmem
            refine hinter h (mem_inter.mpr ⟨hs, mem_unions.mpr ⟨t, ht, ?_⟩⟩)
            exact of_decide_eq_true hmem
          rw [List.countP_cons, hnone]
          split <;> omega
        · rw [List.countP_cons_of_neg (by simpa using hs)]
          exact hsets h
      · intro hall
        refine ⟨fun h => ?_, fun h hmem => ?_⟩
        · have := hall h
          rw [List.countP_cons] at this
          omega
        · obtain ⟨hs, hu⟩ := mem_inter.mp hmem
          obtain ⟨t, ht, hht⟩ := mem_unions.mp hu
          have hpos : 0 < sets.countP (fun t => h ∈ t) :=
            List.countP_pos_iff.mpr ⟨t, ht, decide_eq_true hht⟩
          have := hall h
          rw [List.countP_cons_of_pos (by simpa using hs)] at this
          omega

end HostSet

/-! ## One host -/

/-- Where a host of a pass ended up. -/
inductive Fate where
  | migrated
  | stuck (stage : Stage)
  deriving DecidableEq

/-- The fates, in the order of the categories. -/
def Fate.all : List Fate := .migrated :: Stage.all.map .stuck

namespace Duts

/-- The category of a fate. -/
def category (duts : Duts) : Fate → HostSet
  | .migrated => duts.migrated
  | .stuck stage => duts.stuckAt stage

theorem categories_eq (duts : Duts) : duts.categories = Fate.all.map duts.category := rfl

/-- What the categories say of a host: that it met this fate and no other, or nothing. -/
def Reports (duts : Duts) (h : Host) (fate : Option Fate) : Prop :=
  ∀ f, h ∈ duts.category f ↔ fate = some f

variable {duts a b : Duts} {h : Host} {fate : Option Fate} {hosts : HostSet}

theorem reports_empty (h : Host) : Reports {} h none := by
  intro f
  have hempty : ({} : Duts).category f = ∅ := by
    cases f with
    | migrated => rfl
    | stuck stage => cases stage <;> rfl
  rw [hempty]
  simp

theorem reports_notLocked (hosts : HostSet) (h : Host) :
    Reports { notLocked := hosts } h (if h ∈ hosts then some (.stuck .lock) else none) := by
  intro f
  cases f with
  | migrated => split <;> simp [category]
  | stuck stage => cases stage <;> split <;> simp_all [category, stuckAt]

theorem category_merge (a b : Duts) (f : Fate) :
    (a.merge b).category f = a.category f ∪ b.category f := by
  cases f with
  | migrated => rfl
  | stuck stage => cases stage <;> rfl

/-- Categories that say nothing of a host add nothing about it. -/
theorem Reports.merge_left (ha : a.Reports h fate) (hb : b.Reports h none) :
    (a.merge b).Reports h fate := by
  intro f
  rw [category_merge, HostSet.mem_union, ha f, hb f]
  simp

theorem Reports.merge_right (ha : a.Reports h none) (hb : b.Reports h fate) :
    (a.merge b).Reports h fate := by
  intro f
  rw [category_merge, HostSet.mem_union, ha f, hb f]
  simp

/-- Taking hosts out says nothing new of the others. -/
theorem Reports.withoutStuck (hd : duts.Reports h fate) (hh : ¬ h ∈ hosts) :
    (duts.withoutStuck hosts).Reports h fate := by
  intro f
  rw [← hd f]
  cases f with
  | migrated => exact Iff.rfl
  | stuck stage => cases stage <;> simp [category, stuckAt, Duts.withoutStuck, hh]

/-- A host that is stuck after locking can be taken out. -/
theorem Reports.withoutStuck_self (hd : duts.Reports h fate) (hh : h ∈ hosts)
    (hmigrated : fate ≠ some .migrated) (hlock : fate ≠ some (.stuck .lock)) :
    (duts.withoutStuck hosts).Reports h none := by
  intro f
  cases f with
  | migrated => simpa [category, Duts.withoutStuck] using fun hm => hmigrated ((hd .migrated).mp hm)
  | stuck stage =>
      cases stage with
      | lock =>
          simpa [category, stuckAt, Duts.withoutStuck] using
            fun hm => hlock ((hd (.stuck .lock)).mp hm)
      | addToTarget => simp [category, stuckAt, Duts.withoutStuck, hh]
      | droneAssignment => simp [category, stuckAt, Duts.withoutStuck, hh]
      | rename => simp [category, stuckAt, Duts.withoutStuck, hh]

theorem Reports.mem_stuckAfterLock (hd : duts.Reports h fate) :
    h ∈ duts.stuckAfterLock ↔ ∃ stage, fate = some (.stuck stage) ∧ stage ≠ .lock := by
  have hmem : h ∈ duts.stuckAfterLock ↔ h ∈ duts.category (.stuck .addToTarget) ∨
      h ∈ duts.category (.stuck .droneAssignment) ∨ h ∈ duts.category (.stuck .rename) := by
    simp [stuckAfterLock, category, stuckAt, or_assoc]
  rw [hmem, hd, hd, hd]
  constructor
  · rintro (hf | hf | hf)
    · exact ⟨.addToTarget, hf, by decide⟩
    · exact ⟨.droneAssignment, hf, by decide⟩
    · exact ⟨.rename, hf, by decide⟩
  · rintro ⟨stage, hf, hne⟩
    cases stage with
    | lock => exact absurd rfl hne
    | addToTarget => exact .inl hf
    | droneAssignment => exact .inr (.inl hf)
    | rename => exact .inr (.inr hf)

theorem mem_stuckAfterLock_merge :
    h ∈ (a.merge b).stuckAfterLock ↔ h ∈ a.stuckAfterLock ∨ h ∈ b.stuckAfterLock := by
  simp only [stuckAfterLock, merge, HostSet.mem_union]
  tauto

/-- Categories that report the same of every host are the same. -/
theorem eq_of_reports {fate : Host → Option Fate}
    (ha : ∀ n, a.Reports n (fate n)) (hb : ∀ n, b.Reports n (fate n)) : a = b := by
  have hsame : ∀ f, a.category f = b.category f := by
    intro f
    ext n
    rw [ha n f, hb n f]
  cases a with
  | mk =>
      cases b with
      | mk =>
          rw [mk.injEq]
          exact ⟨hsame .migrated, hsame (.stuck .lock), hsame (.stuck .addToTarget),
            hsame (.stuck .droneAssignment), hsame (.stuck .rename)⟩

/-- A host that met a fate is in one category, and one that met none is in none. -/
theorem Reports.countP_categories (hd : duts.Reports h fate) :
    duts.categories.countP (fun set => h ∈ set) = if fate.isSome then 1 else 0 := by
  rw [categories_eq, List.countP_map]
  have hcount : Fate.all.countP ((fun set => decide (h ∈ set)) ∘ duts.category) =
      Fate.all.countP fun f => fate = some f := by
    refine List.countP_congr fun f _ => ?_
    simpa using hd f
  rw [hcount]
  cases fate with
  | none => rfl
  | some f =>
      cases f with
      | migrated => rfl
      | stuck stage => cases stage <;> rfl

theorem Reports.mem_allHosts (hd : duts.Reports h fate) :
    h ∈ duts.allHosts ↔ fate.isSome = true := by
  have hcount := hd.countP_categories
  rw [allHosts, HostSet.mem_unions]
  constructor
  · rintro ⟨set, hset, hh⟩
    have hpos : 0 < duts.categories.countP (fun set => h ∈ set) :=
      List.countP_pos_iff.mpr ⟨set, hset, decide_eq_true hh⟩
    by_contra hnone
    rw [hcount, if_neg hnone] at hpos
    exact absurd hpos (Nat.lt_irrefl 0)
  · intro hsome
    rw [if_pos hsome] at hcount
    obtain ⟨set, hset, hh⟩ := List.countP_pos_iff.mp (hcount ▸ Nat.zero_lt_one)
    exact ⟨set, hset, of_decide_eq_true hh⟩

end Duts

/-! ## The whole transfer group -/

/-- The categories report a fate of each of the hosts, and of no others. -/
def Duts.AccountsFor (duts : Duts) (hosts : HostSet) : Prop :=
  ∀ h, ∃ fate, duts.Reports h fate ∧ (fate.isSome = true ↔ h ∈ hosts)

theorem Duts.AccountsFor.allHosts_eq {duts : Duts} {hosts : HostSet}
    (hd : duts.AccountsFor hosts) : duts.allHosts = hosts := by
  ext h
  obtain ⟨fate, hr, hiff⟩ := hd h
  exact hr.mem_allHosts.trans hiff

theorem Duts.AccountsFor.pairwise_categories {duts : Duts} {hosts : HostSet}
    (hd : duts.AccountsFor hosts) : duts.categories.Pairwise fun a b => a ∩ b = ∅ := by
  have hne : Fate.all.Pairwise (· ≠ ·) := by decide
  rw [Duts.categories_eq, List.pairwise_map]
  refine hne.imp fun {f g} hfg => ?_
  ext h
  obtain ⟨fate, hr, -⟩ := hd h
  rw [HostSet.mem_inter, hr f, hr g]
  constructor
  · rintro ⟨rfl, hg⟩
    exact absurd (Option.some.inj hg) hfg
  · intro hh
    exact absurd hh (HostSet.notMem_empty h)

namespace Summary

variable {plan : Plan} {duts : Duts}

theorem violations_eq_nil (hd : duts.AccountsFor plan.transfer) :
    (ofDuts plan duts).violations = [] := by
  have hdisjoint : duts.disjoint = true := by
    refine HostSet.pairwiseDisjoint_iff.mpr fun h => ?_
    obtain ⟨fate, hr, -⟩ := hd h
    rw [hr.countP_categories]
    split <;> omega
  have hall : duts.allHosts = plan.transfer := hd.allHosts_eq
  rw [violations, ofDuts, hdisjoint, hall, HostSet.sdiff_self]
  rfl

/-- No step failed just when the whole transfer group was moved. -/
theorem failedStep_eq_none_iff (hd : duts.AccountsFor plan.transfer) :
    (ofDuts plan duts).failedStep = none ↔ duts.migrated = plan.transfer := by
  have hnone : (ofDuts plan duts).failedStep = none ↔ ∀ stage h, ¬ h ∈ duts.stuckAt stage := by
    show duts.failedStep = none ↔ _
    rw [Duts.failedStep, List.find?_eq_none]
    constructor
    · intro hall stage h hh
      have hempty := hall stage (by cases stage <;> decide)
      simp only [Bool.not_eq_true', Bool.not_eq_false] at hempty
      rw [HostSet.isEmpty_iff.mp hempty] at hh
      exact HostSet.notMem_empty h hh
    · intro hall stage _
      have : duts.stuckAt stage = ∅ := by
        ext h
        exact ⟨fun hh => absurd hh (hall stage h), fun hh => absurd hh (HostSet.notMem_empty h)⟩
      simp [HostSet.isEmpty_iff.mpr this]
  rw [hnone]
  constructor
  · intro hall
    ext h
    obtain ⟨fate, hr, hiff⟩ := hd h
    rw [← hiff]
    cases fate with
    | none =>
        constructor
        · intro hm
          exact nomatch (hr .migrated).mp hm
        · intro hs
          exact nomatch hs
    | some f =>
        cases f with
        | migrated => exact ⟨fun _ => rfl, fun _ => (hr .migrated).mpr rfl⟩
        | stuck stage => exact absurd ((hr (.stuck stage)).mpr rfl) (hall stage h)
  · intro heq stage h hh
    obtain ⟨fate, hr, hiff⟩ := hd h
    -- a host that is stuck would be moved as well, which is two fates
    have hfate : fate = some (.stuck stage) := (hr (.stuck stage)).mp hh
    have hmem : h ∈ duts.migrated := heq ▸ hiff.mp (by rw [hfate]; rfl)
    have hmoved := (hr .migrated).mp hmem
    rw [hfate] at hmoved
    exact nomatch hmoved

end Summary

end Rehome
