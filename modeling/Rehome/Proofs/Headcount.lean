import Mathlib.Order.MinMax
import Rehome.Proofs.Streaks

/-!
# Headcount — the monitor neither loses nor invents hosts

A poll makes some of the watched hosts ready and goes on watching the others (`mem_watched_poll`). So
after any number of polls the hosts that were watched at the start are those that are watched still
and those that were reported ready, each of them once and by one poll only.

A host that is left watched was not brought to the threshold by any row, so its count is below it, or
is zero (`Below`). A poll that lists each host once adds at most one to that, so counts need no longer
words than the threshold. The main result, `nobody_lost`, puts the accounts and this bound together.
-/

namespace Rehome

namespace Readiness

variable {m : Readiness} {h : Host} {rows : List StatusRow} {polls : List (List StatusRow)}

/-! ## Reports -/

/-- What each poll of a sequence reports. -/
def reports (m : Readiness) : List (List StatusRow) → List Progress
  | [] => []
  | rows :: polls => (m.poll rows).1 :: (m.poll rows).2.reports polls

theorem map_ready_reports (m : Readiness) (polls : List (List StatusRow)) :
    (m.reports polls).map (·.ready) = m.readySets polls := by
  induction polls generalizing m with
  | nil => rfl
  | cons rows polls ih => exact congrArg _ (ih _)

/-- Only hosts that are watched are ever reported ready. -/
theorem mem_watched_of_mem_reports {report : Progress} (hreport : report ∈ m.reports polls)
    (hh : h ∈ report.ready) : h ∈ m.watched := by
  induction polls generalizing m with
  | nil => exact absurd hreport List.not_mem_nil
  | cons rows polls ih =>
      rcases List.mem_cons.mp hreport with rfl | hlater
      · exact mem_watched_of_mem_ready hh
      · exact (mem_watched_poll.mp (ih hlater)).1

/-- A host that a poll makes ready is not made ready again, for it is no longer watched. -/
theorem pairwise_reports (m : Readiness) (polls : List (List StatusRow)) :
    (m.reports polls).Pairwise fun a b => a.ready ∩ b.ready = ∅ := by
  induction polls generalizing m with
  | nil => exact .nil
  | cons rows polls ih =>
      refine .cons (fun report hreport => ?_) (ih _)
      refine HostSet.inter_eq_empty_iff.mpr fun h hready hagain => ?_
      exact (mem_watched_poll.mp (mem_watched_of_mem_reports hreport hagain)).2 hready

theorem ready_inter_watched {report : Progress} (hreport : report ∈ m.reports polls) :
    report.ready ∩ report.watched = ∅ := by
  induction polls generalizing m with
  | nil => exact absurd hreport List.not_mem_nil
  | cons rows polls ih =>
      rcases List.mem_cons.mp hreport with rfl | hlater
      · exact HostSet.inter_eq_empty_iff.mpr fun h hready hwatched =>
          (mem_watched_poll.mp hwatched).2 hready
      · exact ih hlater

/-- After some polls those hosts are still watched that no poll made ready. -/
theorem watched_after (m : Readiness) (polls : List (List StatusRow)) :
    (m.after polls).watched = m.watched \ .unions (m.readySets polls) := by
  induction polls generalizing m with
  | nil =>
      ext h
      simp [after, readySets, HostSet.unions]
  | cons rows polls ih =>
      have hunions : HostSet.unions (m.readySets (rows :: polls)) =
          (m.poll rows).1.ready ∪ .unions ((m.poll rows).2.readySets polls) := rfl
      rw [after, ih, hunions]
      ext h
      rw [HostSet.mem_sdiff, mem_watched_poll, HostSet.mem_sdiff, HostSet.mem_union, not_or]
      exact and_assoc

/-- The hosts that were made ready and those that are left are the ones that were watched. -/
theorem unions_ready_union_watched (m : Readiness) (polls : List (List StatusRow)) :
    HostSet.unions ((m.reports polls).map (·.ready)) ∪ (m.after polls).watched = m.watched := by
  have hsub : HostSet.unions ((m.reports polls).map (·.ready)) ⊆ m.watched := by
    intro h hh
    obtain ⟨ready, hready, hin⟩ := HostSet.mem_unions.mp hh
    obtain ⟨report, hreport, rfl⟩ := List.mem_map.mp hready
    exact mem_watched_of_mem_reports hreport hin
  rw [watched_after, ← map_ready_reports]
  ext h
  rw [HostSet.mem_union, HostSet.mem_sdiff]
  constructor
  · rintro (hready | ⟨hwatched, -⟩)
    · exact hsub h hready
    · exact hwatched
  · intro hwatched
    by_cases hready : h ∈ HostSet.unions ((m.reports polls).map (·.ready))
    · exact .inl hready
    · exact .inr ⟨hwatched, hready⟩

/-! ## Counts below the threshold -/

/-- The watched hosts are those that have a count. -/
theorem mem_watched_iff : h ∈ m.watched ↔ ∃ n, m.count? h = some n := by
  show h ∈ m.counts.map (·.1) ↔ _
  simp [count?_eq_some_iff]

/-- Every count is below the threshold, or zero where the threshold is. -/
def Below (m : Readiness) : Prop := ∀ h n, m.count? h = some n → n < max m.threshold 1

/-- Looks that do not bring a streak to the threshold leave it below. -/
theorem streak_lt {threshold length : Nat} {looks : List Bool} (hlength : length < max threshold 1)
    (hnot : ¬ Reaches threshold length looks) : streak length looks < max threshold 1 := by
  induction looks generalizing length with
  | nil => exact hlength
  | cons busy looks ih =>
      rw [reaches_cons_iff, not_or] at hnot
      obtain ⟨hfirst, hlater⟩ := hnot
      refine ih ?_ hlater
      cases busy with
      | true => exact lt_max_of_lt_right Nat.zero_lt_one
      | false => exact lt_max_of_lt_left (Nat.not_le.mp fun hlong => hfirst ⟨rfl, hlong⟩)

/-- The monitor as a row finds it, after earlier polls and the rows before it. -/
def atRow (m : Readiness) (earlier : List (List StatusRow)) (before : List StatusRow) : Readiness :=
  ((m.after earlier).noteAll ∅ before).1

namespace Below

theorem watch (hosts : HostSet) (threshold : Nat) : (watch hosts threshold).Below := by
  intro h n hcount
  rw [count?_watch] at hcount
  split at hcount
  · cases hcount
    exact lt_max_of_lt_right Nat.zero_lt_one
  · exact nomatch hcount

/-- A poll drops the hosts whose counts reached the threshold on one of its rows. -/
theorem poll (hm : m.Below) (rows : List StatusRow) : (m.poll rows).2.Below := by
  intro h n hcount
  have hthreshold : (m.poll rows).2.threshold = m.threshold := threshold_after m [rows]
  rw [count?_poll] at hcount
  rw [hthreshold]
  split at hcount
  · exact nomatch hcount
  · rename_i hnotReady
    obtain ⟨before, hbefore, rfl⟩ := Option.map_eq_some_iff.mp hcount
    exact streak_lt (hm h before hbefore) fun hreaches =>
      hnotReady (mem_ready_iff.mpr ⟨before, hbefore, hreaches⟩)

theorem after (hm : m.Below) (polls : List (List StatusRow)) : (m.after polls).Below := by
  induction polls generalizing m with
  | nil => exact hm
  | cons rows polls ih => exact ih (hm.poll rows)

/-- Where a poll lists each host once, a row finds the count of its host as the polls before left it. -/
theorem atRow (hm : m.Below) {earlier : List (List StatusRow)} {before later : List StatusRow}
    {row : StatusRow} {n : Nat} (honce : ((before ++ row :: later).map (·.host)).Nodup)
    (hcount : (m.atRow earlier before).count? row.host = some n) : n < max m.threshold 1 := by
  have hunlisted : looks row.host before = [] := by
    rw [List.map_append, List.map_cons, List.nodup_append] at honce
    exact looks_eq_nil fun hin => honce.2.2 _ hin _ List.mem_cons_self rfl
  rw [Readiness.atRow, count?_noteAll, hunlisted] at hcount
  obtain ⟨count, hbefore, rfl⟩ := Option.map_eq_some_iff.mp hcount
  rw [← threshold_after m earlier]
  exact hm.after earlier row.host count hbefore

end Below

/-! ## The accounts -/

/-- After any polls of some hosts, whatever rows they brought: no host was reported ready by two polls,
    none was reported ready and watched by one poll, those that were ever reported ready and those
    that are watched still make up the hosts, the monitor is over just when none is watched, and each
    watched one has a count below the threshold, or of zero. Where no poll lists a host twice and the
    threshold is kept in 32 bits, one can be added to the count that any row finds without an
    overflow. -/
theorem nobody_lost (hosts : HostSet) (threshold : Nat) (polls : List (List StatusRow)) :
    (((watch hosts threshold).reports polls).Pairwise fun a b => a.ready ∩ b.ready = ∅) ∧
    (∀ report ∈ (watch hosts threshold).reports polls, report.ready ∩ report.watched = ∅) ∧
    HostSet.unions (((watch hosts threshold).reports polls).map (·.ready)) ∪
      ((watch hosts threshold).after polls).watched = hosts ∧
    (((watch hosts threshold).after polls).isOver = true ↔
      ((watch hosts threshold).after polls).watched = ∅) ∧
    (∀ h ∈ ((watch hosts threshold).after polls).watched,
      ∃ n, ((watch hosts threshold).after polls).count? h = some n ∧ n < max threshold 1) ∧
    ((∀ rows ∈ polls, (rows.map (·.host)).Nodup) → threshold < UInt32.size →
      ∀ earlier before row later, earlier ++ [before ++ row :: later] <+: polls →
        ∀ n, ((watch hosts threshold).atRow earlier before).count? row.host = some n →
          n + 1 < UInt32.size) := by
  have hbelow : (watch hosts threshold).Below := .watch hosts threshold
  refine ⟨pairwise_reports _ polls, fun report => ready_inter_watched, ?_, isOver_iff, ?_, ?_⟩
  · rw [unions_ready_union_watched, watched_watch]
  · intro h hh
    obtain ⟨n, hn⟩ := mem_watched_iff.mp hh
    have hlt := hbelow.after polls h n hn
    rw [threshold_after] at hlt
    exact ⟨n, hn, hlt⟩
  · intro honce hfits earlier before row later hprefix n hcount
    have hrows : before ++ row :: later ∈ polls := hprefix.subset (by simp)
    have hn : n < max threshold 1 := hbelow.atRow (honce _ hrows) hcount
    have hone : 1 < UInt32.size := by decide
    omega

/-- Two polls that list a host idle, the second one after a host that is not watched. -/
def idlePolls : List (List StatusRow) :=
  [[⟨"a", true, false⟩, ⟨"b", true, true⟩], [⟨"z", true, false⟩, ⟨"a", true, false⟩]]

/-- Under the largest threshold that 32 bits can hold, the second poll adds one to a count of one. -/
theorem nobody_lost_at_largest :
    (∀ rows ∈ idlePolls, (rows.map (·.host)).Nodup) ∧
    ((watch (.ofList ["a", "b"]) (UInt32.size - 1)).atRow (idlePolls.take 1)
      [⟨"z", true, false⟩]).count? "a" = some 1 ∧
    1 + 1 < UInt32.size := by
  have honce : ∀ rows ∈ idlePolls, (rows.map (·.host)).Nodup := by decide
  have hprefix : idlePolls.take 1 ++ [[⟨"z", true, false⟩] ++ ⟨"a", true, false⟩ :: []] <+:
      idlePolls := List.prefix_rfl
  have hcount : ((watch (.ofList ["a", "b"]) (UInt32.size - 1)).atRow (idlePolls.take 1)
      [⟨"z", true, false⟩]).count? "a" = some 1 := by
    decide
  have hlast := (nobody_lost (.ofList ["a", "b"]) (UInt32.size - 1) idlePolls).2.2.2.2.2
  exact ⟨honce, hcount, hlast honce (by decide) _ _ _ _ hprefix 1 hcount⟩

end Readiness

end Rehome
