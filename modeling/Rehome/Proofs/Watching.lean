import Rehome.Readiness

/-!
# Watched hosts — a poll only moves hosts from watched to ready

Whatever rows a poll brings, the hosts that become ready are among those that were watched, and
just those are no longer watched afterwards (`mem_watched_poll`).
-/

namespace Rehome

namespace Readiness

variable {m : Readiness} {h : Host} {ready : HostSet}

theorem watched_watch (hosts : HostSet) (threshold : Nat) :
    (watch hosts threshold).watched = hosts := by
  ext h
  show h ∈ (hosts.toList.map (·, 0)).map (·.1) ↔ h ∈ hosts.toList
  rw [List.map_map]
  simp

theorem isOver_iff : m.isOver = true ↔ m.watched = ∅ := by
  have hover : m.isOver = m.watched.isEmpty := by
    show m.counts.isEmpty = (m.counts.map (·.1)).isEmpty
    rw [List.isEmpty_map]
  rw [hover]
  exact HostSet.isEmpty_iff

theorem watched_note (m : Readiness) (row : StatusRow) : (m.note row).watched = m.watched := by
  ext h
  show h ∈ (m.note row).counts.map (·.1) ↔ h ∈ m.counts.map (·.1)
  rw [note, List.map_map]
  exact Iff.rfl

theorem watched_noteAll (m : Readiness) (ready : HostSet) (rows : List StatusRow) :
    (m.noteAll ready rows).1.watched = m.watched := by
  induction rows generalizing m ready with
  | nil => rfl
  | cons row rows ih =>
      rw [noteAll, ih]
      exact watched_note m row

/-- A row that makes its host ready is about a host that is watched. -/
theorem mem_watched_of_isReady {row : StatusRow} (hr : m.isReady row = true) :
    row.host ∈ m.watched := by
  rw [isReady] at hr
  cases hc : m.count? row.host with
  | none =>
      rw [hc] at hr
      exact nomatch hr
  | some n =>
      show row.host ∈ m.counts.map (·.1)
      obtain ⟨before, after, hsplit, -⟩ := List.lookup_eq_some_iff.mp hc
      rw [hsplit]
      simp

theorem mem_of_mem_noteAll {rows : List StatusRow} (hh : h ∈ (m.noteAll ready rows).2) :
    h ∈ ready ∨ h ∈ m.watched := by
  induction rows generalizing m ready with
  | nil => exact .inl hh
  | cons row rows ih =>
      rw [noteAll] at hh
      rcases ih hh with hready | hwatched
      · by_cases hr : m.isReady row = true
        · rw [if_pos hr, HostSet.mem_insert] at hready
          rcases hready with rfl | hready
          · exact .inr (mem_watched_of_isReady hr)
          · exact .inl hready
        · rw [if_neg hr] at hready
          exact .inl hready
      · rw [watched_note] at hwatched
        exact .inr hwatched

theorem watched_drop (m : Readiness) (hosts : HostSet) :
    (m.drop hosts).watched = m.watched \ hosts := by
  ext h
  show h ∈ (m.counts.filter _).map (·.1) ↔ _
  rw [HostSet.mem_sdiff]
  show _ ↔ h ∈ m.counts.map (·.1) ∧ ¬ h ∈ hosts
  simp only [List.mem_map, List.mem_filter, decide_eq_true_eq]
  constructor
  · rintro ⟨entry, ⟨hentry, hout⟩, rfl⟩
    exact ⟨⟨entry, hentry, rfl⟩, hout⟩
  · rintro ⟨⟨entry, hentry, rfl⟩, hout⟩
    exact ⟨entry, ⟨hentry, hout⟩, rfl⟩

theorem mem_watched_of_mem_ready {rows : List StatusRow} (hh : h ∈ (m.poll rows).1.ready) :
    h ∈ m.watched := by
  rcases mem_of_mem_noteAll hh with hempty | hwatched
  · exact absurd hempty (HostSet.notMem_empty h)
  · exact hwatched

/-- After a poll just those hosts are still watched that did not become ready. -/
theorem mem_watched_poll {rows : List StatusRow} :
    h ∈ (m.poll rows).2.watched ↔ h ∈ m.watched ∧ ¬ h ∈ (m.poll rows).1.ready := by
  have hrest : (m.poll rows).2.watched = (m.noteAll ∅ rows).1.watched \ (m.poll rows).1.ready :=
    watched_drop _ _
  rw [hrest, HostSet.mem_sdiff, watched_noteAll]

end Readiness

end Rehome
