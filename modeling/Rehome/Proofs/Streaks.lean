import Mathlib.Data.List.DropRight
import Rehome.Proofs.Watching

/-!
# Streaks — how long a host was seen idle without a break

A monitor counts rows, and what its count of a host comes to is the streak of the looks at that host:
the idle ones since the last busy one (`count?_after`). A poll makes a watched host ready when one of
its rows brings the streak to the threshold, and does not look at the rows that follow
(`mem_ready_iff`). So a host that an idle row made ready stays ready when a later row of the same
poll shows it busy; it waits on exactly when no idle row brings it that far (`busy_waits_iff`).

Where each poll lists a host once, a host becomes ready just when the last polls that list it, as
many as the threshold asks for, all show it idle (`ready_iff_last_polls_idle`).
-/

namespace Rehome

namespace Readiness

variable {m : Readiness} {h : Host} {n : Nat} {rows : List StatusRow}

/-! ## Counts -/

theorem count?_eq_some_iff : m.count? h = some n ↔ (h, n) ∈ m.counts := by
  rw [count?, List.lookup_eq_some_iff]
  constructor
  · rintro ⟨before, after, hsplit, -⟩
    rw [hsplit]
    exact List.mem_append_right before List.mem_cons_self
  · intro hmem
    obtain ⟨before, after, hsplit⟩ := List.append_of_mem hmem
    refine ⟨before, after, hsplit, fun entry hentry => ?_⟩
    -- the names ascend, so those before are smaller
    have hascending := m.ascending
    rw [hsplit, List.map_append, List.map_cons, List.pairwise_append] at hascending
    have hlt : entry.1 < h :=
      hascending.2.2 entry.1 (List.mem_map_of_mem hentry) h List.mem_cons_self
    exact bne_iff_ne.mpr (String.ne_of_lt hlt).symm

theorem count?_watch (hosts : HostSet) (threshold : Nat) (h : Host) :
    (watch hosts threshold).count? h = if h ∈ hosts then some 0 else none := by
  ext n
  rw [count?_eq_some_iff]
  show (h, n) ∈ hosts.toList.map (·, 0) ↔ _
  by_cases hh : h ∈ hosts
  · simp [hh, eq_comm]
  · simp [hh]

theorem count?_note (m : Readiness) (row : StatusRow) (h : Host) :
    (m.note row).count? h =
      (m.count? h).map fun n => if h = row.host then countAfter row n else n := by
  ext n
  rw [count?_eq_some_iff, Option.map_eq_some_iff]
  simp only [count?_eq_some_iff]
  show (h, n) ∈ m.counts.map _ ↔ _
  simp

theorem count?_drop (m : Readiness) (hosts : HostSet) (h : Host) :
    (m.drop hosts).count? h = if h ∈ hosts then none else m.count? h := by
  ext n
  rw [count?_eq_some_iff]
  show (h, n) ∈ m.counts.filter _ ↔ _
  by_cases hh : h ∈ hosts
  · simp [hh]
  · simp [hh, count?_eq_some_iff]

/-! ## Looks and streaks -/

/-- The looks at a host in the rows of a poll, in order: whether it was busy. -/
def looks (h : Host) (rows : List StatusRow) : List Bool :=
  (rows.filter fun row => row.host = h).map (·.busy)

/-- The streak of idle looks at the end of some, continuing one of a given length. -/
def streak (length : Nat) (looks : List Bool) : Nat :=
  looks.foldl (fun n busy => if busy then 0 else n + 1) length

/-- Whether one of the idle looks brings a streak to a threshold. -/
def Reaches (threshold length : Nat) (looks : List Bool) : Prop :=
  ∃ before after, looks = before ++ false :: after ∧ threshold ≤ streak length before + 1

theorem looks_cons_self (row : StatusRow) (rows : List StatusRow) :
    looks row.host (row :: rows) = row.busy :: looks row.host rows := by
  simp [looks]

theorem looks_cons_of_ne {row : StatusRow} (hne : row.host ≠ h) (rows : List StatusRow) :
    looks h (row :: rows) = looks h rows := by
  simp [looks, hne]

theorem looks_append (h : Host) (a b : List StatusRow) :
    looks h (a ++ b) = looks h a ++ looks h b := by
  rw [looks, List.filter_append, List.map_append]
  rfl

theorem mem_looks {busy : Bool} :
    busy ∈ looks h rows ↔ ∃ row ∈ rows, row.host = h ∧ row.busy = busy := by
  simp [looks, and_assoc]

theorem streak_append (length : Nat) (a b : List Bool) :
    streak length (a ++ b) = streak (streak length a) b :=
  List.foldl_append

theorem not_reaches_nil (threshold length : Nat) : ¬ Reaches threshold length [] := by
  rintro ⟨before, after, hsplit, -⟩
  simp at hsplit

theorem reaches_cons_iff {threshold length : Nat} {busy : Bool} {looks : List Bool} :
    Reaches threshold length (busy :: looks) ↔
      (busy = false ∧ threshold ≤ length + 1) ∨ Reaches threshold (streak length [busy]) looks := by
  constructor
  · rintro ⟨before, after, hsplit, hlong⟩
    cases before with
    | nil => exact .inl ⟨(List.cons.inj hsplit).1, hlong⟩
    | cons first before =>
        obtain ⟨rfl, rfl⟩ := List.cons.inj hsplit
        exact .inr ⟨before, after, rfl, hlong⟩
  · rintro (⟨rfl, hlong⟩ | ⟨before, after, rfl, hlong⟩)
    · exact ⟨[], looks, rfl, hlong⟩
    · exact ⟨busy :: before, after, rfl, hlong⟩

/-- A busy look ends every streak, so one that reaches the threshold lies before it or after it. -/
theorem reaches_append_busy_iff {threshold length : Nat} {before after : List Bool} :
    Reaches threshold length (before ++ true :: after) ↔
      Reaches threshold length before ∨ Reaches threshold 0 after := by
  induction before generalizing length with
  | nil =>
      show Reaches threshold length (true :: after) ↔ _
      rw [reaches_cons_iff]
      constructor
      · rintro (⟨hidle, -⟩ | hafter)
        · exact nomatch hidle
        · exact .inr hafter
      · rintro (hnone | hafter)
        · exact absurd hnone (not_reaches_nil _ _)
        · exact .inr hafter
  | cons busy before ih =>
      rw [List.cons_append, reaches_cons_iff, reaches_cons_iff, ih, or_assoc]

/-- The rows of a poll carry the streak of a host on, and leave it alone where they do not list it. -/
theorem count?_noteAll (m : Readiness) (ready : HostSet) (rows : List StatusRow) (h : Host) :
    (m.noteAll ready rows).1.count? h = (m.count? h).map (streak · (looks h rows)) := by
  induction rows generalizing m ready with
  | nil => exact Option.map_id'.symm
  | cons row rows ih =>
      rw [noteAll, ih, count?_note, Option.map_map]
      by_cases hh : row.host = h
      · subst hh
        rw [looks_cons_self]
        simp only [if_true]
        rfl
      · rw [looks_cons_of_ne hh]
        simp only [if_neg (Ne.symm hh)]
        rfl

theorem threshold_note (m : Readiness) (row : StatusRow) :
    (m.note row).threshold = m.threshold := rfl

theorem isReady_iff {row : StatusRow} : m.isReady row = true ↔
    ∃ n, m.count? row.host = some n ∧ row.busy = false ∧ m.threshold ≤ n + 1 := by
  rw [isReady]
  cases hc : m.count? row.host with
  | none => simp
  | some n =>
      cases hb : row.busy with
      | true => simp
      | false => simp [countAfter, hb]

/-- Of the rows of a poll, one that brings the streak of its host to the threshold makes it ready. -/
theorem mem_noteAll_iff {ready : HostSet} : h ∈ (m.noteAll ready rows).2 ↔
    h ∈ ready ∨ ∃ n, m.count? h = some n ∧ Reaches m.threshold n (looks h rows) := by
  induction rows generalizing m ready with
  | nil =>
      constructor
      · intro hh
        exact .inl hh
      · rintro (hh | ⟨n, -, hreaches⟩)
        · exact hh
        · exact absurd hreaches (not_reaches_nil _ _)
  | cons row rows ih =>
      rw [noteAll, ih, count?_note, threshold_note]
      by_cases hh : row.host = h
      · subst hh
        rw [looks_cons_self]
        simp only [if_true, Option.map_eq_some_iff, reaches_cons_iff]
        have hinsert : row.host ∈ (if m.isReady row then ready.insert row.host else ready) ↔
            row.host ∈ ready ∨ m.isReady row = true := by
          by_cases hr : m.isReady row = true
          · simp [hr]
          · simp [hr]
        rw [hinsert, isReady_iff]
        constructor
        · rintro ((hin | ⟨n, hn, hrow⟩) | ⟨_, ⟨n, hn, rfl⟩, hlater⟩)
          · exact .inl hin
          · exact .inr ⟨n, hn, .inl hrow⟩
          · exact .inr ⟨n, hn, .inr hlater⟩
        · rintro (hin | ⟨n, hn, hrow | hlater⟩)
          · exact .inl (.inl hin)
          · exact .inl (.inr ⟨n, hn, hrow⟩)
          · exact .inr ⟨_, ⟨n, hn, rfl⟩, hlater⟩
      · rw [looks_cons_of_ne hh]
        have hinsert : h ∈ (if m.isReady row then ready.insert row.host else ready) ↔ h ∈ ready := by
          split
          · rw [HostSet.mem_insert]
            simp [Ne.symm hh]
          · exact Iff.rfl
        rw [hinsert]
        simp only [if_neg (Ne.symm hh), Option.map_id']

/-! ## One poll -/

theorem mem_ready_iff : h ∈ (m.poll rows).1.ready ↔
    ∃ n, m.count? h = some n ∧ Reaches m.threshold n (looks h rows) := by
  have hall : h ∈ (m.noteAll ∅ rows).2 ↔ _ := mem_noteAll_iff
  rw [poll]
  show h ∈ (m.noteAll ∅ rows).2 ↔ _
  rw [hall]
  simp

/-- A host that a poll makes ready is no longer counted, and for the others the streak goes on. -/
theorem count?_poll (m : Readiness) (rows : List StatusRow) (h : Host) :
    (m.poll rows).2.count? h =
      if h ∈ (m.poll rows).1.ready then none else (m.count? h).map (streak · (looks h rows)) := by
  show ((m.noteAll ∅ rows).1.drop (m.noteAll ∅ rows).2).count? h = _
  rw [count?_drop, count?_noteAll]
  rfl

/-! ## A host that is seen busy -/

/-- A host that a row of a poll shows busy is left waiting by that poll exactly when no idle row of
    the poll brings its streak to the threshold: none before that row, which carry on the count from
    the polls before, and none after it, where the streak is a new one. -/
theorem busy_waits_iff {before after : List StatusRow} {row : StatusRow}
    (hbusy : row.busy = true) :
    (¬ row.host ∈ (m.poll (before ++ row :: after)).1.ready ∧
      (row.host ∈ m.watched → row.host ∈ (m.poll (before ++ row :: after)).1.watched)) ↔
    ∀ n, m.count? row.host = some n →
      ¬ Reaches m.threshold n (looks row.host before) ∧
        ¬ Reaches m.threshold 0 (looks row.host after) := by
  have hlooks : looks row.host (before ++ row :: after) =
      looks row.host before ++ true :: looks row.host after := by
    rw [looks_append, looks_cons_self, hbusy]
  have hready : row.host ∈ (m.poll (before ++ row :: after)).1.ready ↔
      ∃ n, m.count? row.host = some n ∧ (Reaches m.threshold n (looks row.host before) ∨
        Reaches m.threshold 0 (looks row.host after)) := by
    rw [mem_ready_iff, hlooks]
    simp only [reaches_append_busy_iff]
  constructor
  · rintro ⟨hnot, -⟩ n hn
    exact not_or.mp fun hreaches => hnot (hready.mpr ⟨n, hn, hreaches⟩)
  · intro hnone
    have hnot : ¬ row.host ∈ (m.poll (before ++ row :: after)).1.ready := by
      intro hin
      obtain ⟨n, hn, hreaches⟩ := hready.mp hin
      exact not_or.mpr (hnone n hn) hreaches
    exact ⟨hnot, fun hwatched => mem_watched_poll.mpr ⟨hwatched, hnot⟩⟩

/-- One row shows the host idle and the next one busy, which is too late: it is ready. -/
theorem ready_though_busy :
    (∃ row ∈ ([⟨"a", true, false⟩, ⟨"a", true, true⟩] : List StatusRow),
      row.host = "a" ∧ row.busy = true) ∧
    "a" ∈ ((watch (.ofList ["a"]) 1).poll [⟨"a", true, false⟩, ⟨"a", true, true⟩]).1.ready ∧
    ¬ "a" ∈ ((watch (.ofList ["a"]) 1).poll [⟨"a", true, false⟩, ⟨"a", true, true⟩]).1.watched := by
  decide

/-- With a threshold of two, single idle rows on either side of the busy one do no harm. -/
theorem busy_waits_between_idle_rows :
    (⟨"a", true, true⟩ : StatusRow).busy = true ∧
    ¬ "a" ∈ ((watch (.ofList ["a"]) 2).poll
      [⟨"a", true, false⟩, ⟨"a", true, true⟩, ⟨"a", true, false⟩]).1.ready ∧
    ∀ n, (watch (.ofList ["a"]) 2).count? "a" = some n →
      ¬ Reaches 2 n (looks "a" [⟨"a", true, false⟩]) ∧
        ¬ Reaches 2 0 (looks "a" [⟨"a", true, false⟩]) := by
  have hwaits : ¬ "a" ∈ ((watch (.ofList ["a"]) 2).poll
      [⟨"a", true, false⟩, ⟨"a", true, true⟩, ⟨"a", true, false⟩]).1.ready ∧
      ("a" ∈ (watch (.ofList ["a"]) 2).watched → "a" ∈ ((watch (.ofList ["a"]) 2).poll
        [⟨"a", true, false⟩, ⟨"a", true, true⟩, ⟨"a", true, false⟩]).1.watched) := by
    decide
  have hiff := @busy_waits_iff (watch (.ofList ["a"]) 2) [⟨"a", true, false⟩]
    [⟨"a", true, false⟩] ⟨"a", true, true⟩ rfl
  exact ⟨rfl, hwaits.1, hiff.mp hwaits⟩

/-! ## Any number of polls -/

/-- The monitor after polls. -/
def after (m : Readiness) : List (List StatusRow) → Readiness
  | [] => m
  | rows :: polls => (m.poll rows).2.after polls

/-- The hosts that each poll of a sequence made ready. -/
def readySets (m : Readiness) : List (List StatusRow) → List HostSet
  | [] => []
  | rows :: polls => (m.poll rows).1.ready :: (m.poll rows).2.readySets polls

/-- The polls that list a host. -/
def listing (h : Host) (polls : List (List StatusRow)) : List (List StatusRow) :=
  polls.filter fun rows => rows.any fun row => row.host = h

/-- Whether a poll lists a host as idle. -/
def ShowsIdle (h : Host) (rows : List StatusRow) : Prop :=
  ∃ row ∈ rows, row.host = h ∧ row.busy = false

instance (h : Host) (rows : List StatusRow) : Decidable (ShowsIdle h rows) :=
  inferInstanceAs (Decidable (∃ row ∈ rows, row.host = h ∧ row.busy = false))

variable {polls : List (List StatusRow)}

theorem threshold_after (m : Readiness) (polls : List (List StatusRow)) :
    (m.after polls).threshold = m.threshold := by
  induction polls generalizing m with
  | nil => rfl
  | cons rows polls ih =>
      have hnoteAll : ∀ (m : Readiness) (ready : HostSet),
          (m.noteAll ready rows).1.threshold = m.threshold := by
        induction rows with
        | nil => exact fun _ _ => rfl
        | cons row rows ih => exact fun m ready => ih (m.note row) _
      rw [after, ih]
      exact hnoteAll m ∅

theorem after_append (m : Readiness) (a b : List (List StatusRow)) :
    m.after (a ++ b) = (m.after a).after b := by
  induction a generalizing m with
  | nil => rfl
  | cons rows a ih => exact ih _

theorem readySets_append (m : Readiness) (a b : List (List StatusRow)) :
    m.readySets (a ++ b) = m.readySets a ++ (m.after a).readySets b := by
  induction a generalizing m with
  | nil => rfl
  | cons rows a ih => exact congrArg _ (ih _)

theorem length_readySets (m : Readiness) (polls : List (List StatusRow)) :
    (m.readySets polls).length = polls.length := by
  induction polls generalizing m with
  | nil => rfl
  | cons rows polls ih => exact congrArg (· + 1) (ih _)

/-- The invariant of the polls: as long as a host was not ready its count is the streak of all looks
    at it. -/
theorem count?_after (m : Readiness) (polls : List (List StatusRow)) (h : Host) :
    (m.after polls).count? h =
      if ∀ ready ∈ m.readySets polls, ¬ h ∈ ready
      then (m.count? h).map (streak · (polls.flatMap (looks h))) else none := by
  induction polls generalizing m with
  | nil => simp [after, readySets, streak]
  | cons rows polls ih =>
      rw [after, ih, count?_poll, readySets, List.flatMap_cons]
      by_cases hready : h ∈ (m.poll rows).1.ready
      · have hsome : ¬ ∀ ready ∈ (m.poll rows).1.ready :: (m.poll rows).2.readySets polls,
            ¬ h ∈ ready := fun hall => hall _ List.mem_cons_self hready
        rw [if_neg hsome, if_pos hready]
        simp
      · rw [if_neg hready, Option.map_map]
        simp only [List.forall_mem_cons, hready, not_false_eq_true, true_and]
        simp only [streak_append, Function.comp_def]

/-! ## Polls that list each host once -/

theorem false_mem_looks : false ∈ looks h rows ↔ ShowsIdle h rows := mem_looks

theorem any_host_iff : (rows.any fun row => row.host = h) = true ↔ looks h rows ≠ [] := by
  rw [List.any_eq_true, looks, ne_eq, List.map_eq_nil_iff, List.filter_eq_nil_iff]
  simp

theorem looks_eq_nil (hunlisted : h ∉ rows.map (·.host)) : looks h rows = [] := by
  by_contra hlisted
  obtain ⟨row, hrow, hhost⟩ := List.any_eq_true.mp (any_host_iff.mpr hlisted)
  exact hunlisted (List.mem_map.mpr ⟨row, hrow, of_decide_eq_true hhost⟩)

theorem looks_of_nodup (honce : (rows.map (·.host)).Nodup) (h : Host) :
    looks h rows = [] ∨ ∃ busy, looks h rows = [busy] := by
  induction rows with
  | nil => exact .inl rfl
  | cons row rows ih =>
      obtain ⟨hrow, hrest⟩ := List.nodup_cons.mp honce
      by_cases hh : row.host = h
      · subst hh
        exact .inr ⟨row.busy, by rw [looks_cons_self, looks_eq_nil hrow]⟩
      · rw [looks_cons_of_ne hh]
        exact ih hrest

/-- A streak is as long as the last looks, all of them idle, are many. -/
theorem le_streak_iff {looks : List Bool} : n ≤ streak 0 looks ↔
    n ≤ looks.length ∧ ∀ busy ∈ looks.rtake n, busy = false := by
  induction looks using List.reverseRecOn generalizing n with
  | nil => simp [streak]
  | append_singleton looks busy ih =>
      cases n with
      | zero => simp
      | succ n =>
          rw [streak_append, List.rtake_concat_succ, List.forall_mem_append]
          cases busy with
          | true => simp [streak]
          | false =>
              show n + 1 ≤ streak 0 looks + 1 ↔ _
              rw [Nat.add_le_add_iff_right, ih]
              simp

theorem length_looks_of_nodup (honce : (rows.map (·.host)).Nodup) (h : Host) :
    (looks h rows).length ≤ 1 := by
  rcases looks_of_nodup honce h with hnone | ⟨busy, hbusy⟩
  · rw [hnone]
    exact Nat.zero_le 1
  · rw [hbusy]
    exact Nat.le_refl 1

/-- A poll that lists a host just once shows it idle or busy. -/
theorem looks_of_listed (honce : (looks h rows).length ≤ 1) (hlisted : looks h rows ≠ []) :
    ∃ busy, looks h rows = [busy] :=
  List.length_eq_one_iff.mp
    (Nat.le_antisymm honce (List.length_pos_iff.mpr hlisted))

/-- Where no poll lists a host twice, there is one look for each poll that lists it. -/
theorem flatMap_looks (honce : ∀ rows ∈ polls, (looks h rows).length ≤ 1) :
    polls.flatMap (looks h) = (listing h polls).map fun rows => decide (true ∈ looks h rows) := by
  induction polls with
  | nil => rfl
  | cons rows polls ih =>
      have hrest := ih fun poll hpoll => honce poll (List.mem_cons_of_mem _ hpoll)
      rw [List.flatMap_cons, hrest]
      show _ = ((rows :: polls).filter _).map _
      rw [List.filter_cons]
      by_cases hlisted : looks h rows = []
      · rw [if_neg fun hany => any_host_iff.mp hany hlisted, hlisted]
        rfl
      · obtain ⟨busy, hbusy⟩ := looks_of_listed (honce rows List.mem_cons_self) hlisted
        rw [if_pos (any_host_iff.mpr hlisted), hbusy, List.map_cons, hbusy]
        cases busy with
        | true => rfl
        | false => rfl

/-- The polls that list a host and, at the end, as many that show it idle as a streak is long. -/
theorem le_streak_iff_listing (honce : ∀ rows ∈ polls, (looks h rows).length ≤ 1) :
    n ≤ streak 0 (polls.flatMap (looks h)) ↔
      n ≤ (listing h polls).length ∧ ∀ rows ∈ (listing h polls).rtake n, ShowsIdle h rows := by
  have hidle : ∀ rows ∈ (listing h polls).rtake n, true ∈ looks h rows ↔ ¬ ShowsIdle h rows := by
    intro rows hrows
    obtain ⟨hpoll, hlisted⟩ := List.mem_filter.mp (List.mem_of_mem_drop hrows)
    obtain ⟨busy, hbusy⟩ := looks_of_listed (honce rows hpoll) (any_host_iff.mp hlisted)
    rw [← false_mem_looks, hbusy]
    cases busy <;> simp
  rw [flatMap_looks honce, le_streak_iff, List.length_map]
  refine and_congr_right fun _ => ?_
  rw [List.rtake, List.length_map, ← List.map_drop, List.forall_mem_map]
  refine forall₂_congr fun rows hrows => ?_
  rw [decide_eq_false_iff_not, hidle rows hrows, not_not]

theorem le_streak_flatMap_iff (honce : ∀ rows ∈ polls, (rows.map (·.host)).Nodup) :
    n ≤ streak 0 (polls.flatMap (looks h)) ↔
      n ≤ (listing h polls).length ∧ ∀ rows ∈ (listing h polls).rtake n, ShowsIdle h rows :=
  le_streak_iff_listing fun rows hrows => length_looks_of_nodup (honce rows hrows) h

/-- A host that became ready was brought to the threshold by all the looks at it so far, however the
    polls listed it. -/
theorem reaches_of_mem_ready_after {hosts : HostSet} {threshold : Nat}
    {earlier : List (List StatusRow)}
    (hh : h ∈ (((watch hosts threshold).after earlier).poll rows).1.ready) :
    Reaches threshold (streak 0 (earlier.flatMap (looks h))) (looks h rows) := by
  obtain ⟨count, hcount, hreaches⟩ := mem_ready_iff.mp hh
  rw [count?_after, count?_watch] at hcount
  rw [threshold_after] at hreaches
  split at hcount
  · split at hcount
    · cases hcount
      exact hreaches
    · exact nomatch hcount
  · exact nomatch hcount

/-- Of polls that list each host once, the last makes a host ready that is watched still when it
    shows the host idle and ends a streak that is long enough. -/
theorem mem_ready_after_iff {hosts : HostSet} {threshold : Nat} {earlier : List (List StatusRow)}
    (honce : ∀ poll ∈ earlier ++ [rows], (poll.map (·.host)).Nodup) :
    h ∈ (((watch hosts threshold).after earlier).poll rows).1.ready ↔
      h ∈ hosts ∧ (∀ ready ∈ (watch hosts threshold).readySets earlier, ¬ h ∈ ready) ∧
        ShowsIdle h rows ∧
        max threshold 1 ≤ streak 0 ((earlier ++ [rows]).flatMap (looks h)) := by
  rw [mem_ready_iff, count?_after, count?_watch, threshold_after]
  show (∃ n, _ = some n ∧ Reaches threshold n (looks h rows)) ↔ _
  by_cases hhosts : h ∈ hosts
  · by_cases hearlier : ∀ ready ∈ (watch hosts threshold).readySets earlier, ¬ h ∈ ready
    · rw [if_pos hearlier, if_pos hhosts, and_iff_right hhosts, and_iff_right hearlier,
        List.flatMap_append, List.flatMap_singleton, streak_append, ← false_mem_looks]
      simp only [Option.map_some, Option.some.injEq, exists_eq_left']
      generalize streak 0 (earlier.flatMap (looks h)) = count
      rcases looks_of_nodup (honce rows (by simp)) h with hnone | ⟨busy, hbusy⟩
      · rw [hnone]
        simp [not_reaches_nil]
      · rw [hbusy, reaches_cons_iff]
        cases busy with
        | true => simp [not_reaches_nil]
        | false =>
            have hmax : threshold ≤ count + 1 ↔ max threshold 1 ≤ streak count [false] := by
              show _ ↔ max threshold 1 ≤ count + 1
              omega
            simp [not_reaches_nil, hmax]
    · rw [if_neg hearlier]
      simp [hearlier]
  · rw [if_neg hhosts]
    simp [hhosts]

/-- A poll makes a host ready exactly when the host is watched from the start, was not ready before,
    is listed idle now, and the last polls that list it, as many as the threshold asks for and at
    least one, are there and all show it idle. A poll that does not list a host leaves its count as
    it is. -/
theorem ready_iff_last_polls_idle (hosts : HostSet) (threshold : Nat) {t : Nat}
    (honce : ∀ rows ∈ polls, (rows.map (·.host)).Nodup) (hrows : polls[t]? = some rows) (h : Host) :
    (∃ ready, ((watch hosts threshold).readySets polls)[t]? = some ready ∧
      (h ∈ ready ↔ h ∈ hosts ∧
        (∀ earlier ∈ ((watch hosts threshold).readySets polls).take t, ¬ h ∈ earlier) ∧
        ShowsIdle h rows ∧
        max threshold 1 ≤ (listing h (polls.take (t + 1))).length ∧
        ∀ poll ∈ (listing h (polls.take (t + 1))).rtake (max threshold 1), ShowsIdle h poll)) ∧
    ((∀ row ∈ rows, row.host ≠ h) →
      ((watch hosts threshold).after (polls.take (t + 1))).count? h =
        ((watch hosts threshold).after (polls.take t)).count? h) := by
  have htake : polls.take (t + 1) = polls.take t ++ [rows] := by
    rw [List.take_add_one, hrows]
    rfl
  have honce' : ∀ poll ∈ polls.take t ++ [rows], (poll.map (·.host)).Nodup :=
    fun poll hpoll => honce poll (List.mem_of_mem_take (htake ▸ hpoll))
  obtain ⟨hlt, hget⟩ := List.getElem?_eq_some_iff.mp hrows
  have hlength : ((watch hosts threshold).readySets (polls.take t)).length = t := by
    rw [length_readySets, List.length_take, Nat.min_eq_left (Nat.le_of_lt hlt)]
  have hsplit : (watch hosts threshold).readySets polls =
      (watch hosts threshold).readySets (polls.take t) ++
        ((watch hosts threshold).after (polls.take t)).readySets (rows :: polls.drop (t + 1)) := by
    rw [← readySets_append, ← hget, ← List.drop_eq_getElem_cons hlt, List.take_append_drop]
  constructor
  · refine ⟨(((watch hosts threshold).after (polls.take t)).poll rows).1.ready, ?_, ?_⟩
    · rw [hsplit, List.getElem?_append_right (Nat.le_of_eq hlength), hlength, Nat.sub_self]
      rfl
    · rw [mem_ready_after_iff honce', hsplit, List.take_left' hlength, htake,
        le_streak_flatMap_iff honce']
  · intro hmissing
    have hnone : looks h rows = [] := by
      by_contra hsome
      obtain ⟨row, hrow, hhost⟩ := List.any_eq_true.mp (any_host_iff.mpr hsome)
      exact hmissing row hrow (of_decide_eq_true hhost)
    rw [htake, after_append]
    show (((watch hosts threshold).after (polls.take t)).poll rows).2.count? h = _
    rw [count?_poll, if_neg, hnone]
    · exact Option.map_id'
    · rw [mem_ready_iff, hnone]
      rintro ⟨n, -, hreaches⟩
      exact not_reaches_nil _ _ hreaches

/-- Polls with a gap for `a`, and a busy look at `b` that starts its streak anew. -/
def gappedPolls : List (List StatusRow) :=
  [[⟨"a", true, false⟩, ⟨"b", true, false⟩], [⟨"z", true, false⟩, ⟨"b", true, true⟩],
    [⟨"b", true, false⟩, ⟨"a", true, false⟩]]

/-- The third poll is the second in a row that lists `a` idle, but only the first that does so for
    `b` after it was busy. -/
theorem ready_after_gap :
    (∀ rows ∈ gappedPolls, (rows.map (·.host)).Nodup) ∧
    gappedPolls[2]? = some [⟨"b", true, false⟩, ⟨"a", true, false⟩] ∧
    ∃ ready, ((watch (.ofList ["a", "b"]) 2).readySets gappedPolls)[2]? = some ready ∧
      "a" ∈ ready ∧ ¬ "b" ∈ ready := by
  have honce : ∀ rows ∈ gappedPolls, (rows.map (·.host)).Nodup := by decide
  have hrows : gappedPolls[2]? = some [⟨"b", true, false⟩, ⟨"a", true, false⟩] := rfl
  obtain ⟨ready, hready, ha⟩ :=
    (ready_iff_last_polls_idle (.ofList ["a", "b"]) 2 honce hrows "a").1
  obtain ⟨ready', hready', hb⟩ :=
    (ready_iff_last_polls_idle (.ofList ["a", "b"]) 2 honce hrows "b").1
  have hsame : ready' = ready := Option.some.inj (hready'.symm.trans hready)
  refine ⟨honce, hrows, ready, hready, ha.mpr (by decide), fun hin => ?_⟩
  exact absurd (hb.mp (hsame ▸ hin)) (by decide)

end Readiness

end Rehome
