import Rehome.Fleet.Call

/-!
# Readiness — hosts that have been idle for long enough

A monitor watches hosts poll by poll and counts, for each, the rows that showed it idle since the
last one that showed it busy. A host whose count reaches the threshold on a row that shows it idle
is ready, and is no longer watched after that poll. A poll that does not list a host leaves its
count alone, and hosts that are not watched are passed over.
-/

namespace Rehome

/-- The hosts being watched, each with its count of idle rows. -/
structure Readiness where
  threshold : Nat
  counts : List (Host × Nat)
  ascending : (counts.map (·.1)).Pairwise (· < ·)

/-- What a poll changed. -/
structure Progress where
  /-- The hosts that became ready. -/
  ready : HostSet
  /-- The hosts that are still watched. -/
  watched : HostSet
  deriving DecidableEq

namespace Readiness

/-- Watch hosts, none of which has been seen idle yet. -/
def watch (hosts : HostSet) (threshold : Nat) : Readiness where
  threshold
  counts := hosts.toList.map (·, 0)
  ascending := by
    rw [List.map_map]
    exact (List.map_id' hosts.toList).symm ▸ hosts.ascending

/-- The hosts that are watched. -/
def watched (m : Readiness) : HostSet := ⟨m.counts.map (·.1), m.ascending⟩

/-- Whether no host is watched any more. -/
def isOver (m : Readiness) : Bool := m.counts.isEmpty

/-- The count of a host, if it is watched. -/
def count? (m : Readiness) (host : Host) : Option Nat := m.counts.lookup host

/-- The count after a row. -/
def countAfter (row : StatusRow) (count : Nat) : Nat := if row.busy then 0 else count + 1

/-- The monitor after a row. -/
def note (m : Readiness) (row : StatusRow) : Readiness where
  threshold := m.threshold
  counts := m.counts.map fun (host, n) => (host, if host = row.host then countAfter row n else n)
  ascending := by
    rw [List.map_map]
    exact m.ascending

/-- Whether a row makes its host ready. -/
def isReady (m : Readiness) (row : StatusRow) : Bool :=
  match m.count? row.host with
  | some n => !row.busy && decide (m.threshold ≤ countAfter row n)
  | none => false

/-- The monitor after the rows of a poll, still watching the hosts that became ready, and those. -/
def noteAll (m : Readiness) (ready : HostSet) : List StatusRow → Readiness × HostSet
  | [] => (m, ready)
  | row :: rows =>
    (m.note row).noteAll (if m.isReady row then ready.insert row.host else ready) rows

/-- The monitor without the given hosts. -/
def drop (m : Readiness) (hosts : HostSet) : Readiness where
  threshold := m.threshold
  counts := m.counts.filter fun (host, _) => decide (¬ host ∈ hosts)
  ascending := m.ascending.sublist (List.filter_sublist.map _)

/-- Take in the rows of a poll, in their order. -/
def poll (m : Readiness) (rows : List StatusRow) : Progress × Readiness :=
  let (seen, ready) := m.noteAll ∅ rows
  let rest := seen.drop ready
  (⟨ready, rest.watched⟩, rest)

end Readiness

end Rehome
