import Rehome.Fleet.Memory
import Rehome.Proofs.Safety

/-!
# States of a fleet in memory — how far a pass took each host

A pass asks the hosts of a transfer group to be locked and then tries three stages on those that it
sees locked. What the flags of a host are after some of the stages can be written down at once
(`MemoryHost.after`), since a stage that is tried again changes nothing. `Memory.Reached` says of a
state that all hosts are like that, each after a number of stages of its own, and that hosts outside
the group are as they were.

Below, each call of a pass is shown to lead from such a state to such a state, with its answer read
off the flags that the hosts had at the start.
-/

namespace Rehome

namespace MemoryHost

/-- A host that was asked to be locked and on which then so many stages were tried. It passes a
    stage only if it passed those before. -/
def after (tried : Nat) (h : MemoryHost) : MemoryHost :=
  { h with
    locked := h.locked || !h.unlockable
    inTarget := h.inTarget || decide (1 ≤ tried) && !h.addFails
    hasDrone := h.hasDrone || decide (2 ≤ tried) && !h.addFails && !h.assignFails
    renamed := h.renamed ||
      decide (3 ≤ tried) && !h.addFails && !h.assignFails && !h.renameFails }

/-- Whether a status answer shows a host locked once it was asked to be. -/
def isMovable (h : MemoryHost) : Bool := !h.hidden && (h.locked || !h.unlockable)

/-- How a relocation of a host ends. -/
def placement (h : MemoryHost) : Placement :=
  if h.addFails then .notAdded else if h.assignFails then .noDrone else .placed

/-- Where a host ends up on which all stages are tried. -/
def fate (h : MemoryHost) : Fate :=
  if h.addFails then .stuck .addToTarget
  else if h.assignFails then .stuck .droneAssignment
  else if h.renameFails then .stuck .rename
  else .migrated

theorem placement_eq_placed_iff {h : MemoryHost} :
    h.placement = .placed ↔ h.addFails = false ∧ h.assignFails = false := by
  rw [placement]
  cases h.addFails <;> cases h.assignFails <;> simp

theorem fate_eq (h : MemoryHost) : h.fate = h.placement.fate (!h.renameFails) := by
  rw [fate, placement]
  cases h.addFails <;> cases h.assignFails <;> cases h.renameFails <;> rfl

theorem fate_ne_lock (h : MemoryHost) : h.fate ≠ .stuck .lock := by
  rw [fate]
  cases h.addFails <;> cases h.assignFails <;> cases h.renameFails <;> simp

theorem looked_eq (h : MemoryHost) : ∃ busy, h.looked = { h with busy } := by
  rw [looked]
  split
  · exact ⟨_, rfl⟩
  · exact ⟨h.busy, rfl⟩

theorem after_zero_of_unlockable {h : MemoryHost} (hunlockable : h.unlockable = true) :
    h.after 0 = h := by
  cases h with
  | mk =>
      cases hunlockable
      simp [after]

/-- Further stages change nothing on a host that cannot be added. -/
theorem after_of_addFails {h : MemoryHost} (hadd : h.addFails = true) (i j : Nat) :
    h.after i = h.after j := by
  simp [after, hadd]

theorem after_of_assignFails {h : MemoryHost} (hassign : h.assignFails = true) {i j : Nat}
    (hi : 1 ≤ i) (hj : 1 ≤ j) : h.after i = h.after j := by
  simp [after, hassign, hi, hj]

theorem after_of_not_placed {h : MemoryHost} (hplacement : h.placement ≠ .placed) {i j : Nat}
    (hi : 1 ≤ i) (hj : 1 ≤ j) : h.after i = h.after j := by
  by_cases hadd : h.addFails = true
  · exact after_of_addFails hadd i j
  · refine after_of_assignFails ?_ hi hj
    by_contra hassign
    exact hplacement (placement_eq_placed_iff.mpr
      ⟨Bool.eq_false_iff.mpr hadd, Bool.eq_false_iff.mpr hassign⟩)

end MemoryHost

namespace Memory

/-! ## Looking hosts up -/

theorem lookup_map_entry {hosts : List (Host × MemoryHost)} (n : Host)
    (f : Host → MemoryHost → MemoryHost) :
    (hosts.map fun (k, h) => (k, f k h)).lookup n = (hosts.lookup n).map (f n) := by
  induction hosts with
  | nil => rfl
  | cons entry hosts ih =>
      obtain ⟨k, h⟩ := entry
      rw [List.map_cons, List.lookup_cons, List.lookup_cons]
      by_cases hk : n = k
      · subst hk
        simp
      · rw [beq_false_of_ne hk]
        exact ih

theorem host?_updateAll (m : Memory) (names : HostSet) (f : MemoryHost → MemoryHost) (n : Host) :
    (m.updateAll names f).host? n = (m.host? n).map fun h => if n ∈ names then f h else h :=
  lookup_map_entry n fun k h => if k ∈ names then f h else h

theorem host?_withMillis (m : Memory) (millis : Nat) (n : Host) :
    ({ m with millis } : Memory).host? n = m.host? n := rfl

/-- Sleeping changes no host. -/
theorem host?_sleep (m : Memory) (span : Duration) (n : Host) :
    (fleet.sleep span m).host? n = m.host? n :=
  host?_withMillis m (m.millis + sleepMillis span m.millis) n

theorem update_eq_updateAll (m : Memory) (name : Host) (f : MemoryHost → MemoryHost) :
    m.update name f = m.updateAll (.ofList [name]) f := by
  simp [update, updateAll]

/-! ## Hosts that can be moved -/

/-- The hosts of a transfer group that a status answer shows locked after they were asked to be. -/
def movable (m : Memory) (transfer : HostSet) : HostSet :=
  transfer.filter fun n => (m.host? n).any (·.isMovable)

variable {start m : Memory} {transfer hosts : HostSet} {n : Host} {h : MemoryHost}

theorem mem_movable_iff : n ∈ start.movable transfer ↔
    n ∈ transfer ∧ ∃ h, start.host? n = some h ∧ h.isMovable = true := by
  rw [movable, HostSet.mem_filter, Option.any_eq_true]

theorem movable_subset : start.movable transfer ⊆ transfer := fun _ hn => (mem_movable_iff.mp hn).1

/-! ## States that a pass reaches -/

/-- Stages after locking are only tried on hosts that can be moved and that give a descriptor. -/
def Eligible (start : Memory) (transfer : HostSet) (n : Host) : Prop :=
  n ∈ start.movable transfer ∧ ∀ h, start.host? n = some h → h.descriptorFails = false

/-- What a pass over a transfer group can reach from a state: the hosts outside are untouched, and
    on each host of the group some number of stages was tried. -/
structure Reached (start : Memory) (transfer : HostSet) (tried : Host → Nat) (m : Memory) :
    Prop where
  others : ∀ n, ¬ n ∈ transfer → m.host? n = start.host? n
  unknown : ∀ n, start.host? n = none → m.host? n = none
  known : ∀ n ∈ transfer, ∀ h, start.host? n = some h →
    ∃ busy, m.host? n = some { h.after (tried n) with busy }
  eligible : ∀ n, 0 < tried n → Eligible start transfer n

variable {tried tried' : Host → Nat}

/-- A change to some hosts of the group leads on, if on each of them it is what trying some more
    stages does. -/
theorem Reached.updateAll (hr : Reached start transfer tried m) {f : MemoryHost → MemoryHost}
    (hsub : hosts ⊆ transfer) (hsame : ∀ n, ¬ n ∈ hosts → tried' n = tried n)
    (hstep : ∀ n ∈ hosts, ∀ h busy, start.host? n = some h →
      ∃ busy', f { h.after (tried n) with busy } = { h.after (tried' n) with busy := busy' })
    (heligible : ∀ n ∈ hosts, 0 < tried' n → Eligible start transfer n) :
    Reached start transfer tried' (m.updateAll hosts f) := by
  refine ⟨fun n hn => ?_, fun n hn => ?_, fun n hn h hh => ?_, fun n hpos => ?_⟩
  · have hout : ¬ n ∈ hosts := fun hin => hn (hsub n hin)
    rw [host?_updateAll, hr.others n hn]
    simp [hout]
  · rw [host?_updateAll, hr.unknown n hn]
    rfl
  · obtain ⟨busy, hbusy⟩ := hr.known n hn h hh
    rw [host?_updateAll, hbusy, Option.map_some]
    by_cases hin : n ∈ hosts
    · obtain ⟨busy', hf⟩ := hstep n hin h busy hh
      rw [if_pos hin, hf]
      exact ⟨busy', rfl⟩
    · rw [if_neg hin, hsame n hin]
      exact ⟨busy, rfl⟩
  · by_cases hin : n ∈ hosts
    · exact heligible n hin hpos
    · rw [hsame n hin] at hpos
      exact hr.eligible n hpos

/-- How often stages were tried matters only as far as it shows. -/
theorem Reached.congr (hr : Reached start transfer tried m)
    (hsame : ∀ n h, start.host? n = some h → h.after (tried n) = h.after (tried' n))
    (heligible : ∀ n, 0 < tried' n → Eligible start transfer n) :
    Reached start transfer tried' m := by
  refine ⟨hr.others, hr.unknown, fun n hn h hh => ?_, heligible⟩
  rw [← hsame n h hh]
  exact hr.known n hn h hh

theorem Reached.sleep (hr : Reached start transfer tried m) (span : Duration) :
    Reached start transfer tried (fleet.sleep span m) := by
  refine ⟨fun n hn => ?_, fun n hn => ?_, fun n hn h hh => ?_, hr.eligible⟩
  · rw [host?_sleep]
    exact hr.others n hn
  · rw [host?_sleep]
    exact hr.unknown n hn
  · rw [host?_sleep]
    exact hr.known n hn h hh

/-! ## Calls

What a call does, and then what it leads to. -/

theorem state_query (m : Memory) (hosts : HostSet) :
    (reply (.queryStatus hosts) m).2 =
      m.updateAll hosts fun h => if h.hidden then h else h.looked := rfl

theorem state_lock (m : Memory) (hosts : HostSet) (reason : String) :
    (reply (.lock hosts reason) m).2 =
      m.updateAll hosts fun h => if h.unlockable then h else { h with locked := true } := rfl

theorem state_add (m : Memory) (descriptor : Descriptor) :
    (reply (.add descriptor) m).2 =
      m.update descriptor.host fun h => if h.addFails then h else { h with inTarget := true } := rfl

theorem state_assign (m : Memory) (n : Host) :
    (reply (.assignDrone n) m).2 =
      m.update n fun h => if h.assignFails || !h.inTarget then h else { h with hasDrone := true } :=
  rfl

theorem state_rename (m : Memory) (hosts : HostSet) :
    (reply (.rename hosts .moved) m).2 =
      m.updateAll hosts fun h => if h.renameFails then h else { h with renamed := true } := rfl

theorem Reached.query (hr : Reached start transfer tried m) (hsub : hosts ⊆ transfer) :
    Reached start transfer tried (reply (.queryStatus hosts) m).2 := by
  rw [state_query]
  refine hr.updateAll hsub (fun _ _ => rfl) (fun n _ h busy _ => ?_) fun n _ => hr.eligible n
  by_cases hhidden : h.hidden = true
  · exact ⟨busy, if_pos hhidden⟩
  · obtain ⟨busy', hlooked⟩ := MemoryHost.looked_eq { h.after (tried n) with busy }
    exact ⟨busy', (if_neg hhidden).trans hlooked⟩

/-- Asking for the whole group to be locked is the first thing that a pass does. -/
theorem reached_lock (start : Memory) (transfer : HostSet) (reason : String) :
    Reached start transfer (fun _ => 0) (reply (.lock transfer reason) start).2 := by
  have hhost : ∀ n, (reply (.lock transfer reason) start).2.host? n = (start.host? n).map fun h =>
      if n ∈ transfer then (if h.unlockable then h else { h with locked := true }) else h :=
    fun n => host?_updateAll start transfer _ n
  refine ⟨fun n hn => ?_, fun n hn => ?_, fun n hn h hh => ⟨h.busy, ?_⟩, fun n hpos => ?_⟩
  · rw [hhost]
    simp [hn]
  · rw [hhost, hn]
    rfl
  · rw [hhost, hh, Option.map_some, if_pos hn]
    by_cases hunlockable : h.unlockable = true
    · rw [if_pos hunlockable, MemoryHost.after_zero_of_unlockable hunlockable]
    · rw [if_neg hunlockable]
      simp [MemoryHost.after, hunlockable]
  · exact absurd hpos (Nat.lt_irrefl 0)

theorem Reached.lock (hr : Reached start transfer tried m) (hsub : hosts ⊆ transfer)
    (reason : String) : Reached start transfer tried (reply (.lock hosts reason) m).2 := by
  rw [state_lock]
  refine hr.updateAll hsub (fun _ _ => rfl) (fun n _ h busy _ => ⟨busy, ?_⟩) fun n _ => hr.eligible n
  by_cases hunlockable : h.unlockable = true
  · exact if_pos hunlockable
  · -- it is locked already, as it was asked to be when the pass began
    refine (if_neg hunlockable).trans ?_
    simp [MemoryHost.after, hunlockable]

/-- So many stages were tried on one host and the others are as before. -/
def raise (tried : Host → Nat) (n : Host) (stages : Nat) : Host → Nat :=
  fun k => if k = n then max (tried k) stages else tried k

theorem Reached.add (hr : Reached start transfer tried m) (heligible : Eligible start transfer n)
    {descriptor : Descriptor} (hn : descriptor.host = n) :
    Reached start transfer (raise tried n 1) (reply (.add descriptor) m).2 := by
  subst hn
  rw [state_add, update_eq_updateAll]
  refine hr.updateAll (HostSet.singleton_subset (movable_subset _ heligible.1)) (fun k hk => ?_)
    (fun k hk h busy hh => ⟨busy, ?_⟩) fun k hk _ => ?_
  · exact if_neg fun heq => hk (by simp [heq])
  · have heq : k = descriptor.host := by simpa using hk
    have hraise : raise tried descriptor.host 1 k = max (tried k) 1 := if_pos heq
    have htwo : (2 ≤ max (tried k) 1) = (2 ≤ tried k) := by simp
    have hthree : (3 ≤ max (tried k) 1) = (3 ≤ tried k) := by simp
    rw [hraise]
    by_cases hadd : h.addFails = true
    · exact (if_pos hadd).trans (by rw [MemoryHost.after_of_addFails hadd])
    · refine (if_neg hadd).trans ?_
      simp [MemoryHost.after, hadd, htwo, hthree]
  · have heq : k = descriptor.host := by simpa using hk
    exact heq ▸ heligible

theorem Reached.assign (hr : Reached start transfer tried m) (heligible : Eligible start transfer n)
    (hadd : ∀ h, start.host? n = some h → h.addFails = false) (htried : 1 ≤ tried n) :
    Reached start transfer (raise tried n 2) (reply (.assignDrone n) m).2 := by
  rw [state_assign, update_eq_updateAll]
  refine hr.updateAll (HostSet.singleton_subset (movable_subset _ heligible.1)) (fun k hk => ?_)
    (fun k hk h busy hh => ⟨busy, ?_⟩) fun k hk _ => ?_
  · exact if_neg fun heq => hk (by simp [heq])
  · have heq : k = n := by simpa using hk
    subst heq
    have hraise : raise tried k 2 k = max (tried k) 2 := if_pos rfl
    have hone : 1 ≤ max (tried k) 2 := by omega
    have hthree : (3 ≤ max (tried k) 2) = (3 ≤ tried k) := by simp
    rw [hraise]
    by_cases hassign : h.assignFails = true
    · rw [MemoryHost.after_of_assignFails hassign hone htried]
      exact if_pos (by simp [MemoryHost.after, hassign])
    · -- a drone is only given to hosts that were added
      have hin : (h.after (tried k)).inTarget = true := by
        simp [MemoryHost.after, hadd h hh, htried]
      have hgiven : ¬ (h.assignFails || !(h.after (tried k)).inTarget) = true := by
        rw [hin]
        simpa using hassign
      refine (if_neg hgiven).trans ?_
      simp [MemoryHost.after, hadd h hh, hassign, htried, hone, hthree]
  · have heq : k = n := by simpa using hk
    exact heq ▸ heligible

theorem Reached.rename (hr : Reached start transfer tried m)
    (hplaced : ∀ n ∈ hosts, Eligible start transfer n ∧ 2 ≤ tried n ∧
      ∀ h, start.host? n = some h → h.placement = .placed) :
    Reached start transfer (fun n => if n ∈ hosts then max (tried n) 3 else tried n)
      (reply (.rename hosts .moved) m).2 := by
  rw [state_rename]
  refine hr.updateAll (fun n hn => movable_subset _ (hplaced n hn).1.1) (fun n hn => if_neg hn)
    (fun n hn h busy hh => ⟨busy, ?_⟩) fun n hn _ => (hplaced n hn).1
  obtain ⟨-, htried, hplacement⟩ := hplaced n hn
  obtain ⟨hadd, hassign⟩ := MemoryHost.placement_eq_placed_iff.mp (hplacement h hh)
  have hone : 1 ≤ tried n := by omega
  rw [if_pos hn]
  by_cases hrename : h.renameFails = true
  · refine (if_pos hrename).trans ?_
    simp [MemoryHost.after, hadd, hassign, hrename, htried, hone]
  · refine (if_neg hrename).trans ?_
    simp [MemoryHost.after, hadd, hassign, hrename, htried, hone]

/-! ## Answers -/

theorem isFailed_addEffect (h : MemoryHost) : (addEffect (some h)).isFailed = h.addFails := by
  rw [addEffect]
  by_cases hadd : h.addFails = true
  · simp [hadd, Effect.isFailed]
  · by_cases hin : h.inTarget = true
    · simp [hadd, hin, Effect.isFailed]
    · simp [hadd, hin, Effect.isFailed]

theorem isFailed_assignEffect (h : MemoryHost) :
    (assignEffect (some h)).isFailed = (h.assignFails || !h.inTarget) := by
  rw [assignEffect]
  by_cases hassign : h.assignFails = true
  · simp [hassign, Effect.isFailed]
  · by_cases hin : h.inTarget = true
    · by_cases hdrone : h.hasDrone = true
      · simp [hassign, hin, hdrone, Effect.isFailed]
      · simp [hassign, hin, hdrone, Effect.isFailed]
    · simp [hassign, hin, Effect.isFailed]

section

variable (hr : Reached start transfer tried m) (hn : n ∈ transfer) (hh : start.host? n = some h)
include hr hn hh

theorem Reached.reply_fetchDescriptor : reply (.fetchDescriptor n) m =
    if h.descriptorFails then (.error (reply.noDescriptor n), m) else (.ok (descriptor n), m) := by
  obtain ⟨busy, hbusy⟩ := hr.known n hn h hh
  simp only [reply, hbusy]
  rfl

theorem Reached.isFailed_add : (addEffect (m.host? n)).isFailed = h.addFails := by
  obtain ⟨busy, hbusy⟩ := hr.known n hn h hh
  rw [hbusy, isFailed_addEffect]
  rfl

theorem Reached.isFailed_assign (hadd : h.addFails = false) (htried : 1 ≤ tried n) :
    (assignEffect (m.host? n)).isFailed = h.assignFails := by
  obtain ⟨busy, hbusy⟩ := hr.known n hn h hh
  have hin : (h.after (tried n)).inTarget = true := by simp [MemoryHost.after, hadd, htried]
  rw [hbusy, isFailed_assignEffect]
  show (h.assignFails || !(h.after (tried n)).inTarget) = h.assignFails
  rw [hin]
  simp

/-- A request to rename is answered with the hosts that can be renamed. -/
theorem Reached.mem_those_rename :
    n ∈ m.those hosts (fun h => !h.renameFails) ↔ n ∈ hosts ∧ h.renameFails = false := by
  obtain ⟨busy, hbusy⟩ := hr.known n hn h hh
  rw [those, List.mem_filter, hbusy]
  simp [MemoryHost.after]

end

theorem status?_eq_some_iff {row : StatusRow} : m.status? n = some row ↔
    ∃ h, m.host? n = some h ∧ h.hidden = false ∧ row = ⟨n, h.locked, h.busy.headD false⟩ := by
  rw [status?]
  cases m.host? n with
  | none => simp
  | some h =>
      by_cases hhidden : h.hidden = true
      · simp [hhidden]
      · have hshown : h.hidden = false := Bool.eq_false_iff.mpr hhidden
        simp only [hshown, Bool.false_eq_true, if_false, Option.some.injEq]
        constructor
        · intro heq
          exact ⟨h, rfl, hshown, heq.symm⟩
        · rintro ⟨found, rfl, -, heq⟩
          exact heq.symm

/-- A look at the statuses of hosts shows those locked that are, apart from hidden ones. -/
theorem mem_lockedAmong_status {m : Memory} {hosts : HostSet} {n : Host} :
    n ∈ Locking.lockedAmong hosts (hosts.toList.filterMap m.status?) ↔
      n ∈ hosts ∧ ∃ h, m.host? n = some h ∧ h.hidden = false ∧ h.locked = true := by
  rw [Locking.mem_lockedAmong]
  refine and_congr_right fun hn => ?_
  constructor
  · rintro ⟨row, hrow, hhost, hlocked⟩
    obtain ⟨k, -, hstatus⟩ := List.mem_filterMap.mp hrow
    obtain ⟨found, hfound, hhidden, rfl⟩ := status?_eq_some_iff.mp hstatus
    -- rows are only given for hosts that were asked about, under their own names
    have hk : k = n := hhost
    exact ⟨found, hk ▸ hfound, hhidden, hlocked⟩
  · rintro ⟨h, hh, hhidden, hlocked⟩
    exact ⟨_, List.mem_filterMap.mpr ⟨n, hn, status?_eq_some_iff.mpr ⟨h, hh, hhidden, rfl⟩⟩, rfl,
      hlocked⟩

/-- A look at the statuses shows just those hosts locked that can be moved. -/
theorem Reached.mem_lockedAmong (hr : Reached start transfer tried m) (hsub : hosts ⊆ transfer) :
    n ∈ Locking.lockedAmong hosts (hosts.toList.filterMap m.status?) ↔
      n ∈ hosts ∧ n ∈ start.movable transfer := by
  rw [mem_lockedAmong_status]
  refine and_congr_right fun hn => ?_
  rw [mem_movable_iff]
  cases hstart : start.host? n with
  | none => simp [hr.unknown n hstart]
  | some h =>
      obtain ⟨busy, hbusy⟩ := hr.known n (hsub n hn) h hstart
      simp [hbusy, hsub n hn, MemoryHost.isMovable, MemoryHost.after]

end Memory

end Rehome
