import Rehome.Proofs.Batches
import Rehome.Proofs.Changes

/-!
# Settling — a step that is taken again changes nothing

What locking, relocating and renaming do to a fleet in memory can be told from the state that they
begin in (`Run.Does`). The change that a step makes to a host is nothing new when it is made again,
and it does not show in anything that the step is told by. So after a step the same step ends in the
same way and leaves every host as it is (`Memory.steps_settle`), whatever its hosts and its policy.

That covers hosts that are not known, policies without a single attempt, hosts with a drone that are
not in the target system, and a relocation that is cut short in the middle.
-/

namespace Rehome

/-! ## Hosts after a step -/

namespace MemoryHost

/-- A host that was asked to be locked, in so many attempts. -/
def lockedWithin (tries : Nat) (h : MemoryHost) : MemoryHost :=
  { h with locked := h.locked || decide (0 < tries) && !h.unlockable }

/-- A host that was asked to be renamed for migration, in so many attempts. -/
def renamedWithin (tries : Nat) (h : MemoryHost) : MemoryHost :=
  { h with renamed := h.renamed || decide (0 < tries) && !h.renameFails }

/-- A host that was asked to be added to the target system. -/
def added (h : MemoryHost) : MemoryHost := { h with inTarget := h.inTarget || !h.addFails }

/-- Whether a host is given a drone, or has one, after so many attempts. -/
def takesDrone (tries : Nat) (h : MemoryHost) : Bool :=
  decide (0 < tries) && (!h.assignFails && h.inTarget)

/-- A host for which a drone was asked, in so many attempts. -/
def equippedWithin (tries : Nat) (h : MemoryHost) : MemoryHost :=
  { h with hasDrone := h.hasDrone || h.takesDrone tries }

/-- A host that was relocated, with so many attempts to give it a drone. None is asked for if the
    host cannot be added, whether or not it was in the target system before. -/
def relocatedWithin (tries : Nat) (h : MemoryHost) : MemoryHost :=
  if h.addFails then h else h.added.equippedWithin tries

/-- Whether the host gives its descriptor. -/
def isDescribed (h : MemoryHost) : Bool := !h.descriptorFails

/-- Whether the host can be renamed. -/
def isRenamable (h : MemoryHost) : Bool := !h.renameFails

/-- How a relocation of a host ends, with so many attempts to give it a drone. -/
def placementWithin (tries : Nat) (h : MemoryHost) : Placement :=
  if h.addFails then .notAdded
  else if h.added.takesDrone tries then .placed
  else .noDrone

/-- Attempts that follow on at least as many others add nothing to a flag. -/
theorem flag_again (b c : Bool) {i j : Nat} (hij : i ≤ j) :
    ((b || decide (0 < j) && c) || decide (0 < i) && c) = (b || decide (0 < j) && c) := by
  by_cases hi : 0 < i
  · have hj : 0 < j := by omega
    simp [hi, hj]
  · simp [hi]

theorem lockedWithin_zero (h : MemoryHost) : h.lockedWithin 0 = h := by
  simp [lockedWithin]

theorem renamedWithin_zero (h : MemoryHost) : h.renamedWithin 0 = h := by
  simp [renamedWithin]

theorem equippedWithin_zero (h : MemoryHost) : h.equippedWithin 0 = h := by
  simp [equippedWithin, takesDrone]

theorem lockedWithin_lockedWithin {i j : Nat} (hij : i ≤ j) (h : MemoryHost) :
    (h.lockedWithin j).lockedWithin i = h.lockedWithin j :=
  congrArg (fun locked => { h with locked }) (flag_again h.locked (!h.unlockable) hij)

theorem isMovable_lockedWithin (tries : Nat) (h : MemoryHost) :
    (h.lockedWithin tries).isMovable = h.isMovable := by
  cases hu : h.unlockable with
  | true => simp [isMovable, lockedWithin, hu]
  | false => simp [isMovable, lockedWithin, hu]

theorem renamedWithin_renamedWithin {i j : Nat} (hij : i ≤ j) (h : MemoryHost) :
    (h.renamedWithin j).renamedWithin i = h.renamedWithin j :=
  congrArg (fun renamed => { h with renamed }) (flag_again h.renamed (!h.renameFails) hij)

theorem equippedWithin_equippedWithin {i j : Nat} (hij : i ≤ j) (h : MemoryHost) :
    (h.equippedWithin j).equippedWithin i = h.equippedWithin j :=
  congrArg (fun hasDrone => { h with hasDrone })
    (flag_again h.hasDrone (!h.assignFails && h.inTarget) hij)

theorem takesDrone_of_le {i j : Nat} (hij : i ≤ j) {h : MemoryHost} (hnever : h.takesDrone j = false) :
    h.takesDrone i = false := by
  by_cases hi : 0 < i
  · have hj : 0 < j := by omega
    simpa [takesDrone, hi, hj] using hnever
  · simp [takesDrone, hi]

theorem relocatedWithin_of_addFails {h : MemoryHost} (hadd : h.addFails = true) (tries : Nat) :
    h.relocatedWithin tries = h := by
  rw [relocatedWithin, if_pos hadd]

theorem relocatedWithin_of_adds {h : MemoryHost} (hadd : h.addFails = false) (tries : Nat) :
    h.relocatedWithin tries = h.added.equippedWithin tries := by
  rw [relocatedWithin, hadd, if_neg Bool.false_ne_true]

theorem added_equippedWithin_added (tries : Nat) (h : MemoryHost) :
    (h.added.equippedWithin tries).added = h.added.equippedWithin tries := by
  simp [added, equippedWithin, takesDrone]

theorem relocatedWithin_relocatedWithin (tries : Nat) (h : MemoryHost) :
    (h.relocatedWithin tries).relocatedWithin tries = h.relocatedWithin tries := by
  cases hadd : h.addFails with
  | true => rw [relocatedWithin_of_addFails hadd, relocatedWithin_of_addFails hadd]
  | false =>
      have hkept : (h.added.equippedWithin tries).addFails = false := hadd
      rw [relocatedWithin_of_adds hadd, relocatedWithin_of_adds hkept, added_equippedWithin_added,
        equippedWithin_equippedWithin (Nat.le_refl tries)]

theorem isDescribed_relocatedWithin (tries : Nat) (h : MemoryHost) :
    (h.relocatedWithin tries).isDescribed = h.isDescribed := by
  rw [relocatedWithin]
  split <;> rfl

theorem placementWithin_relocatedWithin (tries : Nat) (h : MemoryHost) :
    (h.relocatedWithin tries).placementWithin tries = h.placementWithin tries := by
  cases hadd : h.addFails with
  | true => rw [relocatedWithin_of_addFails hadd]
  | false =>
      have hkept : (h.added.equippedWithin tries).addFails = false := hadd
      rw [relocatedWithin_of_adds hadd, placementWithin, placementWithin, hadd, hkept,
        added_equippedWithin_added]
      rfl

end MemoryHost

open Memory (Changed)

variable {f : MemoryHost → MemoryHost} {names : HostSet} {m m₁ : Memory} {n : Host}

/-! ## Runs that settle -/

namespace Run

variable {α : Type} {x : Run Memory.fleet α}

/-- A run over a fleet in memory does what is told, to hosts of a set. When it is made again it ends
    in the same way, leaves every host as it is but for looks, and does nothing at all to hosts
    outside the set. -/
structure Settles (x : Run Memory.fleet α) (hosts : HostSet) (result : Except PassError α)
    (f : MemoryHost → MemoryHost) (names : HostSet) (m : Memory) : Prop where
  result_eq : (x.run m).result = result
  changed : Changed f names m (x.run m).state
  again : (x.run (x.run m).state).result = (x.run m).result
  stays : ∀ n, (x.run (x.run m).state).state.still? n = (x.run m).state.still? n
  outside : ∀ n, ¬ n ∈ hosts → (x.run m).state.host? n = m.host? n ∧
    (x.run (x.run m).state).state.host? n = m.host? n

/-- What is told of a run has to be the same once its change was made. -/
theorem settles_of_does {hosts : HostSet} {result : Memory → Except PassError α}
    {names : Memory → HostSet} (hdoes : ∀ m, x.Does (result m) f (names m) m)
    (hf : ∀ h, f (f h) = f h) (hsub : ∀ m, names m ⊆ hosts)
    (hsame : ∀ m m', Changed f (names m) m m' → result m' = result m ∧ names m' = names m)
    (m : Memory) : x.Settles hosts (result m) f (names m) m := by
  obtain ⟨hresult, hchanged⟩ := (hdoes m).spec
  obtain ⟨hresult', hchanged'⟩ := (hdoes (x.run m).state).spec
  obtain ⟨hsameResult, hsameNames⟩ := hsame m _ hchanged
  rw [hsameResult] at hresult'
  rw [hsameNames] at hchanged'
  refine ⟨hresult, hchanged, hresult'.trans hresult.symm, fun n => ?_, fun n hn => ?_⟩
  · by_cases hn : n ∈ names m
    · rw [hchanged'.changed n hn, hchanged.changed n hn, Changed.map_again hf]
    · rw [hchanged'.still?_others hn]
  · have hnames : ¬ n ∈ names m := fun hin => hn (hsub m n hin)
    have hfirst := hchanged.others n hnames
    exact ⟨hfirst, (hchanged'.others n hnames).trans hfirst⟩

end Run

/-! ## Locking -/

namespace Memory

theorem changed_lock (left : Nat) (reason : String) (hosts : HostSet) (m : Memory) :
    Changed (MemoryHost.lockedWithin (left + 1)) hosts m (reply (.lock hosts reason) m).2 := by
  rw [state_lock]
  refine changed_updateAll (fun h => ?_) m hosts
  cases hu : h.unlockable with
  | true => simp [MemoryHost.lockedWithin, MemoryHost.still, hu]
  | false => simp [MemoryHost.lockedWithin, MemoryHost.still, hu]

/-- Up to looks, a look changes nothing. -/
theorem changed_query (hosts : HostSet) (m : Memory) :
    Changed (fun h => h) hosts m (reply (.queryStatus hosts) m).2 := by
  rw [state_query]
  refine changed_updateAll (fun h => ?_) m hosts
  by_cases hhidden : h.hidden = true
  · rw [if_pos hhidden]
  · obtain ⟨busy, hlooked⟩ := h.looked_eq
    rw [if_neg hhidden, hlooked]
    rfl

/-- After hosts were asked to be locked, a look shows those that can be. -/
theorem lockedAmong_lock (left : Nat) (reason : String) (hosts : HostSet) (m : Memory) :
    Locking.lockedAmong hosts
        (hosts.toList.filterMap (reply (.lock hosts reason) m).2.status?) =
      m.passing MemoryHost.isMovable (left + 1) hosts := by
  ext n
  rw [mem_lockedAmong_status, mem_passing]
  refine and_congr_right fun hn => ?_
  rw [state_lock, host?_updateAll]
  cases m.host? n with
  | none => simp
  | some h =>
      cases hu : h.unlockable with
      | true => simp [hn, hu, MemoryHost.isMovable]
      | false => simp [hn, hu, MemoryHost.isMovable]

end Memory

namespace Locking

variable {policy : RetryPolicy} {reason : String}

/-- Hosts that one attempt does not lock are not locked by others. -/
theorem does_attempts (left made : Nat) (remaining locked : HostSet) (m : Memory) :
    (attempts policy reason left made remaining locked : Run Memory.fleet StepResult).Does
      (.ok ⟨locked ∪ m.passing MemoryHost.isMovable left remaining,
        remaining \ m.passing MemoryHost.isMovable left remaining⟩)
      (MemoryHost.lockedWithin left) remaining m := by
  induction left generalizing made remaining locked m with
  | zero =>
      refine Run.ends_pure ⟨?_, Memory.changed_of_same MemoryHost.lockedWithin_zero remaining m⟩
      rw [Memory.passing_zero, HostSet.union_empty, HostSet.sdiff_empty]
  | succ left ih =>
      rw [attempts_succ]
      by_cases hempty : remaining.isEmpty = true
      · rw [if_pos hempty, HostSet.isEmpty_iff.mp hempty]
        refine Run.ends_pure ⟨?_, Memory.changed_empty _ m⟩
        rw [Memory.passing_empty, HostSet.union_empty, HostSet.sdiff_empty]
      · rw [if_neg hempty]
        refine Run.ends_pause fun t m₁ hpause => ?_
        rw [look]
        refine Run.ends_bind (Run.ends_call rfl (Run.ends_bind (Run.ends_bind (Run.ends_call rfl
          (Run.ends_pure ?_)))))
        have hlook : Changed (MemoryHost.lockedWithin (left + 1)) remaining m₁ _ :=
          (Memory.changed_lock left reason remaining m₁).absorb
            (Memory.changed_query remaining _) (fun _ hn => hn) fun _ => rfl
        have hfirst := hlook.of_paused hpause
        have hseen := (Memory.lockedAmong_lock left reason remaining m₁).trans
          (Memory.passing_paused hpause MemoryHost.isMovable (left + 1) remaining)
        have hrest := ih (made + 1) (remaining \ m.passing MemoryHost.isMovable (left + 1) remaining)
          (locked ∪ m.passing MemoryHost.isMovable (left + 1) remaining)
          (Memory.reply (.queryStatus remaining) (Memory.reply (.lock remaining reason) m₁).2).2
        -- no other attempt is shown any of the rest locked
        rw [hfirst.passing_eq (fun _ => rfl) (MemoryHost.isMovable_lockedWithin (left + 1)),
          Memory.passing_sdiff, HostSet.union_empty, HostSet.sdiff_empty, ← hseen] at hrest
        rw [← hseen]
        exact hrest.onwards fun m' hchanged => hfirst.absorb hchanged
          (fun n hn => (HostSet.mem_sdiff.mp hn).1)
          (MemoryHost.lockedWithin_lockedWithin (Nat.le_succ left))

theorem does_run (policy : RetryPolicy) (hosts : HostSet) (reason : String) (m : Memory) :
    (run policy hosts reason : Run Memory.fleet StepResult).Does
      (if Text.isBlankText reason then .error (.rejected .noReason)
        else .ok (.split hosts (m.passing MemoryHost.isMovable policy.maxAttempts hosts)))
      (MemoryHost.lockedWithin policy.maxAttempts)
      (if Text.isBlankText reason then ∅ else hosts) m := by
  cases hreason : Text.isBlankText reason with
  | true =>
      rw [run, hreason]
      exact ⟨rfl, Memory.changed_empty _ m⟩
  | false =>
      have hsplit : StepResult.split hosts (m.passing MemoryHost.isMovable policy.maxAttempts hosts) =
          ⟨∅ ∪ m.passing MemoryHost.isMovable policy.maxAttempts hosts,
            hosts \ m.passing MemoryHost.isMovable policy.maxAttempts hosts⟩ := by
        rw [StepResult.split, Memory.inter_passing]
        rfl
      rw [run_of_reason hreason, if_neg Bool.false_ne_true, if_neg Bool.false_ne_true, hsplit]
      exact does_attempts policy.maxAttempts 0 hosts ∅ m

end Locking

/-! ## Renaming -/

theorem Memory.changed_rename (left : Nat) (hosts : HostSet) (m : Memory) :
    Changed (MemoryHost.renamedWithin (left + 1)) hosts m (reply (.rename hosts .moved) m).2 := by
  rw [state_rename]
  refine changed_updateAll (fun h => ?_) m hosts
  cases hr : h.renameFails with
  | true => simp [MemoryHost.renamedWithin, MemoryHost.still, hr]
  | false => simp [MemoryHost.renamedWithin, MemoryHost.still, hr]

/-- The answer to a request to rename lists the hosts that can be renamed. -/
theorem Memory.ofList_those_renamable (left : Nat) (hosts : HostSet) (m : Memory) :
    HostSet.ofList (m.those hosts fun h => !h.renameFails) =
      m.passing MemoryHost.isRenamable (left + 1) hosts := by
  rw [ofList_those, passing]
  simp only [Nat.succ_pos, decide_true, Bool.true_and]
  rfl

namespace Renaming

variable {policy : RetryPolicy}

/-- Hosts that one attempt does not rename are not renamed by others. -/
theorem does_attempts (left made : Nat) (remaining : HostSet) (m : Memory) :
    (attempts policy left made remaining : Run Memory.fleet HostSet).Does
      (.ok (remaining \ m.passing MemoryHost.isRenamable left remaining))
      (MemoryHost.renamedWithin left) remaining m := by
  induction left generalizing made remaining m with
  | zero =>
      refine Run.ends_pure ⟨?_, Memory.changed_of_same MemoryHost.renamedWithin_zero remaining m⟩
      rw [Memory.passing_zero, HostSet.sdiff_empty]
  | succ left ih =>
      rw [attempts_succ]
      by_cases hempty : remaining.isEmpty = true
      · rw [if_pos hempty, HostSet.isEmpty_iff.mp hempty]
        refine Run.ends_pure ⟨?_, Memory.changed_empty _ m⟩
        rw [Memory.passing_empty, HostSet.sdiff_empty]
      · rw [if_neg hempty]
        refine Run.ends_pause fun t m₁ hpause => Run.ends_bind (Run.ends_call rfl ?_)
        have hfirst := (Memory.changed_rename left remaining m₁).of_paused hpause
        have hrenamed := (Memory.ofList_those_renamable left remaining m₁).trans
          (Memory.passing_paused hpause MemoryHost.isRenamable (left + 1) remaining)
        have hrest := ih (made + 1) (remaining \ m.passing MemoryHost.isRenamable (left + 1) remaining)
          (Memory.reply (.rename remaining .moved) m₁).2
        rw [hfirst.passing_eq (fun _ => rfl) (fun _ => rfl), Memory.passing_sdiff, HostSet.sdiff_empty,
          ← hrenamed] at hrest
        rw [← hrenamed]
        exact hrest.onwards fun m' hchanged => hfirst.absorb hchanged
          (fun n hn => (HostSet.mem_sdiff.mp hn).1)
          (MemoryHost.renamedWithin_renamedWithin (Nat.le_succ left))

theorem does_run (policy : RetryPolicy) (hosts : HostSet) (m : Memory) :
    (run policy hosts : Run Memory.fleet StepResult).Does
      (.ok (.split hosts (m.passing MemoryHost.isRenamable policy.maxAttempts hosts)))
      (MemoryHost.renamedWithin policy.maxAttempts) hosts m := by
  have hsplit : StepResult.split hosts (m.passing MemoryHost.isRenamable policy.maxAttempts hosts) =
      ⟨hosts \ (hosts \ m.passing MemoryHost.isRenamable policy.maxAttempts hosts),
        hosts \ m.passing MemoryHost.isRenamable policy.maxAttempts hosts⟩ := by
    rw [StepResult.split, HostSet.sdiff_sdiff]
  rw [hsplit]
  exact (does_attempts policy.maxAttempts 0 hosts m).map fun rest => StepResult.mk (hosts \ rest) rest

end Renaming

/-! ## Relocation -/

namespace Memory

/-- Whether the fleet gives the descriptor of a host. -/
def describes (m : Memory) (n : Host) : Bool := (m.host? n).any (·.isDescribed)

/-- The hosts, in order, up to the first that gives no descriptor. -/
def describedFirst (m : Memory) (names : List Host) : HostSet := .ofList (names.takeWhile m.describes)

/-- The hosts whose relocation ends in a way, with so many attempts to give each a drone. -/
def endingAs (m : Memory) (tries : Nat) (p : Placement) (names : List Host) : HostSet :=
  .ofList (names.filter fun n => (m.host? n).any fun h => h.placementWithin tries = p)

/-- How a relocation of hosts ends: it is cut short by the first that gives no descriptor. -/
def relocation (m : Memory) (tries : Nat) (names : List Host) : Except PassError Relocation :=
  match names.find? fun n => !m.describes n with
  | some n => .error (.tool (reply.noDescriptor n))
  | none => .ok {
      succeeded := m.endingAs tries .placed names
      needsAddToTarget := m.endingAs tries .notAdded names
      needsDroneAssignment := m.endingAs tries .noDrone names }

theorem reply_fetchDescriptor (n : Host) (m : Memory) : reply (.fetchDescriptor n) m =
    if m.describes n then (.ok (descriptor n), m) else (.error (reply.noDescriptor n), m) := by
  cases hh : m.host? n with
  | none => simp [reply, describes, hh]
  | some h =>
      cases hd : h.descriptorFails with
      | true => simp [reply, describes, hh, MemoryHost.isDescribed, hd]
      | false => simp [reply, describes, hh, MemoryHost.isDescribed, hd]

section

variable {tries : Nat} {names : List Host} {h : MemoryHost}

theorem describedFirst_of_undescribed (hn : m.describes n = false) :
    m.describedFirst (n :: names) = ∅ := by
  rw [describedFirst, List.takeWhile_cons, hn, if_neg Bool.false_ne_true]
  rfl

theorem relocation_of_undescribed (hn : m.describes n = false) :
    m.relocation tries (n :: names) = .error (.tool (reply.noDescriptor n)) := by
  simp [relocation, hn]

theorem describedFirst_cons (hn : m.describes n = true) :
    m.describedFirst (n :: names) = .ofList [n] ∪ m.describedFirst names := by
  rw [describedFirst, List.takeWhile_cons, hn, if_pos rfl]
  rfl

theorem endingAs_cons (hh : m.host? n = some h) (p : Placement) :
    m.endingAs tries p (n :: names) =
      if h.placementWithin tries = p then (m.endingAs tries p names).insert n
      else m.endingAs tries p names := by
  rw [endingAs, endingAs, List.filter_cons, hh]
  by_cases hp : h.placementWithin tries = p
  · simp [hp]
  · simp [hp]

theorem relocation_cons (hn : m.describes n = true) (hh : m.host? n = some h) :
    m.relocation tries (n :: names) =
      (m.relocation tries names).map (Relocation.note n (h.placementWithin tries)) := by
  simp only [relocation, List.find?_cons, hn, Bool.not_true]
  cases names.find? fun n => !m.describes n with
  | some k => rfl
  | none =>
      rw [endingAs_cons hh, endingAs_cons hh, endingAs_cons hh]
      cases h.placementWithin tries with
      | placed => rfl
      | notAdded => rfl
      | noDrone => rfl

end

/-- Relocating hosts does not show in what a relocation is told by. -/
theorem Changed.relocation_eq {tries : Nat}
    (h : Changed (MemoryHost.relocatedWithin tries) names m m₁) (hosts : List Host) :
    m₁.relocation tries hosts = m.relocation tries hosts ∧
      m₁.describedFirst hosts = m.describedFirst hosts := by
  have hdescribes : m₁.describes = m.describes :=
    funext (h.any_eq (fun _ => rfl) (MemoryHost.isDescribed_relocatedWithin tries))
  have hending : ∀ p, m₁.endingAs tries p hosts = m.endingAs tries p hosts := by
    intro p
    have hp := h.any_eq (p := fun k => decide (k.placementWithin tries = p)) (fun _ => rfl)
      fun k => by rw [MemoryHost.placementWithin_relocatedWithin]
    rw [endingAs, endingAs]
    simp only [hp]
  rw [relocation, relocation, describedFirst, describedFirst, hdescribes, hending, hending, hending]
  exact ⟨rfl, rfl⟩

end Memory

namespace Relocation

variable {policy : RetryPolicy}

theorem isFailed_assign (left : Nat) (n : Host) (m : Memory) :
    (Memory.assignEffect (m.host? n)).isFailed = !(m.host? n).any (·.takesDrone (left + 1)) := by
  cases m.host? n with
  | none => rfl
  | some h =>
      rw [Memory.isFailed_assignEffect]
      simp [MemoryHost.takesDrone, Bool.not_and]

theorem changed_assign (left : Nat) (n : Host) (m : Memory) :
    Changed (MemoryHost.equippedWithin (left + 1)) (.ofList [n]) m
      (Memory.reply (.assignDrone n) m).2 := by
  rw [Memory.state_assign, Memory.update_eq_updateAll]
  refine Memory.changed_updateAll (fun h => ?_) m _
  cases ha : h.assignFails with
  | true => simp [MemoryHost.equippedWithin, MemoryHost.takesDrone, MemoryHost.still, ha]
  | false =>
      cases ht : h.inTarget with
      | true => simp [MemoryHost.equippedWithin, MemoryHost.takesDrone, MemoryHost.still, ha, ht]
      | false => simp [MemoryHost.equippedWithin, MemoryHost.takesDrone, MemoryHost.still, ha, ht]

theorem changed_add (n : Host) (m : Memory) :
    Changed MemoryHost.added (.ofList [n]) m (Memory.reply (.add (Memory.descriptor n)) m).2 := by
  rw [Memory.state_add, Memory.update_eq_updateAll]
  refine Memory.changed_updateAll (fun h => ?_) m _
  cases ha : h.addFails with
  | true => simp [MemoryHost.added, MemoryHost.still, ha]
  | false => simp [MemoryHost.added, MemoryHost.still, ha]

/-- A host that is not given a drone in one attempt is not given one in others. -/
theorem does_assign (left attempt : Nat) (n : Host) (m : Memory) :
    (assign policy n left attempt : Run Memory.fleet Bool).Does
      (.ok ((m.host? n).any (·.takesDrone left))) (MemoryHost.equippedWithin left) (.ofList [n]) m := by
  induction left generalizing attempt m with
  | zero =>
      refine Run.ends_pure ⟨?_, Memory.changed_of_same MemoryHost.equippedWithin_zero _ m⟩
      cases m.host? n with
      | none => rfl
      | some h => rfl
  | succ left ih =>
      have hfirst := changed_assign left n m
      rw [assign_succ]
      refine Run.ends_bind (Run.ends_call rfl ?_)
      show Run.ends (if (Memory.assignEffect (m.host? n)).isFailed = true then _ else _) _ _ _
      rw [isFailed_assign left]
      cases hgiven : (m.host? n).any (·.takesDrone (left + 1)) with
      | true =>
          rw [if_neg (by decide)]
          exact Run.ends_pure ⟨rfl, hfirst⟩
      | false =>
          rw [if_pos (by decide)]
          refine Run.ends_pause fun t m₁ hpause => ?_
          have hnever : (m₁.host? n).any (·.takesDrone left) = false := by
            rw [Memory.host?_paused hpause]
            have hsame := hfirst.any_eq (p := MemoryHost.takesDrone left) (fun _ => rfl)
              (fun _ => rfl) n
            refine hsame.trans ?_
            cases hh : m.host? n with
            | none => rfl
            | some h =>
                rw [hh, Option.any_some] at hgiven
                exact MemoryHost.takesDrone_of_le (Nat.le_succ left) hgiven
          have hrest := ih (attempt + 1) m₁
          rw [hnever] at hrest
          exact hrest.onwards fun m' hchanged => hfirst.absorb (hchanged.of_paused hpause)
            (fun _ hn => hn) (MemoryHost.equippedWithin_equippedWithin (Nat.le_succ left))

theorem does_place {h : MemoryHost} (hn : m.describes n = true) (hh : m.host? n = some h) :
    (place policy n : Run Memory.fleet Placement).Does (.ok (h.placementWithin policy.maxAttempts))
      (MemoryHost.relocatedWithin policy.maxAttempts) (.ofList [n]) m := by
  have hknown : ∀ k ∈ HostSet.ofList [n], ∀ found, m.host? k = some found → found = h := by
    intro k hk found hfound
    rw [List.mem_singleton.mp (HostSet.mem_ofList.mp hk), hh] at hfound
    exact (Option.some.inj hfound).symm
  have hreply := Memory.reply_fetchDescriptor n m
  have hadded := changed_add n m
  rw [hn, if_pos rfl] at hreply
  rw [place]
  refine Run.ends_bind (Run.ends_call hreply (Run.ends_bind (Run.ends_call rfl ?_)))
  show Run.ends (if (Memory.addEffect (m.host? n)).isFailed = true then _ else _) _ _ _
  rw [hh, Memory.isFailed_addEffect]
  cases hadd : h.addFails with
  | true =>
      rw [if_pos rfl]
      refine Run.ends_pure ⟨by rw [MemoryHost.placementWithin, if_pos hadd], ?_⟩
      refine hadded.congr fun k hk found hfound => ?_
      cases hknown k hk found hfound
      rw [MemoryHost.relocatedWithin_of_addFails (show h.still.addFails = true from hadd)]
      simp [MemoryHost.added, MemoryHost.still, hadd]
  | false =>
      rw [if_neg Bool.false_ne_true]
      have hassign := @does_assign policy policy.maxAttempts 1 n
        (Memory.reply (.add (Memory.descriptor n)) m).2
      have hhost : (Memory.reply (.add (Memory.descriptor n)) m).2.host? n = some h.added := by
        rw [Memory.state_add, Memory.update_eq_updateAll, Memory.host?_updateAll]
        simp [Memory.descriptor, hh, hadd, MemoryHost.added]
      rw [hhost, Option.any_some] at hassign
      refine hassign.bind fun m₁ hequipped => ?_
      have hrelocated : Changed (MemoryHost.relocatedWithin policy.maxAttempts) (.ofList [n]) m m₁ := by
        refine (hadded.comp hequipped).congr fun k hk found hfound => ?_
        cases hknown k hk found hfound
        exact (MemoryHost.relocatedWithin_of_adds (show h.still.addFails = false from hadd) _).symm
      rw [MemoryHost.placementWithin, hadd, if_neg Bool.false_ne_true]
      cases h.added.takesDrone policy.maxAttempts with
      | true => exact Run.ends_pure ⟨rfl, hrelocated⟩
      | false => exact Run.ends_pure ⟨rfl, hrelocated⟩

theorem does_place_of_undescribed (hn : m.describes n = false) (f : MemoryHost → MemoryHost) :
    (place policy n : Run Memory.fleet Placement).Does (.error (.tool (Memory.reply.noDescriptor n)))
      f ∅ m := by
  have hreply := Memory.reply_fetchDescriptor n m
  rw [hn, if_neg Bool.false_ne_true] at hreply
  rw [place]
  exact Run.ends_bind (Run.ends_call_error hreply ⟨rfl, Memory.changed_empty f m⟩)

theorem does_all (names : List Host) (m : Memory) :
    (all policy names : Run Memory.fleet Relocation).Does (m.relocation policy.maxAttempts names)
      (MemoryHost.relocatedWithin policy.maxAttempts) (m.describedFirst names) m := by
  induction names generalizing m with
  | nil => exact Run.ends_pure ⟨rfl, Memory.changed_empty _ m⟩
  | cons n names ih =>
      rw [all]
      cases hn : m.describes n with
      | false =>
          rw [Memory.relocation_of_undescribed hn, Memory.describedFirst_of_undescribed hn]
          exact (does_place_of_undescribed hn _).bind_error
      | true =>
          obtain ⟨h, hh, -⟩ := (Option.any_eq_true ..).mp hn
          refine (does_place hn hh).bind fun m₁ hchanged => ?_
          obtain ⟨hrelocation, hfirst⟩ := hchanged.relocation_eq names
          have hrest := (ih m₁).map (note n (h.placementWithin policy.maxAttempts))
          rw [hrelocation, hfirst] at hrest
          rw [Memory.relocation_cons hn hh, Memory.describedFirst_cons hn]
          exact hrest.onwards fun m' hchanged' => hchanged.union hchanged'
            (MemoryHost.relocatedWithin_relocatedWithin policy.maxAttempts)

end Relocation

/-! ## Steps in a row -/

theorem Memory.describedFirst_subset (m : Memory) (hosts : HostSet) :
    m.describedFirst hosts.toList ⊆ hosts := by
  intro n hn
  exact (List.takeWhile_prefix _).subset (HostSet.mem_ofList.mp hn)

/-- Each of the steps comes to what can be told from the state that it begins in, and taken again it
    ends in the same way and leaves every host as the first time: on any fleet in memory, for all
    hosts, policies and reasons. Hosts that were not asked for are never touched. -/
theorem Memory.steps_settle (policy : RetryPolicy) (hosts : HostSet) (reason : String) (m : Memory) :
    (Locking.run policy hosts reason : Run Memory.fleet StepResult).Settles hosts
      (if Text.isBlankText reason then .error (.rejected .noReason)
        else .ok (.split hosts (m.passing MemoryHost.isMovable policy.maxAttempts hosts)))
      (MemoryHost.lockedWithin policy.maxAttempts)
      (if Text.isBlankText reason then ∅ else hosts) m ∧
    (Relocation.run policy hosts : Run Memory.fleet Relocation).Settles hosts
      (m.relocation policy.maxAttempts hosts.toList)
      (MemoryHost.relocatedWithin policy.maxAttempts) (m.describedFirst hosts.toList) m ∧
    (Renaming.run policy hosts : Run Memory.fleet StepResult).Settles hosts
      (.ok (.split hosts (m.passing MemoryHost.isRenamable policy.maxAttempts hosts)))
      (MemoryHost.renamedWithin policy.maxAttempts) hosts m := by
  refine ⟨?_, ?_, ?_⟩
  · refine Run.settles_of_does (Locking.does_run policy hosts reason)
      (MemoryHost.lockedWithin_lockedWithin (Nat.le_refl _)) ?_ ?_ m
    · intro _ n hn
      split at hn
      · exact absurd hn (HostSet.notMem_empty n)
      · exact hn
    · intro m m' hchanged
      rw [hchanged.passing_eq (fun _ => rfl) (MemoryHost.isMovable_lockedWithin policy.maxAttempts)]
      exact ⟨rfl, rfl⟩
  · refine Run.settles_of_does (Relocation.does_all hosts.toList)
      (MemoryHost.relocatedWithin_relocatedWithin _) ?_ ?_ m
    · intro m
      exact m.describedFirst_subset hosts
    · intro m m' hchanged
      exact hchanged.relocation_eq hosts.toList
  · refine Run.settles_of_does (Renaming.does_run policy hosts)
      (MemoryHost.renamedWithin_renamedWithin (Nat.le_refl _)) ?_ ?_ m
    · intro _ n hn
      exact hn
    · intro m m' hchanged
      rw [hchanged.passing_eq (fun _ => rfl) fun _ => rfl]
      exact ⟨rfl, rfl⟩

/-- A relocation that is cut short gave the host before a drone. -/
example : ((Relocation.run {} (.ofList ["a", "b"]) : Run Memory.fleet Relocation).run
    ⟨[("b", { descriptorFails := true }), ("a", {})], 0⟩).state.host? "a" =
    some { inTarget := true, hasDrone := true } := by decide

end Rehome
