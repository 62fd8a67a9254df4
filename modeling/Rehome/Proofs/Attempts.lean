import Rehome.Proofs.Course
import Rehome.Proofs.Safety

/-!
# Attempts — how often a pass takes a host up, and when it lets go of it

Every host that was verified locked is relocated once or twice: at the latest in the sweep, and
once more there if it was relocated before and that did not end with its name in the answer to a
request to rename it. After such an answer nobody asks about the host again (`attempts_each_host`).

What carries the proof is `Tally`, an account of the first round that every step of it keeps: who is
still waited for, who is stuck, and how often each host was relocated so far. It is closed under the
two things that the round is made of, asking about those that are waited for (`Tally.look`) and
moving some of them (`Tally.move`).
-/

namespace Rehome

/-! ## Confirmations and counts -/

/-- The answer to a request to rename a host lists it. -/
def Confirmed (h : Host) (trace : List Exchange) : Prop :=
  ∃ hosts direction answer, (⟨.rename hosts direction, .ok answer⟩ : Exchange) ∈ trace ∧
    h ∈ hosts ∧ h ∈ answer

/-- How often the descriptor of a host was asked for. -/
def fetches (h : Host) (trace : List Exchange) : Nat :=
  (trace.map (·.1)).count (.fetchDescriptor h)

/-- A call names no host that was confirmed before. -/
def LeavesConfirmed (past : List Exchange) (call : Call) : Prop :=
  ∀ h ∈ call.hosts, ¬ Confirmed h past

variable {h : Host} {a b past trace : List Exchange}

theorem confirmed_append : Confirmed h (a ++ b) ↔ Confirmed h a ∨ Confirmed h b := by
  constructor
  · rintro ⟨hosts, direction, answer, hx, hh, hanswer⟩
    rcases List.mem_append.mp hx with hx | hx
    · exact .inl ⟨hosts, direction, answer, hx, hh, hanswer⟩
    · exact .inr ⟨hosts, direction, answer, hx, hh, hanswer⟩
  · rintro (⟨hosts, direction, answer, hx, hh, hanswer⟩ |
      ⟨hosts, direction, answer, hx, hh, hanswer⟩)
    · exact ⟨hosts, direction, answer, List.mem_append_left _ hx, hh, hanswer⟩
    · exact ⟨hosts, direction, answer, List.mem_append_right _ hx, hh, hanswer⟩

/-- Without requests to rename nothing is confirmed. -/
theorem not_confirmed_of_no_rename
    (hnone : ∀ x ∈ trace, ∀ hosts direction, x.1 ≠ .rename hosts direction) :
    ¬ Confirmed h trace := by
  rintro ⟨hosts, direction, answer, hx, -⟩
  exact hnone _ hx hosts direction rfl

theorem fetches_append : fetches h (a ++ b) = fetches h a + fetches h b := by
  rw [fetches, List.map_append, List.count_append]
  rfl

theorem fetches_eq_zero (hnone : ∀ x ∈ trace, x.1 ≠ .fetchDescriptor h) : fetches h trace = 0 := by
  refine List.count_eq_zero.mpr fun hmem => ?_
  obtain ⟨x, hx, heq⟩ := List.mem_map.mp hmem
  exact hnone x hx heq

/-- What was done before without confirming anything does not matter. -/
theorem Obeys.prepend_unconfirmed {earlier : List Exchange}
    (hearlier : ∀ h, ¬ Confirmed h earlier) (hobeys : Obeys LeavesConfirmed past trace) :
    Obeys LeavesConfirmed (earlier ++ past) trace := by
  induction trace generalizing past with
  | nil => trivial
  | cons x trace ih =>
      obtain ⟨hx, hrest⟩ := hobeys
      refine ⟨fun h hh hconfirmed => ?_, ?_⟩
      · rcases confirmed_append.mp hconfirmed with hin | hin
        · exact hearlier h hin
        · exact hx h hh hin
      · rw [List.append_assoc]
        exact ih hrest

/-! ## Journals -/

section

variable {σ : Type} {fleet : Fleet σ} {settings : Settings} {j : Journal} {hosts : HostSet}

theorem Attempt.hosts_of_mem {a : Attempt} (hdescribed : a.descriptor.host = a.host) {x : Exchange}
    (hx : x ∈ a.exchanges) :
    (∀ h ∈ x.1.hosts, h = a.host) ∧ ∀ hosts direction, x.1 ≠ .rename hosts direction := by
  rw [Attempt.exchanges, List.mem_cons, List.mem_cons, List.mem_map] at hx
  refine ⟨?_, ?_⟩
  · intro h hh
    rcases hx with rfl | rfl | ⟨effect, -, rfl⟩
    · exact List.mem_singleton.mp (HostSet.mem_ofList.mp hh)
    · exact (List.mem_singleton.mp (HostSet.mem_ofList.mp hh)).trans hdescribed
    · exact List.mem_singleton.mp (HostSet.mem_ofList.mp hh)
  · intro hosts direction hrename
    rcases hx with rfl | rfl | ⟨effect, -, rfl⟩
    · cases hrename
    · cases hrename
    · cases hrename

theorem Journal.confirmed_iff :
    Confirmed h j.exchanges ↔ ∃ r ∈ j.requests, h ∈ r.hosts ∧ h ∈ r.answer := by
  constructor
  · rintro ⟨hosts, direction, answer, hx, hh, hanswer⟩
    rw [Journal.exchanges, List.mem_append, List.mem_flatMap, List.mem_map] at hx
    rcases hx with ⟨a, -, hx⟩ | ⟨r, hr, hx⟩
    · rw [Attempt.exchanges, List.mem_cons, List.mem_cons, List.mem_map] at hx
      rcases hx with hx | hx | ⟨effect, -, hx⟩
      · cases hx
      · cases hx
      · cases hx
    · cases hx
      exact ⟨r, hr, hh, hanswer⟩
  · rintro ⟨r, hr, hh, hanswer⟩
    exact ⟨r.hosts, .moved, r.answer, List.mem_append_right _ (List.mem_map_of_mem hr), hh, hanswer⟩

theorem Attempt.fetches_eq (a : Attempt) (h : Host) : fetches h a.exchanges = [a.host].count h := by
  have hrest : fetches h (⟨.add a.descriptor, .ok a.added⟩ ::
      a.assigned.map fun effect => ⟨.assignDrone a.host, .ok effect⟩) = 0 := by
    refine fetches_eq_zero fun x hx => ?_
    rcases List.mem_cons.mp hx with rfl | hx
    · nofun
    · obtain ⟨effect, -, rfl⟩ := List.mem_map.mp hx
      nofun
  show fetches h ([⟨.fetchDescriptor a.host, .ok a.descriptor⟩] ++ _) = _
  rw [fetches_append, hrest, Nat.add_zero]
  show [Call.fetchDescriptor a.host].count (.fetchDescriptor h) = _
  simp [List.count_singleton]

theorem fetches_attempts (attempts : List Attempt) (h : Host) :
    fetches h (attempts.flatMap Attempt.exchanges) = (attempts.map Attempt.host).count h := by
  induction attempts with
  | nil => rfl
  | cons a attempts ih =>
      rw [List.flatMap_cons, fetches_append, ih, a.fetches_eq, List.map_cons, ← List.count_append]
      rfl

/-- A journal asks for the descriptor of each of its hosts once. -/
theorem Journal.fetches_eq (hhosts : j.attempts.map Attempt.host = hosts.toList) (h : Host) :
    fetches h j.exchanges = if h ∈ hosts then 1 else 0 := by
  have hrequests : fetches h (j.requests.map Request.exchange) = 0 := by
    refine fetches_eq_zero fun x hx => ?_
    obtain ⟨r, -, rfl⟩ := List.mem_map.mp hx
    nofun
  rw [Journal.exchanges, fetches_append, fetches_attempts, hrequests, hhosts, Nat.add_zero,
    hosts.nodup_toList.count]
  rfl

/-- The hosts of a journal that are stuck in the end are those that no answer confirmed. -/
theorem Journal.mem_stuckAfterLock_iff {tries : Nat} {duts : Duts}
    (hhosts : j.attempts.map Attempt.host = hosts.toList)
    (htold : ∀ a ∈ j.attempts, ∃ fate, j.Shows tries a fate ∧ duts.Reports a.host (some fate))
    (hrest : ∀ h, ¬ h ∈ hosts → duts.Reports h none) :
    h ∈ duts.stuckAfterLock ↔ h ∈ hosts ∧ ¬ Confirmed h j.exchanges := by
  by_cases hh : h ∈ hosts
  · have hmem : h ∈ j.attempts.map Attempt.host := hhosts ▸ hh
    obtain ⟨a, ha, rfl⟩ := List.mem_map.mp hmem
    obtain ⟨fate, hshows, hreports⟩ := htold a ha
    rw [hreports.mem_stuckAfterLock, Journal.confirmed_iff, ← (hshows.agrees hreports).migrated]
    have hmigrated : a.host ∈ duts.migrated ↔ some fate = some .migrated := hreports .migrated
    rw [hmigrated]
    constructor
    · rintro ⟨stage, hstage, -⟩
      rw [hstage]
      exact ⟨hh, nofun⟩
    · rintro ⟨-, hne⟩
      cases fate with
      | migrated => exact absurd rfl hne
      | stuck stage =>
          refine ⟨stage, rfl, ?_⟩
          rintro rfl
          exact hshows
  · refine ⟨fun hstuck => ?_, fun hboth => absurd hboth.1 hh⟩
    obtain ⟨stage, hstage, -⟩ := (hrest h hh).mem_stuckAfterLock.mp hstuck
    exact nomatch hstage

theorem leavesConfirmed_attempts {attempts : List Attempt}
    (hdescribed : ∀ a ∈ attempts, a.descriptor.host = a.host)
    (hfresh : ∀ a ∈ attempts, ¬ Confirmed a.host past) :
    Obeys LeavesConfirmed past (attempts.flatMap Attempt.exchanges) := by
  refine @Obeys.of_forall _ _ (fun call => (∀ h ∈ call.hosts, ¬ Confirmed h past) ∧
    ∀ hosts direction, call ≠ .rename hosts direction) _ ?_ ?_
  · intro x hx
    obtain ⟨a, ha, hx⟩ := List.mem_flatMap.mp hx
    obtain ⟨hown, hrename⟩ := a.hosts_of_mem (hdescribed a ha) hx
    exact ⟨fun h hh => hown h hh ▸ hfresh a ha, hrename⟩
  · rintro t call ht ⟨hcall, -⟩ h hh hconfirmed
    rcases confirmed_append.mp hconfirmed with hin | hin
    · exact hcall h hh hin
    · exact not_confirmed_of_no_rename (fun x hx => (ht x hx).2) hin

/-- Requests go on without the hosts that an answer listed. -/
theorem leavesConfirmed_requests {requests : List Request}
    (hfresh : ∀ r ∈ requests, ∀ h ∈ r.hosts, ¬ Confirmed h past)
    (hdwindling : requests.Pairwise fun r later => ∀ h ∈ r.answer, ¬ h ∈ later.hosts) :
    Obeys LeavesConfirmed past (requests.map Request.exchange) := by
  induction requests generalizing past with
  | nil => trivial
  | cons r requests ih =>
      obtain ⟨hfirst, hrest⟩ := List.pairwise_cons.mp hdwindling
      refine ⟨hfresh r List.mem_cons_self, ih (fun later hlater h hh hconfirmed => ?_) hrest⟩
      rcases confirmed_append.mp hconfirmed with hin | ⟨_, _, _, hx, -, hanswer⟩
      · exact hfresh later (List.mem_cons_of_mem _ hlater) h hh hin
      · cases List.mem_singleton.mp hx
        exact hfirst later hlater h hanswer hh

/-- A journal of hosts that were not confirmed before names none that was. -/
theorem Journal.Within.leavesConfirmed (hj : j.Within fleet settings)
    (hdescribed : ∀ a ∈ j.attempts, a.descriptor.host = a.host)
    (hfresh : ∀ a ∈ j.attempts, ¬ Confirmed a.host past) :
    Obeys LeavesConfirmed past j.exchanges := by
  refine obeys_append.mpr ⟨leavesConfirmed_attempts hdescribed hfresh,
    leavesConfirmed_requests ?_ hj.dwindling⟩
  intro r hr h hh hconfirmed
  obtain ⟨a, ha, rfl⟩ := hj.requested r hr h hh
  rcases confirmed_append.mp hconfirmed with hin | hin
  · exact hfresh a ha hin
  · -- nobody is asked to be renamed before the first request
    refine not_confirmed_of_no_rename (fun x hx => ?_) hin
    obtain ⟨a, ha, hx⟩ := List.mem_flatMap.mp hx
    exact (a.hosts_of_mem (hdescribed a ha) hx).2

end

/-! ## One move -/

variable {σ : Type} {fleet : Fleet σ} {settings : Settings} {checked : CheckedSettings}
variable {locked waiting ready hosts : HostSet} {duts moved : Duts} {j : Journal}

/-- What a move of hosts asks and brings about. -/
structure Moved (fleet : Fleet σ) (settings : Settings) (hosts : HostSet) (duts : Duts)
    (j : Journal) : Prop where
  attempted : j.attempts.map Attempt.host = hosts.toList
  described : ∀ a ∈ j.attempts, a.descriptor.host = a.host
  within : j.Within fleet settings
  stuck : ∀ h, h ∈ duts.stuckAfterLock ↔ h ∈ hosts ∧ ¬ Confirmed h j.exchanges

theorem Moved.mem_of_confirmed (hmoved : Moved fleet settings hosts duts j)
    (hconfirmed : Confirmed h j.exchanges) : h ∈ hosts := by
  obtain ⟨r, hr, hh, -⟩ := Journal.confirmed_iff.mp hconfirmed
  obtain ⟨a, ha, rfl⟩ := hmoved.within.requested r hr h hh
  rw [← HostSet.mem_toList, ← hmoved.attempted]
  exact List.mem_map_of_mem ha

theorem Moved.leavesConfirmed (hmoved : Moved fleet settings hosts duts j)
    (hfresh : ∀ h ∈ hosts, ¬ Confirmed h past) : Obeys LeavesConfirmed past j.exchanges := by
  refine hmoved.within.leavesConfirmed hmoved.described fun a ha => hfresh a.host ?_
  rw [← HostSet.mem_toList, ← hmoved.attempted]
  exact List.mem_map_of_mem ha

theorem Pass.yields_move_moved (hfleet : fleet.DescribesAsked) (hosts : HostSet) (s : σ) :
    (move checked hosts : Run fleet Duts).yields (fun duts t _ =>
      ∃ j : Journal, exchanges t = j.exchanges ∧ Moved fleet checked.toSettings hosts duts j) s := by
  refine (yields_move_within hosts s).mono ?_
  rintro duts t s' ⟨j, hex, hhosts, hwithin, htold, hrest⟩
  refine ⟨j, hex, hhosts, fun a ha => ?_, hwithin, fun h => ?_⟩
  · obtain ⟨⟨s₁, s₂, hreply⟩, -⟩ := hwithin.attempts a ha
    exact hfleet _ _ _ _ hreply
  · exact Journal.mem_stuckAfterLock_iff hhosts htold hrest

/-! ## The first round -/

/-- What the first round is made of. -/
inductive Step where
  /-- Asking about the hosts that are waited for. -/
  | asked (hosts : HostSet) (rows : List StatusRow)
  /-- Moving hosts. -/
  | moved (journal : Journal)

/-- The exchanges of a step. -/
def Step.exchanges : Step → List Exchange
  | .asked hosts rows => [⟨.queryStatus hosts, .ok rows⟩]
  | .moved j => j.exchanges

/-- A move adds each of its hosts once, and stays within the settings. -/
def Step.Within (fleet : Fleet σ) (settings : Settings) : Step → Prop
  | .asked _ _ => True
  | .moved j => (∀ a ∈ j.attempts, a.descriptor.host = a.host) ∧ j.Within fleet settings

/-- Steps within the settings may be followed by one more. -/
theorem exists_steps_append (step : Step)
    (hsteps : ∃ steps : List Step, trace = steps.flatMap Step.exchanges ∧
      ∀ step ∈ steps, step.Within fleet settings)
    (hstep : step.Within fleet settings) :
    ∃ steps : List Step, trace ++ step.exchanges = steps.flatMap Step.exchanges ∧
      ∀ step ∈ steps, step.Within fleet settings := by
  obtain ⟨steps, rfl, hwithin⟩ := hsteps
  refine ⟨steps ++ [step], by simp, fun other hother => ?_⟩
  rcases List.mem_append.mp hother with hother | hother
  · exact hwithin other hother
  · rw [List.mem_singleton.mp hother]
    exact hstep

/-- The first round so far: each locked host is waited for and was not relocated, or it was relocated
    once and is stuck unless it was confirmed. -/
structure Tally (fleet : Fleet σ) (settings : Settings) (locked waiting : HostSet) (duts : Duts)
    (trace : List Exchange) : Prop where
  waiting_subset : waiting ⊆ locked
  unconfirmed : ∀ h ∈ waiting, ¬ Confirmed h trace
  stuck : ∀ h, h ∈ duts.stuckAfterLock ↔ h ∈ locked ∧ ¬ h ∈ waiting ∧ ¬ Confirmed h trace
  fetched : ∀ h, fetches h trace = if h ∈ locked ∧ ¬ h ∈ waiting then 1 else 0
  leavesConfirmed : Obeys LeavesConfirmed [] trace
  steps : ∃ steps : List Step, trace = steps.flatMap Step.exchanges ∧
    ∀ step ∈ steps, step.Within fleet settings

/-- What the round leaves to the sweep is what was not confirmed. -/
theorem Tally.mem_leftovers_iff (ht : Tally fleet settings locked waiting duts trace) :
    h ∈ waiting ∪ duts.stuckAfterLock ↔ h ∈ locked ∧ ¬ Confirmed h trace := by
  rw [HostSet.mem_union, ht.stuck]
  constructor
  · rintro (hin | ⟨hin, -, hnot⟩)
    · exact ⟨ht.waiting_subset h hin, ht.unconfirmed h hin⟩
    · exact ⟨hin, hnot⟩
  · rintro ⟨hin, hnot⟩
    by_cases hwaiting : h ∈ waiting
    · exact .inl hwaiting
    · exact .inr ⟨hin, hwaiting, hnot⟩

/-- At the start all locked hosts are waited for. -/
theorem Tally.start (hnone : duts.stuckAfterLock = ∅) :
    Tally fleet settings locked locked duts [] where
  waiting_subset _ hh := hh
  unconfirmed _ _ := fun ⟨_, _, _, hx, _⟩ => nomatch hx
  stuck h := by
    rw [hnone]
    exact ⟨fun hh => absurd hh (HostSet.notMem_empty h), fun hh => absurd hh.1 hh.2.1⟩
  fetched h := by
    rw [if_neg fun hh => hh.2 hh.1]
    rfl
  leavesConfirmed := trivial
  steps := ⟨[], rfl, fun _ hstep => nomatch hstep⟩

/-- Asking about the hosts that are waited for changes nothing. -/
theorem Tally.look (ht : Tally fleet settings locked waiting duts trace) (rows : List StatusRow) :
    Tally fleet settings locked waiting duts
      (trace ++ [⟨.queryStatus waiting, .ok rows⟩]) := by
  have hquery : ∀ h, ¬ Confirmed h [⟨.queryStatus waiting, .ok rows⟩] := fun h =>
    not_confirmed_of_no_rename fun x hx => by
      rw [List.mem_singleton.mp hx]
      exact fun _ _ => nofun
  have hsame : ∀ h, Confirmed h (trace ++ [⟨.queryStatus waiting, .ok rows⟩]) ↔
      Confirmed h trace := by
    intro h
    rw [confirmed_append]
    exact or_iff_left (hquery h)
  refine ⟨ht.waiting_subset, fun h hh => ?_, fun h => ?_, fun h => ?_, ?_, ?_⟩
  · rw [hsame]
    exact ht.unconfirmed h hh
  · rw [hsame]
    exact ht.stuck h
  · rw [fetches_append, ht.fetched]
    exact Nat.add_zero _
  · exact obeys_append.mpr ⟨ht.leavesConfirmed, ht.unconfirmed, trivial⟩
  · exact exists_steps_append (.asked waiting rows) ht.steps trivial

/-- Moving hosts that are waited for takes them from those. -/
theorem Tally.move (ht : Tally fleet settings locked waiting duts trace) (hsub : ready ⊆ waiting)
    (hmoved : Moved fleet settings ready moved j) :
    Tally fleet settings locked (waiting \ ready) (duts.merge moved) (trace ++ j.exchanges) := by
  refine ⟨fun h hh => ?_, fun h hh hconfirmed => ?_, fun h => ?_, fun h => ?_, ?_, ?_⟩
  · exact ht.waiting_subset h (HostSet.mem_sdiff.mp hh).1
  · obtain ⟨hin, hout⟩ := HostSet.mem_sdiff.mp hh
    rcases confirmed_append.mp hconfirmed with hbefore | hnow
    · exact ht.unconfirmed h hin hbefore
    · exact hout (hmoved.mem_of_confirmed hnow)
  · rw [Duts.mem_stuckAfterLock_merge, ht.stuck, hmoved.stuck, confirmed_append, HostSet.mem_sdiff]
    by_cases hready : h ∈ ready
    · -- it was waited for, so it is in no category yet and nothing confirmed it before
      have hwaiting := hsub h hready
      simp [hready, hwaiting, ht.waiting_subset h hwaiting, ht.unconfirmed h hwaiting]
    · have hnot : ¬ Confirmed h j.exchanges := fun hin => hready (hmoved.mem_of_confirmed hin)
      simp [hready, hnot]
  · rw [fetches_append, ht.fetched, Journal.fetches_eq hmoved.attempted]
    by_cases hready : h ∈ ready
    · have hwaiting := hsub h hready
      simp [hready, hwaiting, ht.waiting_subset h hwaiting]
    · simp [hready]
  · have hfresh : ∀ h ∈ ready, ¬ Confirmed h trace := fun h hh => ht.unconfirmed h (hsub h hh)
    rw [← List.nil_append trace] at hfresh
    exact obeys_append.mpr ⟨ht.leavesConfirmed, hmoved.leavesConfirmed hfresh⟩
  · exact exists_steps_append (.moved j) ht.steps ⟨hmoved.described, hmoved.within⟩

namespace Pass

theorem yields_firstRound_tally (hfleet : fleet.DescribesAsked)
    (hnone : duts.stuckAfterLock = ∅) (s : σ) :
    (firstRound checked locked duts : Run fleet (HostSet × Duts)).yields (fun r t _ =>
      Tally fleet checked.toSettings locked r.1 r.2 (exchanges t)) s := by
  refine yields_firstRound_of_steps (Tally fleet checked.toSettings locked)
    (fun waiting duts t rows ht => ht.look rows) (fun waiting duts t ready s₁ ht hsub => ?_)
    (.start hnone) s
  refine (yields_move_moved hfleet ready s₁).mono ?_
  rintro moved t' s₂ ⟨j, hex, hmoved⟩
  rw [hex]
  exact ht.move hsub hmoved

/-! ## The whole pass -/

/-- Locking asks about locks only, and the hosts that are to be moved are those of the transfer group
    that the answer read after the attempts to lock shows locked. -/
theorem obeys_secure_verified (transfer : HostSet) (s : σ) :
    (secure checked transfer : Run fleet StepResult).obeys (fun _ call => Locks transfer call) []
      (fun r t _ => ∀ h, h ∈ r.succeeded ↔
        h ∈ transfer ∧ Verified fleet checked.toSettings s transfer h t) s := by
  refine (obeys_secure transfer s).and_yields (yields_secure transfer s) ?_
  rintro r t s' - ⟨seen, rfl, hsecured⟩ h
  show h ∈ transfer ∩ seen ↔ _
  rw [HostSet.mem_inter]
  refine and_congr_right fun hh => ?_
  obtain ⟨locking, attempted, s₁, time, rows, hrun, rfl, rfl⟩ := hsecured h hh
  rw [exchanges_append, Locking.mem_lockedAmong, and_iff_right hh]
  constructor
  · intro hrow
    exact ⟨attempted, locking, s₁, rows, [], hrun, rfl, hrow⟩
  · rintro ⟨attempted', locking', s', rows', later, hrun', hsplit, hrow⟩
    -- the attempts were made once only, so it is the same answer
    have hsame := hrun.symm.trans hrun'
    cases hsame
    have hone : ([⟨.queryStatus transfer, .ok rows⟩] : List Exchange) =
        ⟨.queryStatus transfer, .ok rows'⟩ :: later := List.append_cancel_left hsplit
    cases hone
    exact hrow

/-- Locking neither relocates a host nor confirms one. -/
theorem not_confirmed_of_locks {transfer : HostSet} (hlocks : ∀ x ∈ trace, Locks transfer x.1)
    (h : Host) : ¬ Confirmed h trace := by
  refine not_confirmed_of_no_rename fun x hx hosts direction heq => ?_
  have hkind := hlocks x hx
  rw [heq] at hkind
  exact hkind.2.2

theorem fetches_of_locks {transfer : HostSet} (hlocks : ∀ x ∈ trace, Locks transfer x.1)
    (h : Host) : fetches h trace = 0 := by
  refine fetches_eq_zero fun x hx heq => ?_
  have hkind := hlocks x hx
  rw [heq] at hkind
  exact hkind.2.2

theorem yields_sweep_moved (hfleet : fleet.DescribesAsked) (s : σ) :
    (sweep checked waiting duts : Run fleet Duts).yields (fun _ t _ =>
      ∃ moved j, exchanges t = j.exchanges ∧
        Moved fleet checked.toSettings (waiting ∪ duts.stuckAfterLock) moved j) s := by
  rw [sweep, Run.yields_bind]
  refine (yields_move_moved hfleet (waiting ∪ duts.stuckAfterLock) s).mono ?_
  rintro moved t s' ⟨j, hex, hmoved⟩
  refine ⟨moved, j, ?_, hmoved⟩
  show exchanges (t ++ []) = j.exchanges
  rw [List.append_nil]
  exact hex

/-- How often the pass with a course takes up each host. -/
structure Course.Attempts (fleet : Fleet σ) (settings : Settings) (start : σ) (transfer : HostSet)
    (c : Course) : Prop where
  /-- The hosts that are to be moved are verified locked. -/
  locked : ∀ h, h ∈ c.locked ↔
    h ∈ transfer ∧ Verified fleet settings start transfer h (exchanges c.locking)
  /-- Each of them is relocated once or twice. -/
  once_or_twice : ∀ h ∈ c.locked,
    fetches h (exchanges c.trace) = 1 ∨ fetches h (exchanges c.trace) = 2
  /-- No other host is. -/
  never : ∀ h, ¬ h ∈ c.locked → fetches h (exchanges c.trace) = 0
  /-- It is twice when the first time was before the sweep and was not confirmed. -/
  twice_iff : ∀ h, fetches h (exchanges c.trace) = 2 ↔
    0 < fetches h (exchanges c.firstRound) ∧ ¬ Confirmed h (exchanges c.firstRound)
  /-- The sweep is given all that were not confirmed so far. -/
  leftovers : ∀ h, h ∈ c.leftovers ↔ h ∈ c.locked ∧ ¬ Confirmed h (exchanges c.firstRound)
  /-- Each move of the first round keeps to the number of attempts allowed. -/
  steps : ∃ steps : List Step, exchanges c.firstRound = steps.flatMap Step.exchanges ∧
    ∀ step ∈ steps, step.Within fleet settings
  /-- So does the sweep. -/
  sweep : ∃ j : Journal, exchanges c.sweep = j.exchanges ∧
    j.attempts.map Attempt.host = c.leftovers.toList ∧ (Step.moved j).Within fleet settings
  /-- A host that was confirmed is not named again. -/
  confirmed : ∀ earlier x later, exchanges c.trace = earlier ++ x :: later →
    ∀ h, Confirmed h earlier → ¬ h ∈ x.1.hosts

/-- The account of the first round, and the sweep of what it leaves, give the account of the pass. -/
theorem Course.attempts_of_tally {c : Course} {start : σ} {transfer : HostSet}
    (hplanning : exchanges c.planning = []) (hlocks : ∀ x ∈ exchanges c.locking, Locks transfer x.1)
    (hlocked : ∀ h, h ∈ c.locked ↔
      h ∈ transfer ∧ Verified fleet settings start transfer h (exchanges c.locking))
    (ht : Tally fleet settings c.locked waiting duts (exchanges c.firstRound))
    (hleftovers : c.leftovers = waiting ∪ duts.stuckAfterLock)
    (hmoved : Moved fleet settings c.leftovers moved j) (hsweep : exchanges c.sweep = j.exchanges) :
    c.Attempts fleet settings start transfer := by
  have hleft : ∀ h, h ∈ c.leftovers ↔ h ∈ c.locked ∧ ¬ Confirmed h (exchanges c.firstRound) :=
    fun h => hleftovers ▸ ht.mem_leftovers_iff
  have htrace : exchanges c.trace =
      exchanges c.locking ++ exchanges c.firstRound ++ exchanges c.sweep := by
    rw [Course.trace, exchanges_append, exchanges_append, exchanges_append, hplanning,
      List.nil_append]
  -- once in the first round, if it is not waited for any more, and once in the sweep
  have hcount : ∀ h, fetches h (exchanges c.trace) =
      fetches h (exchanges c.firstRound) + if h ∈ c.leftovers then 1 else 0 := by
    intro h
    rw [htrace, fetches_append, fetches_append, fetches_of_locks hlocks, hsweep,
      Journal.fetches_eq hmoved.attempted, Nat.zero_add]
  have hobeys : Obeys LeavesConfirmed [] (exchanges c.trace) := by
    have hround := ht.leavesConfirmed.prepend_unconfirmed (not_confirmed_of_locks hlocks)
    rw [List.append_nil] at hround
    rw [htrace, hsweep, obeys_append, obeys_append, List.nil_append, List.nil_append]
    refine ⟨⟨?_, hround⟩, hmoved.leavesConfirmed fun h hh hconfirmed => ?_⟩
    · exact .of_forall hlocks fun t call ht _ h _ => not_confirmed_of_locks ht h
    · rcases confirmed_append.mp hconfirmed with hin | hin
      · exact not_confirmed_of_locks hlocks h hin
      · exact ((hleft h).mp hh).2 hin
  refine ⟨hlocked, fun h hh => ?_, fun h hh => ?_, fun h => ?_, hleft, ht.steps,
    ⟨j, hsweep, hmoved.attempted, hmoved.described, hmoved.within⟩, ?_⟩
  · rw [hcount, ht.fetched]
    by_cases hwaiting : h ∈ waiting
    · have hin : h ∈ c.leftovers := (hleft h).mpr ⟨hh, ht.unconfirmed h hwaiting⟩
      rw [if_neg fun hboth => hboth.2 hwaiting, if_pos hin]
      exact .inl rfl
    · rw [if_pos ⟨hh, hwaiting⟩]
      split
      · exact .inr rfl
      · exact .inl rfl
  · rw [hcount, ht.fetched, if_neg fun hboth => hh hboth.1, if_neg fun hin => hh ((hleft h).mp hin).1]
  · rw [hcount, ht.fetched]
    by_cases hround : h ∈ c.locked ∧ ¬ h ∈ waiting
    · rw [if_pos hround, and_iff_right Nat.zero_lt_one]
      by_cases hin : h ∈ c.leftovers
      · rw [if_pos hin]
        exact ⟨fun _ => ((hleft h).mp hin).2, fun _ => rfl⟩
      · rw [if_neg hin]
        refine ⟨fun htwo => ?_, fun hnot => absurd ((hleft h).mpr ⟨hround.1, hnot⟩) hin⟩
        omega
    · rw [if_neg hround]
      constructor
      · intro htwo
        split at htwo
        · omega
        · omega
      · rintro ⟨hpos, -⟩
        exact absurd hpos (Nat.lt_irrefl 0)
  · intro earlier x later hsplit h hconfirmed hnamed
    rw [hsplit] at hobeys
    exact hobeys.rule_of_split h hnamed hconfirmed

section

variable {source : Planner} {group : HostSet} {previous : Option Summary} {s : σ}
variable {summary : Summary}

/-- In a pass that ends with a summary, on a fleet whose descriptors are of the host asked for, every
    host that was verified locked is relocated once or twice, and no other: twice when it was
    relocated before the sweep and the answers to the requests to rename it did not list it. The
    sweep is given just those that no answer listed so far, and once one lists a host no later call
    names it. -/
theorem attempts_each_host (hfleet : fleet.DescribesAsked)
    (hok : ((run source settings group previous : Run fleet Summary).run s).result = .ok summary) :
    ((run source settings group previous : Run fleet Summary).run s).trace =
      (course fleet source settings group previous s).trace ∧
    (course fleet source settings group previous s).Attempts fleet settings s
      summary.plan.transfer := by
  refine ⟨trace_eq_course, ?_⟩
  obtain ⟨checked, verified, s₁, waiting, duts, s₂, duts', s₃, rfl, hsecured, hlocked, hround,
    hleftovers, hswept⟩ := course_of_ok hok
  have hplanning : exchanges (course fleet source checked.toSettings group previous s).planning = [] :=
    exchanges_planning
  generalize course fleet source checked.toSettings group previous s = c at *
  -- each stage is one run, so what it yields holds of its part of the trace
  obtain ⟨hlocks, hverified⟩ := (obeys_secure_verified summary.plan.transfer s).of_ok
    (congrArg Outcome.result hsecured)
  have htally := (yields_firstRound_tally hfleet rfl s₁).of_ok (congrArg Outcome.result hround)
  have hmoved := (yields_sweep_moved hfleet s₂).of_ok (congrArg Outcome.result hswept)
  rw [hsecured] at hlocks hverified
  rw [hround] at htally
  rw [hswept] at hmoved
  obtain ⟨moved, j, hsweep, hmoved⟩ := hmoved
  rw [← hlocked] at hverified htally
  rw [← hleftovers] at hmoved
  exact Course.attempts_of_tally hplanning hlocks.forall hverified htally hleftovers hmoved hsweep

/-- The pass on the fleet that answers wrongly, stage by stage. -/
def unsteadyCourse : Course :=
  course unsteadyFleet (.fixed (.movingAll unsteadyHosts)) briefSettings unsteadyHosts none
    unsteadyStart

/-- The second relocation of `b` is the one in the sweep, after a first that was not confirmed. -/
theorem attempts_each_host_unsteady :
    unsteadyFleet.DescribesAsked ∧
    ((run (.fixed (.movingAll unsteadyHosts)) briefSettings unsteadyHosts none :
      Run unsteadyFleet Summary).run unsteadyStart).result = .ok unsteadySummary ∧
    fetches "b" (exchanges unsteadyCourse.trace) = 2 ∧
    0 < fetches "b" (exchanges unsteadyCourse.firstRound) ∧
    ¬ Confirmed "b" (exchanges unsteadyCourse.firstRound) ∧ "b" ∈ unsteadyCourse.leftovers := by
  have hok : ((run (.fixed (.movingAll unsteadyHosts)) briefSettings unsteadyHosts none :
      Run unsteadyFleet Summary).run unsteadyStart).result = .ok unsteadySummary := by
    decide +kernel
  have htwice : fetches "b" (exchanges unsteadyCourse.trace) = 2 := by
    decide +kernel
  have hlocked : "b" ∈ unsteadyCourse.locked := by
    decide +kernel
  have hattempts : unsteadyCourse.Attempts unsteadyFleet briefSettings unsteadyStart
      unsteadySummary.plan.transfer :=
    (attempts_each_host describesAsked_unsteady hok).2
  obtain ⟨hrelocated, hnot⟩ := (hattempts.twice_iff "b").mp htwice
  exact ⟨describesAsked_unsteady, hok, htwice, hrelocated, hnot,
    (hattempts.leftovers "b").mpr ⟨hlocked, hnot⟩⟩

end

end Pass

end Rehome
