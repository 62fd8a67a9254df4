import Rehome.Proofs.Fates
import Rehome.Proofs.Runs
import Rehome.Proofs.Stages

/-!
# Journals — what moving hosts asked, and what it was told

A trace is a flat list of events. Where it comes from moving hosts it has a shape: one attempt for
each host in order, which is its descriptor, its addition and its drone assignments, and then the
requests to rename the hosts that made it. A `Journal` is a trace in that shape.

The main law, `yields_move_within`, says that moving hosts keeps such a journal, that it stays within
the number of attempts that the settings allow (`Journal.Within`), and that the categories it ends
with are read off the journal: `Journal.Shows` is the reading for one host. The laws of the stages
before it have the same form, each with the part of the journal that the stage writes.
-/

namespace Rehome

/-! ## Exchanges -/

/-- A call with what came back from it. -/
abbrev Exchange : Type := (call : Call) × call.Reply

/-- The exchange of an event, if the event is a call. -/
def Event.exchange? : Event → Option Exchange
  | .called _ call reply => some ⟨call, reply⟩
  | _ => none

/-- The calls of a trace with what came back from them, in order. -/
def exchanges (trace : List Event) : List Exchange := trace.filterMap Event.exchange?

@[simp] theorem exchanges_nil : exchanges [] = [] := rfl

@[simp] theorem exchanges_planned (time : Nat) (hosts : HostSet) (ratio : Numeric.Binary64)
    (reply : Except PassError Plan) (trace : List Event) :
    exchanges (.planned time hosts ratio reply :: trace) = exchanges trace := rfl

@[simp] theorem exchanges_called (time : Nat) (call : Call) (reply : call.Reply)
    (trace : List Event) :
    exchanges (.called time call reply :: trace) = ⟨call, reply⟩ :: exchanges trace := rfl

@[simp] theorem exchanges_append (a b : List Event) :
    exchanges (a ++ b) = exchanges a ++ exchanges b :=
  List.filterMap_append

theorem Run.Paused.exchanges {σ : Type} {fleet : Fleet σ} {s s' : σ} {t : List Event}
    (h : Run.Paused fleet s t s') : Rehome.exchanges t = [] := by
  cases h with
  | not => rfl
  | slept span => rfl

/-! ## Journals -/

/-- What one relocation of a host asked, and the answers. -/
structure Attempt where
  host : Host
  descriptor : Descriptor
  added : Effect
  /-- The answers to the calls for a drone. -/
  assigned : List Effect

/-- The exchanges of one relocation. -/
def Attempt.exchanges (a : Attempt) : List Exchange :=
  ⟨.fetchDescriptor a.host, .ok a.descriptor⟩ :: ⟨.add a.descriptor, .ok a.added⟩ ::
    a.assigned.map fun effect => ⟨.assignDrone a.host, .ok effect⟩

/-- A request to rename hosts, and its answer. -/
structure Request where
  hosts : HostSet
  answer : List Host

/-- The exchange of a request. -/
def Request.exchange (r : Request) : Exchange := ⟨.rename r.hosts .moved, .ok r.answer⟩

/-- What moving hosts asked: for each of them once, and then to rename those that made it. -/
structure Journal where
  attempts : List Attempt
  requests : List Request

/-- The exchanges of a journal. -/
def Journal.exchanges (j : Journal) : List Exchange :=
  j.attempts.flatMap Attempt.exchanges ++ j.requests.map Request.exchange

/-- An attempt asked for a drone at most so many times, and with the descriptor that the fleet gave for
    its host. -/
structure Attempt.Within {σ : Type} (fleet : Fleet σ) (tries : Nat) (a : Attempt) : Prop where
  described : ∃ s s', fleet.reply (.fetchDescriptor a.host) s = (.ok a.descriptor, s')
  assigned_le : a.assigned.length ≤ tries

/-- A journal keeps to the number of attempts that settings allow. It asks to rename hosts that it
    attempted, and does not ask for a host again once an answer listed it. -/
structure Journal.Within {σ : Type} (fleet : Fleet σ) (settings : Settings) (j : Journal) : Prop where
  attempts : ∀ a ∈ j.attempts, a.Within fleet settings.assignRetry.maxAttempts
  requests_le : j.requests.length ≤ settings.renameRetry.maxAttempts
  requested : ∀ r ∈ j.requests, ∀ h ∈ r.hosts, ∃ a ∈ j.attempts, a.host = h
  dwindling : j.requests.Pairwise fun r later => ∀ h ∈ r.answer, ¬ h ∈ later.hosts

/-- Whether an attempt that may ask for a drone so many times ended like this. -/
def Attempt.Shows (tries : Nat) (a : Attempt) : Placement → Prop
  | .placed => a.added.isFailed = false ∧ ∃ effect ∈ a.assigned, effect.isFailed = false
  | .notAdded => a.added.isFailed = true ∧ a.assigned = []
  | .noDrone => a.added.isFailed = false ∧ a.assigned.length = tries ∧
      ∀ effect ∈ a.assigned, effect.isFailed = true

/-- Whether a journal tells that the host of an attempt met a fate. Nothing in it is about locks. -/
def Journal.Shows (tries : Nat) (j : Journal) (a : Attempt) : Fate → Prop
  | .migrated => a.Shows tries .placed ∧ ∃ r ∈ j.requests, a.host ∈ r.hosts ∧ a.host ∈ r.answer
  | .stuck .lock => False
  | .stuck .addToTarget => a.Shows tries .notAdded ∧ ∀ r ∈ j.requests, ¬ a.host ∈ r.hosts
  | .stuck .droneAssignment => a.Shows tries .noDrone ∧ ∀ r ∈ j.requests, ¬ a.host ∈ r.hosts
  | .stuck .rename => a.Shows tries .placed ∧ ∀ r ∈ j.requests, ¬ a.host ∈ r.answer

/-- The categories after locking put the host of an attempt where its journal shows it. -/
structure Journal.Agrees (tries : Nat) (j : Journal) (a : Attempt) (duts : Duts) : Prop where
  needsAddToTarget : a.host ∈ duts.needsAddToTarget ↔ a.added.isFailed = true
  needsDroneAssignment : a.host ∈ duts.needsDroneAssignment ↔ a.added.isFailed = false ∧
    a.assigned.length = tries ∧ ∀ effect ∈ a.assigned, effect.isFailed = true
  needsRename : a.host ∈ duts.needsRename ↔
    (∃ effect ∈ a.assigned, effect.isFailed = false) ∧ ∀ r ∈ j.requests, ¬ a.host ∈ r.answer
  migrated : a.host ∈ duts.migrated ↔ ∃ r ∈ j.requests, a.host ∈ r.hosts ∧ a.host ∈ r.answer

/-- A fate that a journal shows excludes what it shows of the other fates. -/
theorem Journal.Shows.agrees {tries : Nat} {j : Journal} {a : Attempt} {fate : Fate} {duts : Duts}
    (hshows : j.Shows tries a fate) (hreports : duts.Reports a.host (some fate)) :
    j.Agrees tries a duts := by
  have hadd : a.host ∈ duts.needsAddToTarget ↔ some fate = some (.stuck .addToTarget) :=
    hreports (.stuck .addToTarget)
  have hdrone : a.host ∈ duts.needsDroneAssignment ↔ some fate = some (.stuck .droneAssignment) :=
    hreports (.stuck .droneAssignment)
  have hrename : a.host ∈ duts.needsRename ↔ some fate = some (.stuck .rename) :=
    hreports (.stuck .rename)
  have hmigrated : a.host ∈ duts.migrated ↔ some fate = some .migrated := hreports .migrated
  cases fate with
  | migrated =>
      obtain ⟨⟨hadded, e, he, hok⟩, r, hr, hmem, hanswer⟩ := hshows
      refine ⟨by simp [hadd, hadded], ?_, ?_, by simpa [hmigrated] using ⟨r, hr, hmem, hanswer⟩⟩
      · rw [hdrone]
        refine ⟨fun h => (nomatch h), fun ⟨_, _, hall⟩ => ?_⟩
        exact absurd (hall e he) (by rw [hok]; decide)
      · rw [hrename]
        exact ⟨fun h => (nomatch h), fun ⟨_, hnone⟩ => absurd hanswer (hnone r hr)⟩
  | stuck stage =>
      cases stage with
      | lock => exact hshows.elim
      | addToTarget =>
          obtain ⟨⟨hadded, hnil⟩, hnone⟩ := hshows
          refine ⟨by simp [hadd, hadded], by simp [hdrone, hadded], by simp [hrename, hnil], ?_⟩
          rw [hmigrated]
          exact ⟨fun h => (nomatch h), fun ⟨r, hr, hmem, _⟩ => absurd hmem (hnone r hr)⟩
      | droneAssignment =>
          obtain ⟨⟨hadded, hlen, hall⟩, hnone⟩ := hshows
          refine ⟨by simp [hadd, hadded], by simpa [hdrone] using ⟨hadded, hlen, hall⟩, ?_, ?_⟩
          · rw [hrename]
            refine ⟨fun h => (nomatch h), fun ⟨⟨e, he, hok⟩, _⟩ => ?_⟩
            exact absurd (hall e he) (by rw [hok]; decide)
          · rw [hmigrated]
            exact ⟨fun h => (nomatch h), fun ⟨r, hr, hmem, _⟩ => absurd hmem (hnone r hr)⟩
      | rename =>
          obtain ⟨⟨hadded, e, he, hok⟩, hnone⟩ := hshows
          refine ⟨by simp [hadd, hadded], ?_, by simpa [hrename] using ⟨⟨e, he, hok⟩, hnone⟩, ?_⟩
          · rw [hdrone]
            refine ⟨fun h => (nomatch h), fun ⟨_, _, hall⟩ => ?_⟩
            exact absurd (hall e he) (by rw [hok]; decide)
          · rw [hmigrated]
            exact ⟨fun h => (nomatch h), fun ⟨r, hr, _, hanswer⟩ => absurd hanswer (hnone r hr)⟩

/-! ## Relocation -/

namespace Relocation

variable {σ : Type} {fleet : Fleet σ} {policy : RetryPolicy} {host : Host}

/-- Drones are asked for until one is given, at most as often as is left. -/
theorem yields_assign (left attempt : Nat) (s : σ) :
    (assign policy host left attempt : Run fleet Bool).yields (fun given t _ =>
      ∃ effects : List Effect,
        exchanges t = effects.map (fun effect => ⟨.assignDrone host, .ok effect⟩) ∧
        effects.length ≤ left ∧
        if given then ∃ effect ∈ effects, effect.isFailed = false
        else effects.length = left ∧ ∀ effect ∈ effects, effect.isFailed = true) s := by
  -- sleeps between attempts leave no exchange, so the answers are the whole trace
  induction left generalizing attempt s with
  | zero => exact ⟨[], rfl, Nat.le_refl 0, rfl, by simp⟩
  | succ left ih =>
    rw [assign_succ, Run.yields_bind, Run.yields_call]
    intro effect s₁ _
    by_cases hfailed : Effect.isFailed effect = true
    · rw [if_pos hfailed]
      refine Run.yields_pause fun pause s₂ hpause => (ih (attempt + 1) s₂).mono ?_
      rintro given t s₃ ⟨effects, hex, hle, hgiven⟩
      refine ⟨effect :: effects, by simp [hpause.exchanges, hex], Nat.succ_le_succ hle, ?_⟩
      cases given with
      | true =>
          obtain ⟨e, he, hok⟩ := hgiven
          exact ⟨e, List.mem_cons_of_mem _ he, hok⟩
      | false =>
          obtain ⟨hlen, hall⟩ := hgiven
          refine ⟨by rw [List.length_cons, hlen], fun e he => ?_⟩
          rcases List.mem_cons.mp he with rfl | he
          · exact hfailed
          · exact hall e he
    · rw [if_neg hfailed]
      exact ⟨[effect], rfl, Nat.succ_le_succ (Nat.zero_le left), effect, List.mem_singleton.mpr rfl,
        Bool.eq_false_iff.mpr hfailed⟩

theorem yields_place (s : σ) :
    (place policy host : Run fleet Placement).yields (fun placement t _ =>
      ∃ a : Attempt, a.host = host ∧ exchanges t = a.exchanges ∧
        a.Within fleet policy.maxAttempts ∧ a.Shows policy.maxAttempts placement) s := by
  rw [place, Run.yields_bind, Run.yields_call]
  intro descriptor s₁ hreply
  rw [Run.yields_bind, Run.yields_call]
  intro effect s₂ _
  by_cases hfailed : Effect.isFailed effect = true
  · rw [if_pos hfailed]
    exact ⟨⟨host, descriptor, effect, []⟩, rfl, rfl, ⟨⟨s, s₁, hreply⟩, Nat.zero_le _⟩, hfailed, rfl⟩
  · rw [if_neg hfailed, Run.yields_bind]
    refine (yields_assign policy.maxAttempts 1 s₂).mono ?_
    rintro given t s₃ ⟨effects, hex, hle, hgiven⟩
    have hadded : Effect.isFailed effect = false := Bool.eq_false_iff.mpr hfailed
    have hjournal : exchanges (Event.called (fleet.time s) (.fetchDescriptor host) (.ok descriptor) ::
        Event.called (fleet.time s₁) (.add descriptor) (.ok effect) :: t) =
        (⟨host, descriptor, effect, effects⟩ : Attempt).exchanges := by
      rw [exchanges_called, exchanges_called, hex]
      rfl
    cases given with
    | true =>
        refine ⟨⟨host, descriptor, effect, effects⟩, rfl, ?_, ⟨⟨s, s₁, hreply⟩, hle⟩, hadded, hgiven⟩
        simpa using hjournal
    | false =>
        refine ⟨⟨host, descriptor, effect, effects⟩, rfl, ?_, ⟨⟨s, s₁, hreply⟩, hle⟩, hadded, hgiven⟩
        simpa using hjournal

/-- The hosts of a relocation that ended like this. -/
def group (r : Relocation) : Placement → HostSet
  | .placed => r.succeeded
  | .notAdded => r.needsAddToTarget
  | .noDrone => r.needsDroneAssignment

theorem mem_group_note {h : Host} {r : Relocation} {placement p : Placement} :
    h ∈ (r.note host placement).group p ↔ h = host ∧ p = placement ∨ h ∈ r.group p := by
  cases placement <;> cases p <;> simp [note, group]

/-- Hosts are relocated one after the other, and each is in the group of how its attempt ended. -/
theorem yields_all {hosts : List Host} (hnodup : hosts.Nodup) (s : σ) :
    (all policy hosts : Run fleet Relocation).yields (fun r t _ =>
      ∃ attempts : List Attempt, attempts.map Attempt.host = hosts ∧
        exchanges t = attempts.flatMap Attempt.exchanges ∧
        (∀ a ∈ attempts, a.Within fleet policy.maxAttempts ∧
          ∃ placement, a.Shows policy.maxAttempts placement ∧
            ∀ p, a.host ∈ r.group p ↔ p = placement) ∧
        ∀ h p, h ∈ r.group p → h ∈ hosts) s := by
  induction hosts generalizing s with
  | nil =>
      refine ⟨[], rfl, rfl, by simp, fun h p hp => ?_⟩
      cases p <;> exact absurd hp (HostSet.notMem_empty h)
  | cons host hosts ih =>
      obtain ⟨hhost, hrest⟩ := List.nodup_cons.mp hnodup
      rw [all, Run.yields_bind]
      refine (yields_place s).mono ?_
      rintro placement t s₁ ⟨a, rfl, hex, hwithin, hshows⟩
      rw [Run.yields_bind]
      refine (ih hrest s₁).mono ?_
      rintro r t' s₂ ⟨attempts, hhosts, hex', hgroups, hin⟩
      refine ⟨a :: attempts, by rw [List.map_cons, hhosts], ?_, ?_, ?_⟩
      · simp [hex, hex']
      · intro b hb
        rcases List.mem_cons.mp hb with rfl | hb
        · -- no host comes twice, so the attempts after this one put it in no group
          refine ⟨hwithin, placement, hshows, fun p => ?_⟩
          rw [mem_group_note]
          constructor
          · rintro (⟨-, hp⟩ | hp)
            · exact hp
            · exact absurd (hin _ p hp) hhost
          · intro hp
            exact .inl ⟨rfl, hp⟩
        · obtain ⟨hwithin', placement', hshows', hgroup'⟩ := hgroups b hb
          have hne : b.host ≠ a.host := by
            intro heq
            exact hhost (heq ▸ hhosts ▸ List.mem_map_of_mem hb)
          refine ⟨hwithin', placement', hshows', fun p => ?_⟩
          rw [mem_group_note, hgroup' p]
          simp [hne]
      · intro h p hp
        rcases mem_group_note.mp hp with ⟨rfl, -⟩ | hp
        · exact List.mem_cons_self
        · exact List.mem_cons_of_mem _ (hin h p hp)

end Relocation

/-! ## Renaming -/

namespace Renaming

variable {σ : Type} {fleet : Fleet σ} {policy : RetryPolicy}

/-- A host remains just when no answer lists it, and the first answer that does is to a request
    for it. -/
theorem yields_attempts (left made : Nat) (remaining : HostSet) (s : σ) :
    (attempts policy left made remaining : Run fleet HostSet).yields (fun rest t _ =>
      ∃ requests : List Request, exchanges t = requests.map Request.exchange ∧
        requests.length ≤ left ∧ (∀ r ∈ requests, r.hosts ⊆ remaining) ∧
        (requests.Pairwise fun r later => ∀ h ∈ r.answer, ¬ h ∈ later.hosts) ∧
        (∀ h, h ∈ rest ↔ h ∈ remaining ∧ ∀ r ∈ requests, ¬ h ∈ r.answer) ∧
        ∀ h ∈ remaining, ¬ h ∈ rest → ∃ r ∈ requests, h ∈ r.hosts ∧ h ∈ r.answer) s := by
  induction left generalizing made remaining s with
  | zero => exact ⟨[], rfl, Nat.le_refl 0, by simp, .nil, by simp, fun h hh hn => absurd hh hn⟩
  | succ left ih =>
    rw [attempts_succ]
    by_cases hempty : remaining.isEmpty = true
    · rw [if_pos hempty]
      exact ⟨[], rfl, Nat.zero_le _, by simp, .nil, by simp, fun h hh hn => absurd hh hn⟩
    · rw [if_neg hempty]
      refine Run.yields_pause fun pause s₁ hpause => ?_
      rw [Run.yields_bind, Run.yields_call]
      intro answer s₂ _
      refine (ih (made + 1) (remaining \ .ofList answer) s₂).mono ?_
      rintro rest t s₃ ⟨requests, hex, hle, hsub, hdwindling, hrest, hfirst⟩
      refine ⟨⟨remaining, answer⟩ :: requests, ?_, Nat.succ_le_succ hle, ?_, ?_, ?_, ?_⟩
      · simp [hpause.exchanges, hex, Request.exchange]
      · intro r hr
        rcases List.mem_cons.mp hr with rfl | hr
        · exact fun h hh => hh
        · exact fun h hh => (HostSet.mem_sdiff.mp (hsub r hr h hh)).1
      · refine List.pairwise_cons.mpr ⟨fun r hr h hanswer hh => ?_, hdwindling⟩
        exact (HostSet.mem_sdiff.mp (hsub r hr h hh)).2 (HostSet.mem_ofList.mpr hanswer)
      · intro h
        rw [hrest h]
        simp [and_assoc]
      · intro h hh hn
        -- a host that this answer does not list is in the next request
        by_cases hanswer : h ∈ answer
        · exact ⟨⟨remaining, answer⟩, List.mem_cons_self, hh, hanswer⟩
        · obtain ⟨r, hr, hmem⟩ := hfirst h (HostSet.mem_sdiff.mpr ⟨hh, by simpa using hanswer⟩) hn
          exact ⟨r, List.mem_cons_of_mem _ hr, hmem⟩

end Renaming

/-! ## Moving hosts -/

/-- Where a host ends up whose relocation ended like this and that is then renamed, or is not. -/
def Placement.fate (renamed : Bool) : Placement → Fate
  | .placed => if renamed then .migrated else .stuck .rename
  | .notAdded => .stuck .addToTarget
  | .noDrone => .stuck .droneAssignment

namespace Relocation

variable {h : Host} {r : Relocation} {rest : HostSet} {placement : Placement} {renamed : Bool}

theorem reports_duts (hgroup : ∀ p, h ∈ r.group p ↔ p = placement)
    (hrest : h ∈ rest ↔ placement = .placed ∧ renamed = false) :
    (r.duts rest).Reports h (some (placement.fate renamed)) := by
  have hplaced : h ∈ r.succeeded ↔ Placement.placed = placement := hgroup .placed
  have hnotAdded : h ∈ r.needsAddToTarget ↔ Placement.notAdded = placement := hgroup .notAdded
  have hnoDrone : h ∈ r.needsDroneAssignment ↔ Placement.noDrone = placement := hgroup .noDrone
  intro f
  cases f with
  | migrated =>
      show h ∈ r.succeeded \ rest ↔ _
      rw [HostSet.mem_sdiff, hplaced, hrest]
      cases placement <;> cases renamed <;> simp [Placement.fate]
  | stuck stage =>
      cases stage with
      | lock =>
          refine ⟨fun hin => absurd hin (HostSet.notMem_empty h), fun heq => ?_⟩
          cases placement <;> cases renamed <;> exact nomatch heq
      | addToTarget =>
          show h ∈ r.needsAddToTarget ↔ _
          rw [hnotAdded]
          cases placement <;> cases renamed <;> simp [Placement.fate]
      | droneAssignment =>
          show h ∈ r.needsDroneAssignment ↔ _
          rw [hnoDrone]
          cases placement <;> cases renamed <;> simp [Placement.fate]
      | rename =>
          show h ∈ rest ↔ _
          rw [hrest]
          cases placement <;> cases renamed <;> simp [Placement.fate]

theorem reports_duts_none (hgroup : ∀ p, ¬ h ∈ r.group p) (hrest : ¬ h ∈ rest) :
    (r.duts rest).Reports h none := by
  have hplaced : ¬ h ∈ r.succeeded := hgroup .placed
  have hnotAdded : ¬ h ∈ r.needsAddToTarget := hgroup .notAdded
  have hnoDrone : ¬ h ∈ r.needsDroneAssignment := hgroup .noDrone
  intro f
  cases f with
  | migrated => simp [duts, Duts.category, hplaced]
  | stuck stage => cases stage <;> simp [duts, Duts.category, Duts.stuckAt, hrest, hnotAdded, hnoDrone]

end Relocation

namespace Pass

variable {σ : Type} {fleet : Fleet σ} {settings : CheckedSettings}

/-- Moving hosts keeps a journal of them within the settings, and reports of each what the journal
    shows. -/
theorem yields_move_within (hosts : HostSet) (s : σ) :
    (move settings hosts : Run fleet Duts).yields (fun duts t _ =>
      ∃ j : Journal, exchanges t = j.exchanges ∧ j.attempts.map Attempt.host = hosts.toList ∧
        j.Within fleet settings.toSettings ∧
        (∀ a ∈ j.attempts, ∃ fate, j.Shows settings.assignRetry.maxAttempts a fate ∧
          duts.Reports a.host (some fate)) ∧
        ∀ h, ¬ h ∈ hosts → duts.Reports h none) s := by
  by_cases hempty : hosts = ∅
  · rw [hempty, move_empty]
    refine ⟨⟨[], []⟩, rfl, rfl, ⟨by simp, Nat.zero_le _, by simp, .nil⟩, by simp, fun h _ => ?_⟩
    exact Duts.reports_empty h
  · rw [move_of_ne hempty, Run.yields_bind]
    refine (Relocation.yields_all hosts.nodup_toList s).mono ?_
    rintro r t s₁ ⟨attempts, hhosts, hex, hgroups, hin⟩
    rw [Run.yields_bind]
    refine (Renaming.yields_attempts _ 0 r.succeeded s₁).mono ?_
    rintro rest t' s₂ ⟨requests, hex', hle, hsub, hdwindling, hrest, hfirst⟩
    have hplaced : ∀ h, h ∈ rest → h ∈ r.group .placed := fun h hh => ((hrest h).mp hh).1
    refine ⟨⟨attempts, requests⟩, by simp [hex, hex', Journal.exchanges], hhosts,
      ⟨fun a ha => (hgroups a ha).1, hle, ?_, hdwindling⟩, ?_, ?_⟩
    · intro q hq h hh
      have hmem : h ∈ attempts.map Attempt.host := hhosts ▸ hin h .placed (hsub q hq h hh)
      exact List.mem_map.mp hmem
    · intro a ha
      obtain ⟨-, placement, hshows, hgroup⟩ := hgroups a ha
      refine ⟨placement.fate (decide ¬ a.host ∈ rest), ?_, Relocation.reports_duts hgroup ?_⟩
      · -- requests are for hosts that have a drone
        have hout : Placement.placed ≠ placement → ∀ q ∈ requests, ¬ a.host ∈ q.hosts :=
          fun hne q hq hh => hne ((hgroup .placed).mp (hsub q hq _ hh))
        cases placement with
        | placed =>
            by_cases hremains : a.host ∈ rest
            · rw [decide_eq_false (not_not.mpr hremains)]
              exact ⟨hshows, ((hrest _).mp hremains).2⟩
            · rw [decide_eq_true hremains]
              exact ⟨hshows, hfirst _ ((hgroup .placed).mpr rfl) hremains⟩
        | notAdded => exact ⟨hshows, hout (by decide)⟩
        | noDrone => exact ⟨hshows, hout (by decide)⟩
      · constructor
        · intro hremains
          exact ⟨((hgroup .placed).mp (hplaced _ hremains)).symm, by simp [hremains]⟩
        · rintro ⟨-, hremains⟩
          simpa using hremains
    · intro h hh
      have hout : ∀ p, ¬ h ∈ r.group p := fun p hp => hh (hin h p hp)
      exact Relocation.reports_duts_none hout fun hremains => hout .placed (hplaced h hremains)

/-- Moving hosts keeps a journal of them, and reports of each what the journal shows. -/
theorem yields_move (hosts : HostSet) (s : σ) :
    (move settings hosts : Run fleet Duts).yields (fun duts t _ =>
      ∃ j : Journal, exchanges t = j.exchanges ∧ j.attempts.map Attempt.host = hosts.toList ∧
        (∀ a ∈ j.attempts, ∃ fate, j.Shows settings.assignRetry.maxAttempts a fate ∧
          duts.Reports a.host (some fate)) ∧
        ∀ h, ¬ h ∈ hosts → duts.Reports h none) s := by
  refine (yields_move_within hosts s).mono ?_
  rintro duts t s' ⟨j, hex, hhosts, -, htold, hrest⟩
  exact ⟨j, hex, hhosts, htold, hrest⟩

end Pass

end Rehome
