import Rehome.Proofs.MemoryState

/-!
# Passes over a fleet in memory — the outcome in one line

On a fleet in memory everything a pass does is foreseeable, whatever its settings: each host ends up
as its flags say (`Memory.outcome`), and whether it was moved when it became idle, at the end or
twice makes no difference. The main law is `run_on_memory`. It covers the other case as well: a pass
ends with an error just when a host that is to be moved gives no descriptor.

The laws of the stages say from which states of the fleet they lead to which, in terms of
`Memory.Reached`.
-/

namespace Rehome

open Memory (Reached Eligible raise reached_lock movable_subset mem_movable_iff)

/-- A pass was cut short by a host that gives no descriptor, in a state that a pass can reach. -/
def Memory.Stranded (start : Memory) (transfer : HostSet) (e : PassError) (m : Memory) : Prop :=
  ∃ n ∈ start.movable transfer, ∃ h tried, start.host? n = some h ∧ h.descriptorFails = true ∧
    e = .tool (Memory.reply.noDescriptor n) ∧ Reached start transfer tried m

variable {start m : Memory} {transfer hosts : HostSet} {n : Host} {h : MemoryHost}
variable {tried : Host → Nat} {crash : PassError → Memory → Prop}

theorem Memory.Reached.paused {m' : Memory} {t : List Event} (hr : Reached start transfer tried m)
    (hpause : Run.Paused Memory.fleet m t m') : Reached start transfer tried m' := by
  cases hpause with
  | not => exact hr
  | slept span => exact hr.sleep span

/-! ## Locking -/

namespace Locking

variable {policy : RetryPolicy} {reason : String}

theorem ends_look (hr : Reached start transfer tried m) (hsub : hosts ⊆ transfer) :
    (look hosts : Run Memory.fleet HostSet).ends (fun seen m' =>
      (∀ n, n ∈ seen ↔ n ∈ hosts ∧ n ∈ start.movable transfer) ∧ Reached start transfer tried m')
      crash m := by
  rw [look]
  refine Run.ends_bind (Run.ends_call rfl ?_)
  exact Run.ends_pure ⟨fun n => hr.mem_lockedAmong hsub, hr.query hsub⟩

/-- Further attempts to lock change nothing that matters. -/
theorem ends_attempts (left made : Nat) (remaining locked : HostSet) (hsub : remaining ⊆ transfer)
    (hr : Reached start transfer tried m) :
    (attempts policy reason left made remaining locked : Run Memory.fleet StepResult).ends
      (fun _ m' => Reached start transfer tried m') crash m := by
  induction left generalizing made remaining locked m with
  | zero => exact Run.ends_pure hr
  | succ left ih =>
      rw [attempts_succ]
      by_cases hempty : remaining.isEmpty = true
      · rw [if_pos hempty]
        exact Run.ends_pure hr
      · rw [if_neg hempty]
        refine Run.ends_pause fun t m₁ hpause => ?_
        refine Run.ends_bind (Run.ends_call rfl ?_)
        refine Run.ends_bind ((ends_look ((hr.paused hpause).lock hsub reason) hsub).mono ?_)
        rintro seen m₂ ⟨-, hr₂⟩
        exact ih (made + 1) _ _ (fun h hh => hsub h (HostSet.mem_sdiff.mp hh).1) hr₂

/-- The first attempt asks for the whole group. -/
theorem ends_run (hblank : Text.isBlankText reason = false) (hpolicy : 0 < policy.maxAttempts)
    (hne : transfer ≠ ∅) (start : Memory) :
    (run policy transfer reason : Run Memory.fleet StepResult).ends
      (fun _ m' => Reached start transfer (fun _ => 0) m') crash start := by
  obtain ⟨left, hleft⟩ : ∃ left, policy.maxAttempts = left + 1 :=
    ⟨_, (Nat.sub_add_cancel hpolicy).symm⟩
  have hempty : ¬ transfer.isEmpty = true := fun he => hne (HostSet.isEmpty_iff.mp he)
  rw [run_of_reason hblank, hleft, attempts_succ, if_neg hempty, if_neg (not_not.mpr rfl)]
  refine Run.ends_bind (Run.ends_call rfl ?_)
  refine Run.ends_bind ((ends_look (reached_lock start transfer reason) fun h hh => hh).mono ?_)
  rintro seen m₁ ⟨-, hr⟩
  exact ends_attempts left 1 _ _ (fun h hh => (HostSet.mem_sdiff.mp hh).1) hr

end Locking

/-! ## Relocation -/

namespace Relocation

variable {policy : RetryPolicy}

theorem raise_raise {i j : Nat} (hij : i ≤ j) : raise (raise tried n i) n j = raise tried n j := by
  funext k
  by_cases hk : k = n
  · rw [raise, raise, raise, if_pos hk, if_pos hk, if_pos hk]
    omega
  · rw [raise, raise, raise, if_neg hk, if_neg hk, if_neg hk]

/-- A host is given a drone by the first call for one, or by none. -/
theorem ends_assign {left : Nat} (attempt : Nat) (heligible : Eligible start transfer n)
    (hh : start.host? n = some h) (hadd : h.addFails = false)
    (hleft : h.assignFails = true ∨ 0 < left) (htried : 1 ≤ tried n)
    (hr : Reached start transfer tried m) :
    (assign policy n left attempt : Run Memory.fleet Bool).ends (fun given m' =>
      given = !h.assignFails ∧ Reached start transfer (raise tried n 2) m') crash m := by
  have hknown : ∀ k, start.host? n = some k → k = h := fun k hk => Option.some.inj (hk.symm.trans hh)
  induction left generalizing attempt tried m with
  | zero =>
      have hassign : h.assignFails = true := hleft.resolve_right (Nat.lt_irrefl 0)
      -- on a host that never gets a drone, having tried the stage does not show
      refine Run.ends_pure ⟨by rw [hassign]; rfl, hr.congr (fun k found hk => ?_) fun k hk => ?_⟩
      · by_cases hkn : k = n
        · subst hkn
          rw [hknown found hk]
          exact MemoryHost.after_of_assignFails hassign htried (by simp [raise])
        · rw [raise, if_neg hkn]
      · by_cases hkn : k = n
        · exact hkn ▸ heligible
        · exact hr.eligible k (by rwa [raise, if_neg hkn] at hk)
  | succ left ih =>
      have hin : n ∈ transfer := movable_subset n heligible.1
      have hr' := hr.assign heligible (fun k hk => hknown k hk ▸ hadd) htried
      rw [assign_succ]
      refine Run.ends_bind (Run.ends_call rfl ?_)
      show Run.ends (if (Memory.assignEffect (m.host? n)).isFailed = true then _ else _) _ _ _
      rw [hr.isFailed_assign hin hh hadd htried]
      by_cases hassign : h.assignFails = true
      · rw [if_pos hassign]
        refine Run.ends_pause fun t m₁ hpause => ?_
        refine (ih (attempt + 1) (.inl hassign) (by simp [raise]) (hr'.paused hpause)).mono ?_
        rintro given m₂ ⟨hgiven, hr₂⟩
        rw [raise_raise (Nat.le_refl 2)] at hr₂
        exact ⟨hgiven, hr₂⟩
      · rw [if_neg hassign]
        exact Run.ends_pure ⟨by simp [hassign], hr'⟩

theorem ends_place (hpolicy : 0 < policy.maxAttempts) (hmovable : n ∈ start.movable transfer)
    (hr : Reached start transfer tried m) :
    (place policy n : Run Memory.fleet Placement).ends (fun placement m' =>
      (∃ h, start.host? n = some h ∧ h.placement = placement) ∧
      Reached start transfer (raise tried n 2) m') (start.Stranded transfer) m := by
  obtain ⟨hin, h, hh, -⟩ := mem_movable_iff.mp hmovable
  have hknown : ∀ k, start.host? n = some k → k = h := fun k hk => Option.some.inj (hk.symm.trans hh)
  have hreply := hr.reply_fetchDescriptor hin hh
  rw [place]
  by_cases hdescriptor : h.descriptorFails = true
  · rw [if_pos hdescriptor] at hreply
    refine Run.ends_bind (Run.ends_call_error hreply ?_)
    exact ⟨n, hmovable, h, tried, hh, hdescriptor, rfl, hr⟩
  · rw [if_neg hdescriptor] at hreply
    have heligible : Eligible start transfer n :=
      ⟨hmovable, fun k hk => hknown k hk ▸ Bool.eq_false_iff.mpr hdescriptor⟩
    have hadded : Reached start transfer (raise tried n 1)
        (Memory.reply (.add (Memory.descriptor n)) m).2 := hr.add heligible rfl
    refine Run.ends_bind (Run.ends_call hreply (Run.ends_bind (Run.ends_call rfl ?_)))
    show Run.ends (if (Memory.addEffect (m.host? n)).isFailed = true then _ else _) _ _ _
    rw [hr.isFailed_add hin hh]
    by_cases hadd : h.addFails = true
    · rw [if_pos hadd]
      refine Run.ends_pure ⟨⟨h, hh, by simp [MemoryHost.placement, hadd]⟩, ?_⟩
      refine hadded.congr (fun k found hk => ?_) fun k hk => ?_
      · by_cases hkn : k = n
        · subst hkn
          rw [hknown found hk]
          exact MemoryHost.after_of_addFails hadd _ _
        · rw [raise, raise, if_neg hkn, if_neg hkn]
      · by_cases hkn : k = n
        · exact hkn ▸ heligible
        · exact hr.eligible k (by rwa [raise, if_neg hkn] at hk)
    · rw [if_neg hadd]
      refine Run.ends_bind ((ends_assign 1 heligible hh (Bool.eq_false_iff.mpr hadd) (.inr hpolicy)
        (by simp [raise]) hadded).mono ?_)
      rintro given m₂ ⟨rfl, hr₂⟩
      rw [raise_raise (Nat.le_succ 1)] at hr₂
      by_cases hassign : h.assignFails = true
      · rw [hassign]
        exact Run.ends_pure ⟨⟨h, hh, by simp [MemoryHost.placement, hadd, hassign]⟩, hr₂⟩
      · rw [Bool.eq_false_iff.mpr hassign]
        exact Run.ends_pure ⟨⟨h, hh, by simp [MemoryHost.placement, hadd, hassign]⟩, hr₂⟩

theorem ends_all (hpolicy : 0 < policy.maxAttempts) {names : List Host}
    (hmovable : ∀ n ∈ names, n ∈ start.movable transfer) (hr : Reached start transfer tried m) :
    (all policy names : Run Memory.fleet Relocation).ends (fun r m' =>
      (∀ n p, n ∈ r.group p ↔ n ∈ names ∧ ∃ h, start.host? n = some h ∧ h.placement = p) ∧
      Reached start transfer (fun n => if n ∈ names then max (tried n) 2 else tried n) m')
      (start.Stranded transfer) m := by
  induction names generalizing tried m with
  | nil =>
      refine Run.ends_pure ⟨fun n p => ⟨fun hn => ?_, fun hn => nomatch hn.1⟩, by simpa using hr⟩
      cases p <;> exact absurd hn (HostSet.notMem_empty n)
  | cons name names ih =>
      rw [all]
      refine Run.ends_bind ((ends_place hpolicy (hmovable name List.mem_cons_self) hr).mono ?_)
      rintro placement m₁ ⟨⟨h, hh, hplacement⟩, hr₁⟩
      refine Run.ends_bind ((ih (fun n hn => hmovable n (List.mem_cons_of_mem _ hn)) hr₁).mono ?_)
      rintro r m₂ ⟨hgroup, hr₂⟩
      refine Run.ends_pure ⟨fun n p => ?_, ?_⟩
      · rw [mem_group_note, hgroup]
        constructor
        · rintro (⟨rfl, rfl⟩ | ⟨hn, hfound⟩)
          · exact ⟨List.mem_cons_self, h, hh, hplacement⟩
          · exact ⟨List.mem_cons_of_mem _ hn, hfound⟩
        · rintro ⟨hn, found, hfound, hp⟩
          rcases List.mem_cons.mp hn with rfl | hn
          · cases hfound.symm.trans hh
            exact .inl ⟨rfl, hp.symm.trans hplacement⟩
          · exact .inr ⟨hn, found, hfound, hp⟩
      · have hsame : (fun n => if n ∈ names then max (raise tried name 2 n) 2 else
            raise tried name 2 n) =
            fun n => if n ∈ name :: names then max (tried n) 2 else tried n := by
          funext n
          by_cases hname : n = name
          · simp [raise, hname]
          · simp [raise, hname]
        exact hsame ▸ hr₂

end Relocation

/-! ## Renaming -/

namespace Renaming

variable {policy : RetryPolicy}

/-- Asking again for hosts that are never renamed changes nothing. -/
theorem ends_attempts_again (left made : Nat) {remaining : HostSet}
    (hfails : ∀ n ∈ remaining, Eligible start transfer n ∧ 3 ≤ tried n ∧
      ∃ h, start.host? n = some h ∧ h.placement = .placed ∧ h.renameFails = true)
    (hr : Reached start transfer tried m) :
    (attempts policy left made remaining : Run Memory.fleet HostSet).ends
      (fun rest m' => rest = remaining ∧ Reached start transfer tried m') crash m := by
  induction left generalizing made m with
  | zero => exact Run.ends_pure ⟨rfl, hr⟩
  | succ left ih =>
      rw [attempts_succ]
      by_cases hempty : remaining.isEmpty = true
      · rw [if_pos hempty]
        exact Run.ends_pure ⟨rfl, hr⟩
      · rw [if_neg hempty]
        refine Run.ends_pause fun t m₁ hpause => Run.ends_bind (Run.ends_call rfl ?_)
        have hr₁ := hr.paused hpause
        -- no answer lists any of them, so the same hosts are asked for each time
        have hanswer : remaining \ .ofList (m₁.those remaining fun h => !h.renameFails) =
            remaining := by
          ext n
          rw [HostSet.mem_sdiff, HostSet.mem_ofList]
          refine ⟨fun hn => hn.1, fun hn => ⟨hn, fun hlisted => ?_⟩⟩
          obtain ⟨heligible, -, h, hh, -, hrename⟩ := hfails n hn
          have := (hr₁.mem_those_rename (movable_subset n heligible.1) hh).mp hlisted
          exact absurd this.2 (by rw [hrename]; decide)
        have hsame : (fun n => if n ∈ remaining then max (tried n) 3 else tried n) = tried := by
          funext n
          by_cases hn : n ∈ remaining
          · rw [if_pos hn]
            exact Nat.max_eq_left (hfails n hn).2.1
          · rw [if_neg hn]
        have hr₂ := hr₁.rename fun n hn => by
          obtain ⟨heligible, htried, h, hh, hplacement, -⟩ := hfails n hn
          exact ⟨heligible, by omega, fun k hk => by cases hk.symm.trans hh; exact hplacement⟩
        rw [hsame] at hr₂
        show Run.ends (attempts policy left (made + 1)
          (remaining \ .ofList (m₁.those remaining fun h => !h.renameFails))) _ _ _
        rw [hanswer]
        exact ih (made + 1) hr₂

/-- The first request settles who is renamed. -/
theorem ends_attempts (hpolicy : 0 < policy.maxAttempts)
    (hplaced : ∀ n ∈ hosts, Eligible start transfer n ∧ 2 ≤ tried n ∧
      ∃ h, start.host? n = some h ∧ h.placement = .placed)
    (hr : Reached start transfer tried m) :
    (attempts policy policy.maxAttempts 0 hosts : Run Memory.fleet HostSet).ends (fun rest m' =>
      (∀ n, n ∈ rest ↔ n ∈ hosts ∧ ∃ h, start.host? n = some h ∧ h.renameFails = true) ∧
      Reached start transfer (fun n => if n ∈ hosts then max (tried n) 3 else tried n) m')
      crash m := by
  obtain ⟨left, hleft⟩ : ∃ left, policy.maxAttempts = left + 1 :=
    ⟨_, (Nat.sub_add_cancel hpolicy).symm⟩
  rw [hleft, attempts_succ]
  by_cases hempty : hosts.isEmpty = true
  · rw [if_pos hempty, HostSet.isEmpty_iff.mp hempty]
    exact Run.ends_pure ⟨by simp, by simpa using hr⟩
  · rw [if_neg hempty, if_neg (not_not.mpr rfl)]
    refine Run.ends_bind (Run.ends_call rfl ?_)
    have hr₁ := hr.rename fun n hn => by
      obtain ⟨heligible, htried, h, hh, hplacement⟩ := hplaced n hn
      exact ⟨heligible, htried, fun k hk => by cases hk.symm.trans hh; exact hplacement⟩
    have hrest : ∀ n, n ∈ hosts \ .ofList (m.those hosts fun h => !h.renameFails) ↔
        n ∈ hosts ∧ ∃ h, start.host? n = some h ∧ h.renameFails = true := by
      intro n
      rw [HostSet.mem_sdiff, HostSet.mem_ofList]
      refine and_congr_right fun hn => ?_
      obtain ⟨heligible, -, h, hh, -⟩ := hplaced n hn
      rw [hr.mem_those_rename (movable_subset n heligible.1) hh]
      constructor
      · intro hlisted
        exact ⟨h, hh, by simpa [hn] using hlisted⟩
      · rintro ⟨k, hk, hrename⟩ ⟨-, hno⟩
        cases hk.symm.trans hh
        exact absurd hno (by rw [hrename]; decide)
    refine (ends_attempts_again left 1 (fun n hn => ?_) hr₁).mono ?_
    · obtain ⟨hn, h, hh, hrename⟩ := (hrest n).mp hn
      obtain ⟨heligible, -, k, hk, hplacement⟩ := hplaced n hn
      cases hk.symm.trans hh
      exact ⟨heligible, by simp [hn], h, hh, hplacement, hrename⟩
    · rintro rest m₂ ⟨rfl, hr₂⟩
      exact ⟨hrest, hr₂⟩

end Renaming

/-! ## Moving hosts -/

/-- Where a host ends up in a pass over a transfer group, if it is in the group. -/
def Memory.fateOf (start : Memory) (transfer : HostSet) (n : Host) : Option Fate :=
  if n ∈ start.movable transfer then (start.host? n).map (·.fate)
  else if n ∈ transfer then some (.stuck .lock)
  else none

namespace Pass

variable {settings : CheckedSettings}

theorem ends_move (hsub : hosts ⊆ start.movable transfer) (hr : Reached start transfer tried m) :
    (move settings hosts : Run Memory.fleet Duts).ends (fun duts m' =>
      (∀ n, duts.Reports n (if n ∈ hosts then start.fateOf transfer n else none)) ∧
      Reached start transfer (fun n => if n ∈ hosts then max (tried n) 3 else tried n) m')
      (start.Stranded transfer) m := by
  obtain ⟨-, -, hassign, hrename⟩ := settings.tries_everything
  by_cases hempty : hosts = ∅
  · rw [hempty, move_empty]
    exact Run.ends_pure ⟨by simpa using Duts.reports_empty, by simpa using hr⟩
  · rw [move_of_ne hempty]
    refine Run.ends_bind ((Relocation.ends_all hassign (fun n hn => hsub n hn) hr).mono ?_)
    rintro r m₁ ⟨hgroup, hr₁⟩
    have hplaced : ∀ n ∈ r.succeeded, Eligible start transfer n ∧
        2 ≤ (if n ∈ hosts.toList then max (tried n) 2 else tried n) ∧
        ∃ h, start.host? n = some h ∧ h.placement = .placed := by
      intro n hn
      obtain ⟨hin, hh⟩ := (hgroup n .placed).mp hn
      have htwo : 2 ≤ (if n ∈ hosts.toList then max (tried n) 2 else tried n) := by
        rw [if_pos hin]
        exact Nat.le_max_right _ _
      exact ⟨hr₁.eligible n (Nat.lt_of_lt_of_le Nat.zero_lt_two htwo), htwo, hh⟩
    refine Run.ends_bind ((Renaming.ends_attempts hrename hplaced hr₁).mono ?_)
    rintro rest m₂ ⟨hrest, hr₂⟩
    refine Run.ends_pure ⟨fun n => ?_, hr₂.congr (fun n h hh => ?_) fun n hn => ?_⟩
    · by_cases hn : n ∈ hosts
      · obtain ⟨-, h, hh, -⟩ := mem_movable_iff.mp (hsub n hn)
        rw [if_pos hn, Memory.fateOf, if_pos (hsub n hn), hh]
        have hplacement : ∀ p, n ∈ r.group p ↔ p = h.placement := by
          intro p
          rw [hgroup, hh]
          simp [hn, eq_comm]
        rw [Option.map_some, MemoryHost.fate_eq]
        refine Relocation.reports_duts hplacement ?_
        rw [hrest, hh]
        show n ∈ r.group .placed ∧ _ ↔ _
        rw [hplacement, eq_comm]
        simp
      · rw [if_neg hn]
        have hout : ∀ p, ¬ n ∈ r.group p := fun p hp => hn ((hgroup n p).mp hp).1
        exact Relocation.reports_duts_none hout fun hin => hout .placed ((hrest n).mp hin).1
    · by_cases hn : n ∈ hosts
      · have hin : n ∈ hosts.toList := hn
        rw [if_pos hn, if_pos hin]
        by_cases hsucceeded : n ∈ r.succeeded
        · rw [if_pos hsucceeded]
          simp
        · -- it was not asked to be renamed, but being asked would change nothing on it
          rw [if_neg hsucceeded]
          have hplacement : h.placement ≠ .placed :=
            fun hp => hsucceeded ((hgroup n .placed).mpr ⟨hn, h, hh, hp⟩)
          exact MemoryHost.after_of_not_placed hplacement (by omega) (by omega)
      · have hsucceeded : ¬ n ∈ r.succeeded := fun hin => hn ((hgroup n .placed).mp hin).1
        have hin : ¬ n ∈ hosts.toList := hn
        rw [if_neg hn, if_neg hsucceeded, if_neg hin]
    · by_cases hin : n ∈ hosts
      · refine hr₁.eligible n ?_
        rw [if_pos (show n ∈ hosts.toList from hin)]
        omega
      · rw [if_neg hin] at hn
        exact hr.eligible n hn

/-! ## Waiting and sweeping -/

/-- Between two moves of a pass: no stage was tried on the hosts that are waited for, all stages
    were on the others that can be moved, and it is reported where those and the hosts that cannot
    be moved ended up. -/
structure Settling (start : Memory) (transfer waiting : HostSet) (duts : Duts) (m : Memory) :
    Prop where
  waits : waiting ⊆ start.movable transfer
  reached : Reached start transfer
    (fun n => if n ∈ start.movable transfer ∧ ¬ n ∈ waiting then 3 else 0) m
  reports : ∀ n, duts.Reports n (if n ∈ waiting then none else start.fateOf transfer n)

variable {waiting ready : HostSet} {duts : Duts}

/-- Moving hosts that are waited for settles them. -/
theorem ends_move_ready (hs : Settling start transfer waiting duts m) (hsub : ready ⊆ waiting) :
    (move settings ready : Run Memory.fleet Duts).ends (fun moved m' =>
      Settling start transfer (waiting \ ready) (duts.merge moved) m') (start.Stranded transfer) m := by
  refine (ends_move (fun n hn => hs.waits n (hsub n hn)) hs.reached).mono ?_
  rintro moved m₁ ⟨hmoved, hr⟩
  refine ⟨fun n hn => hs.waits n (HostSet.mem_sdiff.mp hn).1, ?_, fun n => ?_⟩
  · have hsame : (fun n => if n ∈ ready then
        max (if n ∈ start.movable transfer ∧ ¬ n ∈ waiting then 3 else 0) 3 else
        if n ∈ start.movable transfer ∧ ¬ n ∈ waiting then 3 else 0) =
        fun n => if n ∈ start.movable transfer ∧ ¬ n ∈ waiting \ ready then 3 else 0 := by
      funext n
      by_cases hn : n ∈ ready
      · have hv : n ∈ start.movable transfer := hs.waits n (hsub n hn)
        simp [hn, hv, hsub n hn]
      · simp [hn]
    exact hsame ▸ hr
  · -- of each host at most one of the two reports says something
    have hbefore := hs.reports n
    have hafter := hmoved n
    by_cases hn : n ∈ ready
    · rw [if_pos (hsub n hn)] at hbefore
      rw [if_pos hn] at hafter
      rw [if_neg fun hin => (HostSet.mem_sdiff.mp hin).2 hn]
      exact hbefore.merge_right hafter
    · rw [if_neg hn] at hafter
      have hstays : (if n ∈ waiting \ ready then none else start.fateOf transfer n) =
          if n ∈ waiting then none else start.fateOf transfer n := by
        simp [hn]
      rw [hstays]
      exact hbefore.merge_left hafter

theorem ends_poll {w : Waiting} (hs : Settling start transfer w.monitor.watched w.duts m) :
    (poll settings w : Run Memory.fleet Waiting).ends (fun w' m' =>
      Settling start transfer w'.monitor.watched w'.duts m') (start.Stranded transfer) m := by
  rw [poll]
  refine Run.ends_bind (Run.ends_call rfl ?_)
  have hasked : Settling start transfer w.monitor.watched w.duts
      (Memory.reply (.queryStatus w.monitor.watched) m).2 :=
    ⟨hs.waits, hs.reached.query fun n hn => movable_subset n (hs.waits n hn), hs.reports⟩
  -- which hosts become ready depends on their scripts, but where they end up does not
  generalize w.monitor.watched.toList.filterMap m.status? = rows
  have hready : (w.monitor.poll rows).1.ready ⊆ w.monitor.watched :=
    fun n hn => Readiness.mem_watched_of_mem_ready hn
  refine Run.ends_bind ((ends_move_ready hasked hready).mono ?_)
  intro moved m₁ hmoved
  have hwatched : (w.monitor.poll rows).2.watched =
      w.monitor.watched \ (w.monitor.poll rows).1.ready := by
    ext n
    rw [Readiness.mem_watched_poll, HostSet.mem_sdiff]
  refine Run.ends_pure ?_
  show Settling start transfer (w.monitor.poll rows).2.watched (w.duts.merge moved) m₁
  rw [hwatched]
  exact hmoved

theorem ends_firstRound (hs : Settling start transfer waiting duts m) :
    (firstRound settings waiting duts : Run Memory.fleet (HostSet × Duts)).ends (fun r m' =>
      Settling start transfer r.1 r.2 m') (start.Stranded transfer) m := by
  by_cases himmediate : settings.migrateImmediately = true
  · rw [firstRound_immediately himmediate]
    refine Run.ends_bind ((ends_move_ready hs fun n hn => hn).mono fun moved m₁ hmoved => ?_)
    have hnone : waiting \ waiting = ∅ := by
      ext n
      simp
    rw [hnone] at hmoved
    exact Run.ends_pure hmoved
  · rw [firstRound_waiting (Bool.eq_false_iff.mpr himmediate)]
    refine Run.ends_bind (Run.ends_now (Run.ends_bind ?_))
    refine (Run.ends_repeatUntil (fun (w : Waiting) m' =>
      Settling start transfer w.monitor.watched w.duts m') (fun _ _ hw => hw)
      (fun w m' hw => ends_poll hw) (fun w m' hw => ⟨hw.waits, hw.reached.sleep _, hw.reports⟩)
      ?_).mono fun w m' hw => Run.ends_pure hw
    show Settling start transfer (Readiness.watch waiting settings.minReadyIntervals).watched duts m
    rw [Readiness.watched_watch]
    exact hs

/-- The sweep settles the rest, and hosts that got stuck end up where they were. -/
theorem ends_sweep (hs : Settling start transfer waiting duts m) :
    (sweep settings waiting duts : Run Memory.fleet Duts).ends (fun duts' m' =>
      (∀ n, duts'.Reports n (start.fateOf transfer n)) ∧
      Reached start transfer (fun n => if n ∈ start.movable transfer then 3 else 0) m')
      (start.Stranded transfer) m := by
  -- all stages were tried on the stuck hosts before, so they get as far as they did
  have hstuck : ∀ n, n ∈ duts.stuckAfterLock → ¬ n ∈ waiting ∧ n ∈ start.movable transfer ∧
      ∃ stage, start.fateOf transfer n = some (.stuck stage) ∧ stage ≠ .lock := by
    intro n hn
    obtain ⟨stage, hstage, hne⟩ := (hs.reports n).mem_stuckAfterLock.mp hn
    by_cases hwaiting : n ∈ waiting
    · rw [if_pos hwaiting] at hstage
      cases hstage
    · rw [if_neg hwaiting] at hstage
      refine ⟨hwaiting, ?_, stage, hstage, hne⟩
      by_contra hout
      rw [Memory.fateOf, if_neg hout] at hstage
      split at hstage
      · exact hne (Fate.stuck.inj (Option.some.inj hstage)).symm
      · cases hstage
  have hsub : waiting ∪ duts.stuckAfterLock ⊆ start.movable transfer := by
    intro n hn
    rcases HostSet.mem_union.mp hn with hn | hn
    · exact hs.waits n hn
    · exact (hstuck n hn).2.1
  rw [sweep]
  refine Run.ends_bind ((ends_move hsub hs.reached).mono ?_)
  rintro moved m₁ ⟨hmoved, hr⟩
  refine Run.ends_pure ⟨fun n => ?_, ?_⟩
  · have hbefore := hs.reports n
    have hafter := hmoved n
    by_cases hn : n ∈ waiting ∪ duts.stuckAfterLock
    · rw [if_pos hn] at hafter
      refine Duts.Reports.merge_right (hbefore.withoutStuck_self hn ?_ ?_) hafter
      · rcases HostSet.mem_union.mp hn with hn | hn
        · rw [if_pos hn]
          simp
        · obtain ⟨hwaiting, -, stage, hstage, -⟩ := hstuck n hn
          rw [if_neg hwaiting, hstage]
          simp
      · rcases HostSet.mem_union.mp hn with hn | hn
        · rw [if_pos hn]
          simp
        · obtain ⟨hwaiting, -, stage, hstage, hne⟩ := hstuck n hn
          rw [if_neg hwaiting, hstage]
          exact fun heq => hne (Fate.stuck.inj (Option.some.inj heq))
    · rw [if_neg hn] at hafter
      rw [if_neg fun hin => hn (HostSet.mem_union.mpr (.inl hin))] at hbefore
      exact (hbefore.withoutStuck hn).merge_left hafter
  · have hsame : (fun n => if n ∈ waiting ∪ duts.stuckAfterLock then
        max (if n ∈ start.movable transfer ∧ ¬ n ∈ waiting then 3 else 0) 3 else
        if n ∈ start.movable transfer ∧ ¬ n ∈ waiting then 3 else 0) =
        fun n => if n ∈ start.movable transfer then 3 else 0 := by
      funext n
      by_cases hn : n ∈ waiting ∪ duts.stuckAfterLock
      · rw [if_pos hn, if_pos (hsub n hn)]
        exact Nat.max_eq_right (by split <;> omega)
      · have hwaiting : ¬ n ∈ waiting := fun hin => hn (HostSet.mem_union.mpr (.inl hin))
        simp [hn, hwaiting]
    exact hsame ▸ hr

/-! ## The whole pass -/

theorem ends_secure (plan : Plan) (start : Memory) :
    (secure settings plan.transfer : Run Memory.fleet StepResult).ends (fun r m' =>
      r = ⟨start.movable plan.transfer, plan.transfer \ start.movable plan.transfer⟩ ∧
      Reached start plan.transfer (fun _ => 0) m') crash start := by
  obtain ⟨hblank, hlock, -⟩ := settings.tries_everything
  by_cases hempty : plan.transfer = ∅
  · rw [hempty, secure_empty]
    have hnone : ∀ n, ¬ n ∈ (∅ : HostSet) := HostSet.notMem_empty
    exact Run.ends_pure ⟨rfl, fun _ _ => rfl, fun _ hn => hn, fun n hn => absurd hn (hnone n),
      fun n hn => absurd hn (Nat.lt_irrefl 0)⟩
  · rw [secure_of_ne hempty]
    refine Run.ends_bind ((Locking.ends_run hblank hlock hempty start).mono fun _ m₁ hr => ?_)
    refine Run.ends_bind (Run.ends_call rfl ?_)
    have hall : plan.transfer ⊆ plan.transfer := fun n hn => hn
    have hmovable : Locking.lockedAmong plan.transfer
        (plan.transfer.toList.filterMap m₁.status?) = start.movable plan.transfer := by
      ext n
      rw [hr.mem_lockedAmong hall]
      exact ⟨fun hn => hn.2, fun hn => ⟨movable_subset n hn, hn⟩⟩
    have hinter : plan.transfer ∩ start.movable plan.transfer = start.movable plan.transfer := by
      ext n
      rw [HostSet.mem_inter]
      exact ⟨fun hn => hn.2, fun hn => ⟨movable_subset n hn, hn⟩⟩
    refine Run.ends_pure ⟨?_, hr.query hall⟩
    show StepResult.split plan.transfer
      (Locking.lockedAmong plan.transfer (plan.transfer.toList.filterMap m₁.status?)) = _
    rw [hmovable, StepResult.split, hinter]

end Pass

/-- The categories that a pass over a transfer group ends with, read off the flags of the hosts. -/
def Memory.outcome (start : Memory) (transfer : HostSet) : Duts where
  migrated := endingIn .migrated
  notLocked := transfer \ start.movable transfer
  needsAddToTarget := endingIn (.stuck .addToTarget)
  needsDroneAssignment := endingIn (.stuck .droneAssignment)
  needsRename := endingIn (.stuck .rename)
where
  /-- The hosts that can be moved and that end up like this. -/
  endingIn (fate : Fate) : HostSet :=
    (start.movable transfer).filter fun n => (start.host? n).any (·.fate = fate)

theorem Memory.mem_endingIn {fate : Fate} :
    n ∈ Memory.outcome.endingIn start transfer fate ↔
      n ∈ start.movable transfer ∧ (start.host? n).map (·.fate) = some fate := by
  rw [Memory.outcome.endingIn, HostSet.mem_filter]
  refine and_congr_right fun _ => ?_
  cases start.host? n with
  | none => simp
  | some h => simp

theorem Memory.reports_outcome (start : Memory) (transfer : HostSet) (n : Host) :
    (start.outcome transfer).Reports n (start.fateOf transfer n) := by
  have hending : ∀ f, f ≠ .stuck .lock →
      (n ∈ Memory.outcome.endingIn start transfer f ↔ start.fateOf transfer n = some f) := by
    intro f hne
    rw [Memory.mem_endingIn, Memory.fateOf]
    by_cases hmovable : n ∈ start.movable transfer
    · simp [hmovable]
    · by_cases hn : n ∈ transfer
      · simp [hmovable, hn, hne.symm]
      · simp [hmovable, hn]
  intro f
  cases f with
  | migrated => exact hending .migrated (by decide)
  | stuck stage =>
      cases stage with
      | lock =>
          show n ∈ transfer \ start.movable transfer ↔ _
          rw [HostSet.mem_sdiff, Memory.fateOf]
          by_cases hmovable : n ∈ start.movable transfer
          · obtain ⟨-, h, hh, -⟩ := mem_movable_iff.mp hmovable
            simp [hmovable, hh, h.fate_ne_lock]
          · by_cases hn : n ∈ transfer
            · simp [hmovable, hn]
            · simp [hmovable, hn]
      | addToTarget => exact hending (.stuck .addToTarget) (by decide)
      | droneAssignment => exact hending (.stuck .droneAssignment) (by decide)
      | rename => exact hending (.stuck .rename) (by decide)

namespace Pass

variable {settings : CheckedSettings}

theorem ends_execute (plan : Plan) (start : Memory) :
    (execute settings plan : Run Memory.fleet Summary).ends (fun summary m' =>
      summary = .ofDuts plan (start.outcome plan.transfer) ∧
      Reached start plan.transfer (fun n => if n ∈ start.movable plan.transfer then 3 else 0) m')
      (start.Stranded plan.transfer) start := by
  rw [execute]
  refine Run.ends_bind ((ends_secure plan start).mono ?_)
  rintro r m₁ ⟨rfl, hr⟩
  have hs : Settling start plan.transfer (start.movable plan.transfer)
      { notLocked := plan.transfer \ start.movable plan.transfer } m₁ := by
    refine ⟨fun n hn => hn, ?_, fun n => ?_⟩
    · have hnone : (fun n => if n ∈ start.movable plan.transfer ∧
          ¬ n ∈ start.movable plan.transfer then 3 else 0) = fun _ => 0 := by
        funext n
        simp
      exact hnone ▸ hr
    · have hlock := Duts.reports_notLocked (plan.transfer \ start.movable plan.transfer) n
      by_cases hn : n ∈ start.movable plan.transfer
      · rw [if_neg fun hin => (HostSet.mem_sdiff.mp hin).2 hn] at hlock
        rw [if_pos hn]
        exact hlock
      · rw [if_neg hn, Memory.fateOf, if_neg hn]
        simpa [hn] using hlock
  refine Run.ends_bind ((ends_firstRound hs).mono ?_)
  rintro ⟨waiting, duts⟩ m₂ hs₂
  refine Run.ends_bind ((ends_sweep hs₂).mono ?_)
  rintro duts m₃ ⟨hreports, hr₃⟩
  rw [Duts.eq_of_reports hreports (start.reports_outcome plan.transfer)]
  exact Run.ends_pure ⟨rfl, hr₃⟩

section

variable {source : Planner} {settings : Settings} {previous : Option Summary} {plan : Plan}

/-- On a fleet in memory a pass with settings that have no fault ends just as the flags of the hosts
    say. If every host that can be moved gives its descriptor, it ends with the summary of
    `Memory.outcome`, and all stages were tried on just the hosts that can be moved. If one does
    not, it ends with the error of such a host. -/
theorem run_on_memory (hsettings : settings.fault? = none)
    (hplan : source (candidates hosts previous) settings.ratio = .ok plan) (start : Memory) :
    ((∀ n ∈ start.movable plan.transfer, ∀ h, start.host? n = some h → h.descriptorFails = false) →
      ((run source settings hosts previous : Run Memory.fleet Summary).run start).result =
        .ok (.ofDuts plan (start.outcome plan.transfer)) ∧
      Reached start plan.transfer (fun n => if n ∈ start.movable plan.transfer then 3 else 0)
        ((run source settings hosts previous : Run Memory.fleet Summary).run start).state) ∧
    ((∃ n ∈ start.movable plan.transfer, ∃ h, start.host? n = some h ∧ h.descriptorFails = true) →
      ∃ e, ((run source settings hosts previous : Run Memory.fleet Summary).run start).result =
        .error e ∧
      start.Stranded plan.transfer e
        ((run source settings hosts previous : Run Memory.fleet Summary).run start).state) := by
  have hends : (run source settings hosts previous : Run Memory.fleet Summary).ends
      (fun summary m' => summary = .ofDuts plan (start.outcome plan.transfer) ∧
        Reached start plan.transfer (fun n => if n ∈ start.movable plan.transfer then 3 else 0) m')
      (start.Stranded plan.transfer) start := by
    obtain ⟨checked, hchecked, -⟩ := Settings.check_of_fault?_eq_none hsettings
    rw [run_of_check hchecked]
    exact Run.ends_bind (Run.ends_plan hplan (ends_execute plan start))
  rcases hends.cases with ⟨summary, hresult, rfl, hreached⟩ | ⟨e, hresult, hstranded⟩
  · refine ⟨fun _ => ⟨hresult, hreached⟩, ?_⟩
    rintro ⟨n, hn, h, hh, hdescriptor⟩
    -- all stages were tried on this host, so it did give its descriptor
    have heligible := hreached.eligible n (by rw [if_pos hn]; decide)
    exact absurd hdescriptor (by rw [heligible.2 h hh]; decide)
  · refine ⟨fun hall => ?_, fun _ => ⟨e, hresult, hstranded⟩⟩
    obtain ⟨n, hn, h, -, hh, hdescriptor, -⟩ := hstranded
    exact absurd hdescriptor (by rw [hall n hn h hh]; decide)

end

/-- The last of these hosts gives no descriptor. -/
def muteStart : Memory := ⟨[("a", { busy := [true] }), ("d", { descriptorFails := true })], 0⟩

theorem run_on_memory_unsteady :
    (((run (.fixed (.movingAll unsteadyHosts)) briefSettings unsteadyHosts none :
      Run Memory.fleet Summary).run unsteadyStart.inner).result = .ok unsteadySummary ∧
    Reached unsteadyStart.inner unsteadyHosts
      (fun n => if n ∈ HostSet.ofList ["a", "b", "d"] then 3 else 0)
      ((run (.fixed (.movingAll unsteadyHosts)) briefSettings unsteadyHosts none :
        Run Memory.fleet Summary).run unsteadyStart.inner).state) ∧
    muteStart.Stranded unsteadyHosts (.tool (Memory.reply.noDescriptor "d"))
      ((run (.fixed (.movingAll unsteadyHosts)) briefSettings unsteadyHosts none :
        Run Memory.fleet Summary).run muteStart).state := by
  have hsettings : briefSettings.fault? = none := by decide +kernel
  have hplan : Planner.fixed (.movingAll unsteadyHosts) (candidates unsteadyHosts none)
      briefSettings.ratio = .ok (.movingAll unsteadyHosts) := by
    decide +kernel
  constructor
  · have hmovable : unsteadyStart.inner.movable unsteadyHosts = .ofList ["a", "b", "d"] := by
      decide +kernel
    have houtcome : Summary.ofDuts (.movingAll unsteadyHosts)
        (unsteadyStart.inner.outcome unsteadyHosts) = unsteadySummary := by
      decide +kernel
    have hdescribed : ∀ n ∈ (unsteadyStart.inner.movable unsteadyHosts).toList,
        (unsteadyStart.inner.host? n).all (fun h => !h.descriptorFails) = true := by
      decide +kernel
    rw [← houtcome, ← hmovable]
    refine (run_on_memory hsettings hplan unsteadyStart.inner).1 fun n hn h hh => ?_
    have hall := hdescribed n hn
    rw [hh] at hall
    simpa using hall
  · have hmute : "d" ∈ muteStart.movable unsteadyHosts := by decide +kernel
    obtain ⟨e, hresult, hstranded⟩ :=
      (run_on_memory hsettings hplan muteStart).2 ⟨"d", hmute, _, rfl, rfl⟩
    have herror : ((run (.fixed (.movingAll unsteadyHosts)) briefSettings unsteadyHosts none :
        Run Memory.fleet Summary).run muteStart).result =
        .error (.tool (Memory.reply.noDescriptor "d")) := by
      decide +kernel
    cases hresult.symm.trans herror
    exact hstranded

end Pass

end Rehome
