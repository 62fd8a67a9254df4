import Rehome.Fleet.Memory
import Rehome.Fleet.Scripted
import Rehome.Proofs.Failures
import Rehome.Proofs.Schedules

/-!
# Retrying — who is asked for again

To lock hosts and to rename them, hosts are asked for in one request after the other. The two steps
keep their books differently: locking collects the hosts that were seen locked, renaming strikes
those that were renamed off those that remain. They come to the same (`retries_unconfirmed`): every
request is for just the hosts that no answer so far confirmed, and those that no answer confirms are
the ones that failed. What an answer says of a host that was not asked for is without effect, even on
what is asked for later.
-/

namespace Rehome

/-! ## Requests for what is left -/

/-- The hosts that no answer to some requests lists. -/
def unlisted (hosts : HostSet) (requests : List Request) : HostSet :=
  hosts.filter fun h => decide (∀ r ∈ requests, ¬ h ∈ r.answer)

variable {h : Host} {hosts rest : HostSet} {requests : List Request} {answer : List Host}
variable {tries : Nat}

theorem mem_unlisted : h ∈ unlisted hosts requests ↔ h ∈ hosts ∧ ∀ r ∈ requests, ¬ h ∈ r.answer := by
  rw [unlisted, HostSet.mem_filter, decide_eq_true_iff]

theorem unlisted_nil (hosts : HostSet) : unlisted hosts [] = hosts := by
  ext h
  simp [mem_unlisted]

theorem unlisted_cons (hosts : HostSet) (r : Request) (requests : List Request) :
    unlisted hosts (r :: requests) = unlisted (hosts \ .ofList r.answer) requests := by
  ext h
  simp [mem_unlisted, and_assoc]

/-- Hosts are asked for in up to so many requests, each of them for just those that no answer so far
    listed, until there are none left or no more requests are allowed. -/
structure Narrows (tries : Nat) (hosts : HostSet) (requests : List Request) (rest : HostSet) :
    Prop where
  requested : ∀ k (hk : k < requests.length), requests[k].hosts = unlisted hosts (requests.take k)
  rest_eq : rest = unlisted hosts requests
  nonempty : ∀ r ∈ requests, r.hosts ≠ ∅
  length_le : requests.length ≤ tries
  length_eq : rest ≠ ∅ → requests.length = tries

namespace Narrows

/-- Nothing is asked for where there is nothing to ask for, or where it is not allowed. -/
theorem nil (h : hosts ≠ ∅ → 0 = tries) : Narrows tries hosts [] hosts where
  requested _ hk := absurd hk (Nat.not_lt_zero _)
  rest_eq := (unlisted_nil hosts).symm
  nonempty := List.forall_mem_nil _
  length_le := Nat.zero_le tries
  length_eq := h

/-- A request for all hosts, and then requests for those that its answer does not list. -/
theorem cons (hne : hosts ≠ ∅) (h : Narrows tries (hosts \ .ofList answer) requests rest) :
    Narrows (tries + 1) hosts (⟨hosts, answer⟩ :: requests) rest where
  requested k hk := by
    cases k with
    | zero => exact (unlisted_nil hosts).symm
    | succ k =>
        rw [List.take_succ_cons, unlisted_cons]
        exact h.requested k (Nat.lt_of_succ_lt_succ hk)
  rest_eq := by
    rw [unlisted_cons]
    exact h.rest_eq
  nonempty r hr := by
    rcases List.mem_cons.mp hr with rfl | hr
    · exact hne
    · exact h.nonempty r hr
  length_le := Nat.succ_le_succ h.length_le
  length_eq hrest := congrArg Nat.succ (h.length_eq hrest)

theorem rest_subset (h : Narrows tries hosts requests rest) : rest ⊆ hosts := by
  intro host hhost
  rw [h.rest_eq] at hhost
  exact (mem_unlisted.mp hhost).1

/-- Later requests are for some of the hosts of the earlier ones, and for none that an answer to
    these lists. -/
theorem shrinks (h : Narrows tries hosts requests rest) :
    requests.Pairwise fun r later => later.hosts ⊆ r.hosts \ .ofList r.answer := by
  refine List.pairwise_iff_getElem.mpr ?_
  intro i j hi hj hij host hhost
  rw [h.requested j hj] at hhost
  obtain ⟨hin, hnone⟩ := mem_unlisted.mp hhost
  -- what was answered before the earlier request was answered before the later one too
  have hearlier : ∀ r ∈ requests.take i, ¬ host ∈ r.answer := by
    intro r hr
    exact hnone r ((List.take_subset_take_left requests (Nat.le_of_lt hij)) hr)
  have hitself : requests[i] ∈ requests.take j := List.mem_take_iff_getElem.mpr ⟨i, by omega, rfl⟩
  rw [HostSet.mem_sdiff, h.requested i hi, mem_unlisted, HostSet.mem_ofList]
  exact ⟨⟨hin, hearlier⟩, hnone _ hitself⟩

end Narrows

/-- What became of hosts that were asked for in requests, each for just those that no answer so far
    confirmed: those that no answer confirms failed, and the others succeeded. -/
structure Retried (tries : Nat) (hosts : HostSet) (requests : List Request) (result : StepResult) :
    Prop where
  narrows : Narrows tries hosts requests result.failed
  shrinks : requests.Pairwise fun r later => later.hosts ⊆ r.hosts \ .ofList r.answer
  disjoint : result.succeeded ∩ result.failed = ∅
  covers : result.succeeded ∪ result.failed = hosts

theorem Narrows.retried {result : StepResult} (h : Narrows tries hosts requests result.failed)
    (hsucceeded : result.succeeded = hosts \ result.failed) : Retried tries hosts requests result where
  narrows := h
  shrinks := h.shrinks
  disjoint := by
    rw [hsucceeded]
    ext host
    simp
  covers := by
    rw [hsucceeded]
    ext host
    have hsub := h.rest_subset host
    rw [HostSet.mem_union, HostSet.mem_sdiff]
    by_cases hfailed : host ∈ result.failed
    · simp [hfailed, hsub hfailed]
    · simp [hfailed]

/-! ## Locking -/

variable {σ : Type} {fleet : Fleet σ} {policy : RetryPolicy}

namespace Locking

variable {reason : String}

/-- A request to lock hosts, and the statuses that were read after it. -/
structure Inquiry where
  hosts : HostSet
  rows : List StatusRow

/-- The exchanges of a request to lock hosts. -/
def Inquiry.exchanges (reason : String) (i : Inquiry) : List Exchange :=
  [⟨.lock i.hosts reason, .ok ()⟩, ⟨.queryStatus i.hosts, .ok i.rows⟩]

/-- The request, answered by the names that the statuses show locked. -/
def Inquiry.request (i : Inquiry) : Request :=
  ⟨i.hosts, (i.rows.filter StatusRow.locked).map StatusRow.host⟩

/-- The exchanges of one attempt to lock hosts: the second is left out if the first failed. -/
inductive IsAttempt (reason : String) : List Exchange → Prop where
  | cut (hosts : HostSet) (failure : ToolFailure) :
      IsAttempt reason [⟨.lock hosts reason, .error failure⟩]
  | looked (hosts : HostSet) (reply : (Call.queryStatus hosts).Reply) :
      IsAttempt reason [⟨.lock hosts reason, .ok ()⟩, ⟨.queryStatus hosts, reply⟩]

theorem sdiff_lockedAmong (hosts : HostSet) (rows : List StatusRow) :
    hosts \ lockedAmong hosts rows = hosts \ .ofList (Inquiry.request ⟨hosts, rows⟩).answer := by
  ext host
  rw [HostSet.mem_sdiff, HostSet.mem_sdiff, mem_lockedAmong, HostSet.mem_ofList, Inquiry.request,
    List.mem_map]
  refine and_congr_right ?_
  intro hin
  refine not_congr ?_
  constructor
  · rintro ⟨-, row, hrow, hhost, hlocked⟩
    exact ⟨row, List.mem_filter.mpr ⟨hrow, hlocked⟩, hhost⟩
  · rintro ⟨row, hrow, hhost⟩
    obtain ⟨hrow, hlocked⟩ := List.mem_filter.mp hrow
    exact ⟨hin, row, hrow, hhost, hlocked⟩

/-- The hosts seen locked, and those of the others that do not fail, are those that do not fail. -/
theorem union_lockedAmong {hosts locked failed : HostSet} {rows : List StatusRow}
    (hfailed : failed ⊆ hosts \ lockedAmong hosts rows) :
    locked ∪ lockedAmong hosts rows ∪ ((hosts \ lockedAmong hosts rows) \ failed) =
      locked ∪ (hosts \ failed) := by
  ext host
  simp only [HostSet.mem_union, HostSet.mem_sdiff]
  by_cases hseen : host ∈ lockedAmong hosts rows
  · have hin : host ∈ hosts := (mem_lockedAmong.mp hseen).1
    have hnot : ¬ host ∈ failed := fun hfails => (HostSet.mem_sdiff.mp (hfailed host hfails)).2 hseen
    simp [hseen, hin, hnot]
  · simp [hseen]

/-- Attempts to lock hosts come after the waits that are due. If all are answered, the hosts that no
    status shows locked are left. -/
theorem wp_attempts (left made : Nat) (remaining locked : HostSet) (s : σ) :
    (attempts policy reason left made remaining locked : Run fleet StepResult).wp
      (fun result t _ => ∃ inquiries : List Inquiry,
        acts t = spaced policy made (inquiries.map (Inquiry.exchanges reason)) ∧
        Narrows left remaining (inquiries.map Inquiry.request) result.failed ∧
        result.succeeded = locked ∪ (remaining \ result.failed))
      (fun _ t _ => Tried policy made (IsAttempt reason) t) s := by
  induction left generalizing made remaining locked s with
  | zero =>
      refine ⟨[], rfl, .nil fun _ => rfl, ?_⟩
      ext host
      simp
  | succ left ih =>
      rw [attempts_succ]
      by_cases hempty : remaining.isEmpty = true
      · rw [if_pos hempty]
        obtain rfl := HostSet.isEmpty_iff.mp hempty
        refine ⟨[], rfl, .nil fun hne => absurd rfl hne, ?_⟩
        ext host
        simp
      · rw [if_neg hempty]
        have hne : remaining ≠ ∅ := fun heq => hempty (HostSet.isEmpty_iff.mpr heq)
        refine Run.wp_due ?_
        intro pause s₁ hpause
        rw [Run.wp_bind, Run.wp_call]
        constructor
        · intro _ s₂ _
          rw [Run.wp_bind, look, Run.wp_bind, Run.wp_call]
          constructor
          · intro rows s₃ _
            rw [Run.wp_pure]
            refine (ih (made + 1) _ _ s₃).mono ?_ ?_
            · rintro result t s₄ ⟨inquiries, hacts, hnarrows, hsucceeded⟩
              refine ⟨⟨remaining, rows⟩ :: inquiries, ?_, ?_, ?_⟩
              · simp [hpause, hacts, spaced, Inquiry.exchanges]
              · rw [sdiff_lockedAmong] at hnarrows
                exact hnarrows.cons hne
              · rw [hsucceeded]
                exact union_lockedAmong fun host hhost => hnarrows.rest_subset host hhost
            · intro e t s₄ htried
              show Tried policy made (IsAttempt reason) (pause ++ ([_, _] ++ t))
              exact .cons (.looked remaining (.ok rows)) hpause rfl htried
          · intro failure s₃ _
            exact .last (.looked remaining (.error failure)) hpause rfl
        · intro failure s₂ _
          exact .last (IsAttempt.cut remaining failure) hpause rfl

end Locking

/-! ## Renaming -/

namespace Renaming

/-- The exchange of one attempt to rename hosts. -/
inductive IsAttempt : List Exchange → Prop where
  | asked (hosts : HostSet) (reply : (Call.rename hosts .moved).Reply) :
      IsAttempt [⟨.rename hosts .moved, reply⟩]

/-- Attempts to rename hosts come after the waits that are due. If all are answered, the hosts that no
    answer lists are left. -/
theorem wp_attempts (left made : Nat) (remaining : HostSet) (s : σ) :
    (attempts policy left made remaining : Run fleet HostSet).wp
      (fun rest t _ => ∃ requests : List Request,
        acts t = spaced policy made (requests.map fun r => [r.exchange]) ∧
        Narrows left remaining requests rest)
      (fun _ t _ => Tried policy made IsAttempt t) s := by
  induction left generalizing made remaining s with
  | zero => exact ⟨[], rfl, .nil fun _ => rfl⟩
  | succ left ih =>
      rw [attempts_succ]
      by_cases hempty : remaining.isEmpty = true
      · rw [if_pos hempty]
        obtain rfl := HostSet.isEmpty_iff.mp hempty
        exact ⟨[], rfl, .nil fun hne => absurd rfl hne⟩
      · rw [if_neg hempty]
        have hne : remaining ≠ ∅ := fun heq => hempty (HostSet.isEmpty_iff.mpr heq)
        refine Run.wp_due ?_
        intro pause s₁ hpause
        rw [Run.wp_bind, Run.wp_call]
        constructor
        · intro answer s₂ _
          refine (ih (made + 1) _ s₂).mono ?_ ?_
          · rintro rest t s₃ ⟨requests, hacts, hnarrows⟩
            refine ⟨⟨remaining, answer⟩ :: requests, ?_, hnarrows.cons hne⟩
            simp [hpause, hacts, spaced, Request.exchange]
          · intro e t s₃ htried
            exact .cons (.asked remaining (.ok answer)) hpause rfl htried
        · intro failure s₂ _
          exact .last (IsAttempt.asked remaining (.error failure)) hpause rfl

end Renaming

/-! ## Answers that keep to what was asked -/

/-- An answer to a call without what it says of hosts that were not asked for. -/
def Call.keepAsked : (call : Call) → call.Answer → call.Answer
  | .queryStatus hosts, rows => rows.filter fun row => decide (row.host ∈ hosts)
  | .unlock hosts, names => names.filter fun name => decide (name ∈ hosts)
  | .rename hosts _, names => names.filter fun name => decide (name ∈ hosts)
  | .lock _ _, answer => answer
  | .fetchDescriptor _, answer => answer
  | .add _, answer => answer
  | .assignDrone _, answer => answer
  | .remove _ _, answer => answer

/-- A fleet that does the same, and whose answers keep to the hosts that were asked for. -/
def Fleet.keepAsked (fleet : Fleet σ) : Fleet σ where
  toClock := fleet.toClock
  reply call s := ((fleet.reply call s).1.map call.keepAsked, (fleet.reply call s).2)
  time_le_reply := fleet.time_le_reply

/-- The same was asked and slept for, and it came to the same, whatever was answered. -/
structure Outcome.Alike {α : Type} (o o' : Outcome σ α) : Prop where
  result : o.result = o'.result
  state : o.state = o'.state
  calls : o.trace.map Event.call? = o'.trace.map Event.call?
  sleeps : sleeps o.trace = sleeps o'.trace

namespace Run

variable {α β : Type} {fleet' : Fleet σ}

/-- Two runs are alike from every state. -/
def Alike (x : Run fleet α) (y : Run fleet' α) : Prop := ∀ s, (x.run s).Alike (y.run s)

theorem alike_pure (a : α) : Alike (Pure.pure a : Run fleet α) (Pure.pure a : Run fleet' α) :=
  fun _ => ⟨rfl, rfl, rfl, rfl⟩

/-- What is done after an outcome, and after one like it. -/
theorem alike_andThen {o o' : Outcome σ α} (ho : o.Alike o') {f g : α → σ → Outcome σ β}
    (hfg : ∀ a s, (f a s).Alike (g a s)) : (andThen o f).Alike (andThen o' g) := by
  obtain ⟨result, trace, state⟩ := o
  obtain ⟨result', trace', state'⟩ := o'
  obtain ⟨hresult, hstate, hcalls, hsleeps⟩ := ho
  dsimp only at hresult hstate hcalls hsleeps
  subst hresult hstate
  cases result with
  | error e => exact ⟨rfl, rfl, hcalls, hsleeps⟩
  | ok a =>
      obtain ⟨hresult, hstate, hcalls', hsleeps'⟩ := hfg a state
      refine ⟨hresult, hstate, ?_, ?_⟩
      · show List.map Event.call? (trace ++ _) = List.map Event.call? (trace' ++ _)
        rw [List.map_append, List.map_append, hcalls, hcalls']
      · show Rehome.sleeps (trace ++ _) = Rehome.sleeps (trace' ++ _)
        rw [sleeps_append, sleeps_append, hsleeps, hsleeps']

theorem alike_bind {x : Run fleet α} {y : Run fleet' α} {f : α → Run fleet β}
    {g : α → Run fleet' β} (hx : Alike x y) (hf : ∀ a, Alike (f a) (g a)) :
    Alike (x >>= f) (y >>= g) :=
  fun s => alike_andThen (hx s) fun a s' => hf a s'

/-- After a call one run goes on from the answer, and the other from what it says of the hosts asked
    for. -/
theorem alike_call_bind {c : Call} {f : c.Answer → Run fleet β}
    {g : c.Answer → Run fleet.keepAsked β} (hfg : ∀ a, Alike (f a) (g (c.keepAsked a))) :
    Alike (call c >>= f) (call c >>= g) := by
  intro s
  show (andThen ⟨(fleet.reply c s).1.mapError .tool, _, (fleet.reply c s).2⟩ _).Alike
    (andThen ⟨((fleet.reply c s).1.map c.keepAsked).mapError .tool, _, (fleet.reply c s).2⟩ _)
  cases (fleet.reply c s).1 with
  | error failure => exact ⟨rfl, rfl, rfl, rfl⟩
  | ok a =>
      obtain ⟨hresult, hstate, hcalls, hsleeps⟩ := hfg a (fleet.reply c s).2
      exact ⟨hresult, hstate, congrArg (some c :: ·) hcalls, hsleeps⟩

theorem alike_pause {c : Prop} [Decidable c] {made : Nat} {x : Run fleet α}
    {y : Run fleet.keepAsked α} (hxy : Alike x y) :
    Alike (if c then (do waitAfter policy made; x) else x)
      (if c then (do waitAfter policy made; y) else y) := by
  by_cases hc : c
  · rw [if_pos hc, if_pos hc]
    refine alike_bind ?_ fun _ => hxy
    intro s
    rw [waitAfter, waitAfter]
    split
    · exact ⟨rfl, rfl, rfl, rfl⟩
    · exact ⟨rfl, rfl, rfl, rfl⟩
  · rw [if_neg hc, if_neg hc]
    exact hxy

end Run

theorem Locking.lockedAmong_keepAsked (hosts : HostSet) (rows : List StatusRow) :
    lockedAmong hosts ((Call.queryStatus hosts).keepAsked rows) = lockedAmong hosts rows := by
  ext host
  rw [mem_lockedAmong, mem_lockedAmong]
  refine and_congr_right ?_
  intro hin
  constructor
  · rintro ⟨row, hrow, hboth⟩
    exact ⟨row, (List.mem_filter.mp hrow).1, hboth⟩
  · rintro ⟨row, hrow, rfl, hlocked⟩
    exact ⟨row, List.mem_filter.mpr ⟨hrow, decide_eq_true hin⟩, rfl, hlocked⟩

/-- Locking goes by what the statuses say of the hosts that were asked for. -/
theorem Locking.alike_attempts (policy : RetryPolicy) (reason : String) (left made : Nat)
    (remaining locked : HostSet) :
    Run.Alike (attempts policy reason left made remaining locked : Run fleet StepResult)
      (attempts policy reason left made remaining locked : Run fleet.keepAsked StepResult) := by
  induction left generalizing made remaining locked with
  | zero => exact Run.alike_pure _
  | succ left ih =>
      rw [attempts_succ, attempts_succ]
      by_cases hempty : remaining.isEmpty = true
      · rw [if_pos hempty, if_pos hempty]
        exact Run.alike_pure _
      · rw [if_neg hempty, if_neg hempty, look, look]
        simp only [Run.bind_assoc, Run.pure_bind]
        refine Run.alike_pause (Run.alike_call_bind fun _ => Run.alike_call_bind fun rows => ?_)
        rw [lockedAmong_keepAsked]
        exact ih _ _ _

theorem Renaming.sdiff_keepAsked (hosts : HostSet) (names : List Host) :
    hosts \ .ofList ((Call.rename hosts .moved).keepAsked names) = hosts \ .ofList names := by
  ext host
  rw [HostSet.mem_sdiff, HostSet.mem_sdiff, HostSet.mem_ofList, HostSet.mem_ofList]
  refine and_congr_right ?_
  intro hin
  refine not_congr ⟨?_, ?_⟩
  · intro hname
    exact (List.mem_filter.mp hname).1
  · intro hname
    exact List.mem_filter.mpr ⟨hname, decide_eq_true hin⟩

/-- Renaming goes by what the answers say of the hosts that were asked for. -/
theorem Renaming.alike_attempts (policy : RetryPolicy) (left made : Nat) (remaining : HostSet) :
    Run.Alike (attempts policy left made remaining : Run fleet HostSet)
      (attempts policy left made remaining : Run fleet.keepAsked HostSet) := by
  induction left generalizing made remaining with
  | zero => exact Run.alike_pure _
  | succ left ih =>
      rw [attempts_succ, attempts_succ]
      by_cases hempty : remaining.isEmpty = true
      · rw [if_pos hempty, if_pos hempty]
        exact Run.alike_pure _
      · rw [if_neg hempty, if_neg hempty]
        refine Run.alike_pause (Run.alike_call_bind fun names => ?_)
        rw [sdiff_keepAsked]
        exact ih _ _

/-! ## Both steps -/

/-- A run ends with a result after calls that were all answered, or else at the first one that was
    not, with the failure of that call. -/
def Outcome.EndsAtFirstFailure {α : Type} (o : Outcome σ α) : Prop :=
  (∃ a, o.result = .ok a ∧ failures o.trace = []) ∨
    ∃ failure, o.result = .error (.tool failure) ∧ EndsAt failure o.trace

/-- A step that asks for hosts in up to so many requests, of which each makes some exchanges, keeps on
    asking for those that were not confirmed, and stops where a call is not answered. -/
structure Outcome.Retries {ι : Type} (exchangesOf : ι → List Exchange) (requestOf : ι → Request)
    (tries : Nat) (hosts : HostSet) (o : Outcome σ StepResult) : Prop where
  retried : ∀ result, o.result = .ok result →
    ∃ asked : List ι, exchanges o.trace = asked.flatMap exchangesOf ∧
      Retried tries hosts (asked.map requestOf) result
  fails : o.EndsAtFirstFailure

theorem Locking.retries_run (hosts : HostSet) {reason : String}
    (hreason : Text.isBlankText reason = false) (s : σ) :
    ((run policy hosts reason : Run fleet StepResult).run s).Retries (Inquiry.exchanges reason)
      Inquiry.request policy.maxAttempts hosts := by
  rw [run_of_reason hreason]
  constructor
  · intro result hok
    obtain ⟨inquiries, hacts, hnarrows, hsucceeded⟩ :=
      (wp_attempts policy.maxAttempts 0 hosts ∅ s).of_ok hok
    refine ⟨inquiries, ?_, hnarrows.retried ?_⟩
    · rw [exchanges_of_spaced hacts, List.flatMap_def]
    · rw [hsucceeded]
      ext host
      simp
  · exact (composed_attempts policy reason policy.maxAttempts 0 hosts ∅).candid.cases s

theorem Renaming.retries_run (hosts : HostSet) (s : σ) :
    ((run policy hosts : Run fleet StepResult).run s).Retries (fun r : Request => [r.exchange]) id
      policy.maxAttempts hosts := by
  constructor
  · intro result hok
    obtain ⟨rest, t, s', hrun, hresult⟩ := Run.ok_of_bind hok
    cases hresult
    have hattempts : (attempts policy policy.maxAttempts 0 hosts : Run fleet HostSet).wp _ _ s :=
      wp_attempts policy.maxAttempts 0 hosts s
    rw [Run.wp, hrun] at hattempts
    obtain ⟨requests, hacts, hnarrows⟩ := hattempts
    have htrace : ((run policy hosts : Run fleet StepResult).run s).trace = t := by
      rw [run, Run.run_bind, hrun]
      exact List.append_nil t
    refine ⟨requests, ?_, ?_⟩
    · rw [htrace, exchanges_of_spaced hacts, List.flatMap_def]
    · rw [List.map_id]
      exact hnarrows.retried rfl
  · exact (composed_run policy hosts).candid.cases s

/-- Locking and renaming ask for hosts in requests, as many as the policy allows and no more than it
    takes. Each request is for just the hosts that no answer so far confirmed; the hosts that no
    answer confirms failed and the others succeeded. A call without an answer ends the step with its
    failure. Had the answers said nothing of hosts that were not asked for, the same would have been
    done and come of it. -/
theorem retries_unconfirmed (policy : RetryPolicy) (hosts : HostSet) (s : σ) :
    (∀ reason, Text.isBlankText reason = false →
      ((Locking.run policy hosts reason : Run fleet StepResult).run s).Retries
        (Locking.Inquiry.exchanges reason) Locking.Inquiry.request policy.maxAttempts hosts ∧
      ((Locking.run policy hosts reason : Run fleet StepResult).run s).Alike
        ((Locking.run policy hosts reason : Run fleet.keepAsked StepResult).run s)) ∧
    ((Renaming.run policy hosts : Run fleet StepResult).run s).Retries
      (fun r : Request => [r.exchange]) id policy.maxAttempts hosts ∧
    ((Renaming.run policy hosts : Run fleet StepResult).run s).Alike
      ((Renaming.run policy hosts : Run fleet.keepAsked StepResult).run s) := by
  refine ⟨?_, Renaming.retries_run hosts s, ?_⟩
  · intro reason hreason
    refine ⟨Locking.retries_run hosts hreason s, ?_⟩
    rw [Locking.run_of_reason hreason, Locking.run_of_reason hreason]
    exact Locking.alike_attempts policy reason policy.maxAttempts 0 hosts ∅ s
  · refine Run.alike_bind (Renaming.alike_attempts policy policy.maxAttempts 0 hosts) ?_ s
    exact fun _ => Run.alike_pure _

/-- A fleet in memory whose first statuses are of a host that was not asked for and of one that was,
    twice, and whose second ones are of that host alone. -/
def forgetfulFleet : Fleet (Scripted Memory) :=
  Scripted.fleet Memory.fleet [
    ⟨.queryStatus, some 1, .ok [⟨"z", true, false⟩, ⟨"b", false, false⟩, ⟨"b", true, false⟩]⟩,
    ⟨.queryStatus, some 2, .ok [⟨"b", true, false⟩]⟩]

/-- In two attempts one of two hosts is seen locked there, and the second attempt is for the other. -/
theorem retries_unconfirmed_forgetful :
    Text.isBlankText "moving" = false ∧
    ((Locking.run (.immediate 2) (.ofList ["a", "b"]) "moving" :
      Run forgetfulFleet StepResult).run { inner := { hosts := [("a", {}), ("b", {})] } }).result =
        .ok ⟨.ofList ["b"], .ofList ["a"]⟩ ∧
    ∃ requests : List Request, requests.length = 2 ∧ ∀ hk : 1 < requests.length,
      requests[1].hosts = unlisted (.ofList ["a", "b"]) (requests.take 1) := by
  have hreason : Text.isBlankText "moving" = false := by decide +kernel
  have hok : ((Locking.run (.immediate 2) (.ofList ["a", "b"]) "moving" :
      Run forgetfulFleet StepResult).run { inner := { hosts := [("a", {}), ("b", {})] } }).result =
        .ok ⟨.ofList ["b"], .ofList ["a"]⟩ := by
    decide +kernel
  obtain ⟨inquiries, -, hretried⟩ :=
    ((retries_unconfirmed (.immediate 2) (.ofList ["a", "b"]) _).1 "moving" hreason).1.retried _ hok
  refine ⟨hreason, hok, _, hretried.narrows.length_eq (HostSet.singleton_ne_empty "a"), ?_⟩
  intro hk
  exact hretried.narrows.requested 1 hk

end Rehome
