import Rehome.Proofs.Schedules

/-!
# Placing — one host after the other

What a relocation asks is told host by host: the descriptor, the addition, and then, unless the host
was not added, the calls for a drone. These go on until a drone is given or no more are allowed
(`Insists`). If a call is not answered, the relocation stops in the midst of a host (`Cut`), after
hosts that it was done with.

The answers settle what becomes of a host: `Attempt.placement` reads it off how the host was added and
off the last call for a drone. The main result, `relocates_in_turn`, puts both together for a run from
any state of any fleet.
-/

namespace Rehome

/-! ## Calls for a drone -/

/-- Whether a drone was given in the end. -/
def gotDrone (answers : List Effect) : Bool := answers.getLast?.any fun answer => !answer.isFailed

/-- The answers to calls for a drone, of which so many are allowed: every call but the last was
    refused, and so was the last one unless fewer calls were made than allowed. -/
structure Insists (tries : Nat) (answers : List Effect) : Prop where
  length_le : answers.length ≤ tries
  ne_nil : 0 < tries → answers ≠ []
  refused : ∀ answer ∈ answers.dropLast, answer.isFailed = true
  given : answers.length < tries → gotDrone answers = true

variable {tries : Nat} {answer : Effect} {answers : List Effect}

/-- A call that was refused changes nothing for the calls after it. -/
theorem gotDrone_cons_of_failed (hfailed : answer.isFailed = true) (answers : List Effect) :
    gotDrone (answer :: answers) = gotDrone answers := by
  cases answers with
  | nil =>
      show (!answer.isFailed) = false
      rw [hfailed]
      rfl
  | cons next later => rw [gotDrone, List.getLast?_cons_cons, gotDrone]

theorem gotDrone_singleton (hgiven : answer.isFailed = false) : gotDrone [answer] = true := by
  show (!answer.isFailed) = true
  rw [hgiven]
  rfl

namespace Insists

theorem none_allowed : Insists 0 [] where
  length_le := Nat.le_refl 0
  ne_nil hpos := absurd hpos (Nat.lt_irrefl 0)
  refused _ hin := nomatch hin
  given hlt := absurd hlt (Nat.lt_irrefl 0)

theorem given_at_once (hgiven : answer.isFailed = false) : Insists (tries + 1) [answer] where
  length_le := Nat.succ_le_succ (Nat.zero_le tries)
  ne_nil _ := List.cons_ne_nil answer []
  refused _ hin := nomatch hin
  given _ := gotDrone_singleton hgiven

theorem cons (hfailed : answer.isFailed = true) (h : Insists tries answers) :
    Insists (tries + 1) (answer :: answers) where
  length_le := Nat.succ_le_succ h.length_le
  ne_nil _ := List.cons_ne_nil answer answers
  refused := by
    cases answers with
    | nil => exact fun _ hin => nomatch hin
    | cons next later =>
        rw [List.dropLast_cons_cons]
        exact List.forall_mem_cons.mpr ⟨hfailed, h.refused⟩
  given hlt := by
    rw [gotDrone_cons_of_failed hfailed]
    exact h.given (Nat.lt_of_succ_lt_succ hlt)

end Insists

/-! ## What is asked for a host -/

/-- What became of the host of an attempt. -/
def Attempt.placement (a : Attempt) : Placement :=
  if a.added.isFailed then .notAdded else if gotDrone a.assigned then .placed else .noDrone

/-- An attempt that may ask for a drone so many times was seen through. -/
structure Attempt.Complete (tries : Nat) (a : Attempt) : Prop where
  not_added : a.added.isFailed = true → a.assigned = []
  added : a.added.isFailed = false → Insists tries a.assigned

/-- What a relocation asks for a host before a call that is not answered. -/
inductive Cut where
  | describing (host : Host)
  | adding (host : Host) (descriptor : Descriptor)
  | assigning (host : Host) (descriptor : Descriptor) (added : Effect) (refused : List Effect)

namespace Cut

/-- The host that is being relocated. -/
def host : Cut → Host
  | describing host => host
  | adding host _ => host
  | assigning host _ _ _ => host

/-- The exchanges of an attempt up to and with the call that is not answered. -/
def exchanges (failure : ToolFailure) : Cut → List Exchange
  | describing host => [⟨.fetchDescriptor host, .error failure⟩]
  | adding host descriptor =>
    [⟨.fetchDescriptor host, .ok descriptor⟩, ⟨.add descriptor, .error failure⟩]
  | assigning host descriptor added refused =>
    Attempt.exchanges ⟨host, descriptor, added, refused⟩ ++ [⟨.assignDrone host, .error failure⟩]

/-- A drone is asked for only if the host was added, and again only if it was refused and so many
    calls are allowed. -/
def Legal (tries : Nat) : Cut → Prop
  | describing _ => True
  | adding _ _ => True
  | assigning _ _ added refused =>
    added.isFailed = false ∧ (∀ answer ∈ refused, answer.isFailed = true) ∧ refused.length < tries

end Cut

namespace Relocation

variable {σ : Type} {fleet : Fleet σ} {policy : RetryPolicy} {host : Host}

/-- A call for a drone, with what came back from it. -/
def asksDrone (host : Host) (reply : Except ToolFailure Effect) : List Exchange :=
  [⟨.assignDrone host, reply⟩]

/-- What is waited for after so many calls for a drone, if some are left. -/
def dueBefore (policy : RetryPolicy) (left made : Nat) : List Act :=
  if left = 0 then [] else due policy made

theorem dueBefore_zero (left : Nat) : dueBefore policy left 0 = [] := by
  rw [dueBefore, due, ite_self]

/-- Waiting after a call that was refused is what is due before the next one, if one is allowed. -/
theorem wp_allowed {α : Type} {post : α → List Event → σ → Prop}
    {crash : PassError → List Event → σ → Prop} {x : Run fleet α} {left made : Nat} {s : σ}
    (htries : policy.maxAttempts = made + 1 + left)
    (h : ∀ t s', acts t = dueBefore policy left (made + 1) →
      x.wp (fun a t' => post a (t ++ t')) (fun e t' => crash e (t ++ t')) s') :
    (if policy.allowsAfter (made + 1) then (do Run.waitAfter policy (made + 1); x) else x).wp
      post crash s := by
  cases left with
  | zero =>
      have hnot : ¬ policy.allowsAfter (made + 1) = true := by
        rw [RetryPolicy.allowsAfter, decide_eq_true_iff]
        omega
      rw [if_neg hnot]
      exact h [] s rfl
  | succ left =>
      have hallowed : policy.allowsAfter (made + 1) = true := by
        rw [RetryPolicy.allowsAfter, decide_eq_true_iff]
        omega
      rw [if_pos hallowed]
      exact Run.wp_waitAfter_due h

/-- Calls for a drone come after the waits that are due, the first of which was made before. -/
theorem wp_assign (left made : Nat) (htries : policy.maxAttempts = made + left) (s : σ) :
    (assign policy host left (made + 1) : Run fleet Bool).wp
      (fun given t _ => ∃ answers : List Effect,
        dueBefore policy left made ++ acts t =
          spaced policy made (answers.map fun answer => asksDrone host (.ok answer)) ∧
        Insists left answers ∧ given = gotDrone answers)
      (fun e t _ => ∃ failure, ∃ refused : List Effect, e = .tool failure ∧
        dueBefore policy left made ++ acts t =
          spaced policy made ((refused.map fun answer => asksDrone host (.ok answer)) ++
            [asksDrone host (.error failure)]) ∧
        (∀ answer ∈ refused, answer.isFailed = true) ∧ refused.length < left)
      s := by
  induction left generalizing made s with
  | zero => exact ⟨[], rfl, .none_allowed, rfl⟩
  | succ left ih =>
      have hdue : dueBefore policy (left + 1) made = due policy made := if_neg (Nat.succ_ne_zero left)
      rw [hdue, assign_succ, Run.wp_bind, Run.wp_call]
      constructor
      · intro answer s₁ _
        by_cases hfailed : Effect.isFailed answer = true
        · rw [if_pos hfailed]
          have hleft : policy.maxAttempts = made + 1 + left := by omega
          refine wp_allowed hleft ?_
          intro pause s₂ hpause
          refine (ih (made + 1) hleft s₂).mono ?_ ?_
          · rintro given t s₃ ⟨answers, hacts, hinsists, hgiven⟩
            refine ⟨answer :: answers, ?_, hinsists.cons hfailed, ?_⟩
            · rw [List.map_cons, spaced, ← hacts]
              simp [hpause, asksDrone]
            · rw [hgiven, gotDrone_cons_of_failed hfailed]
          · rintro e t s₃ ⟨failure, refused, rfl, hacts, hrefused, hlt⟩
            refine ⟨failure, answer :: refused, rfl, ?_, ?_, Nat.succ_lt_succ hlt⟩
            · show _ = due policy made ++ _ ++ spaced policy (made + 1) (_ ++ _)
              rw [← hacts]
              simp [hpause, asksDrone]
            · exact List.forall_mem_cons.mpr ⟨hfailed, hrefused⟩
        · rw [if_neg hfailed]
          have hgiven : Effect.isFailed answer = false := Bool.eq_false_iff.mpr hfailed
          refine ⟨[answer], ?_, .given_at_once hgiven, (gotDrone_singleton hgiven).symm⟩
          simp [spaced, asksDrone]
      · intro failure s₁ _
        refine ⟨failure, [], rfl, ?_, List.forall_mem_nil _, Nat.succ_pos left⟩
        simp [spaced, asksDrone]

/-- All calls for a drone that a policy allows come after the waits that are due. -/
theorem wp_assign_all (s : σ) :
    (assign policy host policy.maxAttempts 1 : Run fleet Bool).wp
      (fun given t _ => ∃ answers : List Effect,
        acts t = spaced policy 0 (answers.map fun answer => asksDrone host (.ok answer)) ∧
        Insists policy.maxAttempts answers ∧ given = gotDrone answers)
      (fun e t _ => ∃ failure, ∃ refused : List Effect, e = .tool failure ∧
        acts t = spaced policy 0 ((refused.map fun answer => asksDrone host (.ok answer)) ++
          [asksDrone host (.error failure)]) ∧
        (∀ answer ∈ refused, answer.isFailed = true) ∧ refused.length < policy.maxAttempts)
      s := by
  refine (wp_assign policy.maxAttempts 0 (Nat.zero_add policy.maxAttempts).symm s).mono ?_ ?_
  · rintro given t s' ⟨answers, hacts, hrest⟩
    rw [dueBefore_zero] at hacts
    exact ⟨answers, hacts, hrest⟩
  · rintro e t s' ⟨failure, refused, rfl, hacts, hrest⟩
    rw [dueBefore_zero] at hacts
    exact ⟨failure, refused, rfl, hacts, hrest⟩

theorem flatten_asksDrone (answers : List Effect) :
    (answers.map fun answer => asksDrone host (.ok answer)).flatten =
      answers.map fun answer => ⟨.assignDrone host, .ok answer⟩ := by
  induction answers with
  | nil => rfl
  | cons answer answers ih =>
      rw [List.map_cons, List.flatten_cons, ih, List.map_cons]
      rfl

/-- A host is relocated in an attempt that is seen through, or cut short where a call is not
    answered. -/
theorem wp_place (s : σ) :
    (place policy host : Run fleet Placement).wp
      (fun placement t _ => ∃ a : Attempt, a.host = host ∧ exchanges t = a.exchanges ∧
        a.Complete policy.maxAttempts ∧ placement = a.placement)
      (fun e t _ => ∃ failure, ∃ cut : Cut, e = .tool failure ∧ cut.host = host ∧
        exchanges t = cut.exchanges failure ∧ cut.Legal policy.maxAttempts)
      s := by
  rw [place, Run.wp_bind, Run.wp_call]
  constructor
  · intro descriptor s₁ _
    rw [Run.wp_bind, Run.wp_call]
    constructor
    · intro added s₂ _
      by_cases hfailed : Effect.isFailed added = true
      · rw [if_pos hfailed]
        refine ⟨⟨host, descriptor, added, []⟩, rfl, rfl, ⟨fun _ => rfl, ?_⟩, ?_⟩
        · intro hadded
          exact absurd hfailed (Bool.eq_false_iff.mp hadded)
        · exact (if_pos hfailed).symm
      · have hadded : Effect.isFailed added = false := Bool.eq_false_iff.mpr hfailed
        rw [if_neg hfailed, Run.wp_bind]
        refine (wp_assign_all s₂).mono ?_ ?_
        · rintro given t s₃ ⟨answers, hacts, hinsists, rfl⟩
          have hex := (exchanges_of_spaced hacts).trans (flatten_asksDrone answers)
          have hend : (if gotDrone answers = true then pure .placed else pure .noDrone :
              Run fleet Placement) = pure (Attempt.placement ⟨host, descriptor, added, answers⟩) := by
            rw [Attempt.placement, if_neg hfailed]
            exact (apply_ite pure _ _ _).symm
          rw [hend]
          refine ⟨⟨host, descriptor, added, answers⟩, rfl, ?_, ⟨?_, fun _ => hinsists⟩, rfl⟩
          · simp [hex, Attempt.exchanges]
          · exact fun h => absurd h hfailed
        · rintro e t s₃ ⟨failure, refused, rfl, hacts, hrefused, hlt⟩
          have hex := exchanges_of_spaced hacts
          rw [List.flatten_append, flatten_asksDrone] at hex
          refine ⟨failure, .assigning host descriptor added refused, rfl, rfl, ?_,
            hadded, hrefused, hlt⟩
          simp [hex, Cut.exchanges, Attempt.exchanges, asksDrone]
    · intro failure s₂ _
      exact ⟨failure, .adding host descriptor, rfl, rfl, rfl, trivial⟩
  · intro failure s₁ _
    exact ⟨failure, .describing host, rfl, rfl, rfl, trivial⟩

/-- Hosts are relocated in the order given, up to the one whose attempt is cut short. -/
theorem wp_all (hosts : List Host) (s : σ) :
    (all policy hosts : Run fleet Relocation).wp
      (fun r t _ => ∃ attempts : List Attempt, attempts.map Attempt.host = hosts ∧
        exchanges t = attempts.flatMap Attempt.exchanges ∧
        (∀ a ∈ attempts, a.Complete policy.maxAttempts) ∧
        ∀ h p, h ∈ r.group p ↔ ∃ a ∈ attempts, a.host = h ∧ a.placement = p)
      (fun e t _ => ∃ failure, ∃ attempts : List Attempt, ∃ cut : Cut, ∃ later : List Host,
        e = .tool failure ∧ hosts = attempts.map Attempt.host ++ cut.host :: later ∧
        exchanges t = attempts.flatMap Attempt.exchanges ++ cut.exchanges failure ∧
        (∀ a ∈ attempts, a.Complete policy.maxAttempts) ∧ cut.Legal policy.maxAttempts)
      s := by
  induction hosts generalizing s with
  | nil =>
      refine ⟨[], rfl, rfl, List.forall_mem_nil _, ?_⟩
      intro h p
      cases p <;> simp [group]
  | cons host hosts ih =>
      rw [all, Run.wp_bind]
      refine (wp_place s).mono ?_ ?_
      · rintro placement t s₁ ⟨a, rfl, hex, hcomplete, rfl⟩
        rw [Run.wp_bind]
        refine (ih s₁).mono ?_ ?_
        · rintro r t' s₂ ⟨attempts, hhosts, hex', hcomplete', hgroup⟩
          refine ⟨a :: attempts, ?_, ?_, List.forall_mem_cons.mpr ⟨hcomplete, hcomplete'⟩, ?_⟩
          · rw [List.map_cons, hhosts]
          · simp [hex, hex']
          · intro h p
            rw [mem_group_note, hgroup]
            simp [eq_comm]
        · rintro e t' s₂ ⟨failure, attempts, cut, later, rfl, hhosts, hex', hcomplete', hlegal⟩
          refine ⟨failure, a :: attempts, cut, later, rfl, ?_, ?_,
            List.forall_mem_cons.mpr ⟨hcomplete, hcomplete'⟩, hlegal⟩
          · rw [List.map_cons, List.cons_append, ← hhosts]
          · simp [hex, hex']
      · rintro e t s₁ ⟨failure, cut, rfl, rfl, hex, hlegal⟩
        exact ⟨failure, [], cut, hosts, rfl, rfl, hex, List.forall_mem_nil _, hlegal⟩

/-- A relocation tells of the hosts of a set what their attempts came to. -/
structure Tells (hosts : HostSet) (attempts : List Attempt) (r : Relocation) : Prop where
  hosts_eq : attempts.map Attempt.host = hosts.toList
  placed : ∀ a ∈ attempts, ∀ p, a.host ∈ r.group p ↔ p = a.placement
  disjoint : ∀ p q, p ≠ q → r.group p ∩ r.group q = ∅
  covers : r.succeeded ∪ r.needsAddToTarget ∪ r.needsDroneAssignment = hosts

theorem tells_of_group {hosts : HostSet} {attempts : List Attempt} {r : Relocation}
    (hhosts : attempts.map Attempt.host = hosts.toList)
    (hgroup : ∀ h p, h ∈ r.group p ↔ ∃ a ∈ attempts, a.host = h ∧ a.placement = p) :
    r.Tells hosts attempts := by
  -- no host is relocated twice
  have hnodup : (attempts.map Attempt.host).Nodup := by
    rw [hhosts]
    exact hosts.nodup_toList
  have hinj : ∀ a ∈ attempts, ∀ b ∈ attempts, a.host = b.host → a = b := by
    intro a ha b hb heq
    exact List.inj_on_of_nodup_map hnodup ha hb heq
  refine ⟨hhosts, ?_, ?_, ?_⟩
  · intro a ha p
    rw [hgroup]
    constructor
    · rintro ⟨b, hb, hhost, rfl⟩
      rw [hinj b hb a ha hhost]
    · rintro rfl
      exact ⟨a, ha, rfl, rfl⟩
  · intro p q hne
    ext h
    rw [HostSet.mem_inter, hgroup, hgroup]
    constructor
    · rintro ⟨⟨a, ha, rfl, rfl⟩, b, hb, hhost, rfl⟩
      exact absurd (congrArg Attempt.placement (hinj a ha b hb hhost.symm)) hne
    · intro hin
      exact absurd hin (HostSet.notMem_empty h)
  · ext h
    have hmem : h ∈ hosts ↔ ∃ a ∈ attempts, a.host = h := by
      rw [← HostSet.mem_toList, ← hhosts, List.mem_map]
    rw [HostSet.mem_union, HostSet.mem_union, hmem]
    show (h ∈ r.group .placed ∨ h ∈ r.group .notAdded) ∨ h ∈ r.group .noDrone ↔ _
    rw [hgroup, hgroup, hgroup]
    constructor
    · rintro ((⟨a, ha, hhost, -⟩ | ⟨a, ha, hhost, -⟩) | ⟨a, ha, hhost, -⟩)
      · exact ⟨a, ha, hhost⟩
      · exact ⟨a, ha, hhost⟩
      · exact ⟨a, ha, hhost⟩
    · rintro ⟨a, ha, hhost⟩
      cases hplacement : a.placement with
      | placed => exact .inl (.inl ⟨a, ha, hhost, hplacement⟩)
      | notAdded => exact .inl (.inr ⟨a, ha, hhost, hplacement⟩)
      | noDrone => exact .inr ⟨a, ha, hhost, hplacement⟩

end Relocation

/-- Hosts are relocated in the order of their names. For each of them its descriptor is asked for,
    then it is added, and if that did not fail, a drone is asked for until one is given or the policy
    allows no more calls. Either all calls are answered, and the groups of the result share no host,
    make up all hosts and are settled by the answers; or the run ends with the failure of the first
    call that is not. -/
theorem relocates_in_turn {σ : Type} (fleet : Fleet σ) (policy : RetryPolicy) (hosts : HostSet)
    (s : σ) :
    (∃ r, ∃ attempts : List Attempt,
      ((Relocation.run policy hosts : Run fleet Relocation).run s).result = .ok r ∧
      exchanges ((Relocation.run policy hosts : Run fleet Relocation).run s).trace =
        attempts.flatMap Attempt.exchanges ∧
      (∀ a ∈ attempts, a.Complete policy.maxAttempts) ∧ r.Tells hosts attempts) ∨
    ∃ failure, ∃ attempts : List Attempt, ∃ cut : Cut, ∃ later : List Host,
      ((Relocation.run policy hosts : Run fleet Relocation).run s).result = .error (.tool failure) ∧
      exchanges ((Relocation.run policy hosts : Run fleet Relocation).run s).trace =
        attempts.flatMap Attempt.exchanges ++ cut.exchanges failure ∧
      (∀ a ∈ attempts, a.Complete policy.maxAttempts) ∧ cut.Legal policy.maxAttempts ∧
      hosts.toList = attempts.map Attempt.host ++ cut.host :: later := by
  have hall : (Relocation.run policy hosts : Run fleet Relocation).wp _ _ s :=
    Relocation.wp_all hosts.toList s
  cases hresult : ((Relocation.run policy hosts : Run fleet Relocation).run s).result with
  | ok r =>
      obtain ⟨attempts, hhosts, hex, hcomplete, hgroup⟩ := hall.of_ok hresult
      exact .inl ⟨r, attempts, rfl, hex, hcomplete, Relocation.tells_of_group hhosts hgroup⟩
  | error e =>
      obtain ⟨failure, attempts, cut, later, rfl, hhosts, hex, hcomplete, hlegal⟩ :=
        hall.of_error hresult
      exact .inr ⟨failure, attempts, cut, later, rfl, hex, hcomplete, hlegal, hhosts⟩

end Rehome
