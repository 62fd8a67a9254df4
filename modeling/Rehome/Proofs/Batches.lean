import Rehome.Proofs.Failures
import Rehome.Proofs.MemoryState
import Rehome.Rollback

/-!
# Batches — taking hosts back a few at a time

How a rollback is cut into batches shows in its calls only. The batches are the hosts in order, all
of one size but perhaps the last, and each of them is asked for by the same three calls
(`Rollback.script`). Whatever the fleet, these calls are made in turn up to the first that is not
answered (`Outcome.Follows`).

On a fleet in memory every call is answered, and what the three calls do to a host
(`MemoryHost.takenBack`) is the same when they are made again. So the batches come to what one call
for all the hosts would, and any two sizes leave the same hosts behind
(`Rollback.same_by_any_batches`).
-/

namespace Rehome

/-! ## Runs that follow a script -/

/-- A run made the calls of a script in turn and did nothing else: all of them, or those up to the
    first that was not answered, and then it ended with the failure of that call. -/
def Outcome.Follows {σ α : Type} (script : List Call) (o : Outcome σ α) : Prop :=
  (∃ a, o.result = .ok a ∧ o.trace.map Event.call? = script.map some ∧ failures o.trace = []) ∨
  ∃ failure made rest, o.result = .error (.tool failure) ∧ script = made ++ rest ∧
    o.trace.map Event.call? = made.map some ∧ EndsAt failure o.trace

namespace Run

variable {σ α β : Type} {fleet : Fleet σ} {script first second : List Call}

/-- A run makes the calls of a script in turn: all of them when it ends with a result, and the first
    ones when it ends early. -/
def Makes (script : List Call) (x : Run fleet α) : Prop :=
  ∀ s, x.wp (fun _ t _ => t.map Event.call? = script.map some)
    (fun _ t _ => ∃ made rest, script = made ++ rest ∧ t.map Event.call? = made.map some) s

theorem makes_pure (a : α) : (Pure.pure a : Run fleet α).Makes [] := by
  intro s
  rfl

theorem makes_call (c : Call) : (call c : Run fleet c.Answer).Makes [c] := by
  intro s
  rw [wp_call]
  exact ⟨fun _ _ _ => rfl, fun _ _ _ => ⟨[c], [], rfl, rfl⟩⟩

theorem makes_bind {x : Run fleet α} {f : α → Run fleet β} (hx : x.Makes first)
    (hf : ∀ a, (f a).Makes second) : (x >>= f).Makes (first ++ second) := by
  intro s
  rw [wp_bind]
  refine wp.mono (hx s) ?_ ?_
  · intro a t s' ht
    refine wp.mono (hf a s') ?_ ?_
    · intro b t' s'' ht'
      rw [List.map_append, List.map_append, ht, ht']
    · rintro e t' s'' ⟨made, rest, rfl, ht'⟩
      exact ⟨first ++ made, rest, (List.append_assoc ..).symm, by simp [ht, ht']⟩
  · rintro e t s' ⟨made, rest, rfl, ht⟩
    exact ⟨made, rest ++ second, List.append_assoc .., ht⟩

/-- A candid run that makes the calls of a script follows it. -/
theorem Makes.follows {x : Run fleet α} (hmakes : x.Makes script) (hcandid : x.Candid) (s : σ) :
    (x.run s).Follows script := by
  rcases hcandid.cases s with ⟨a, hresult, hanswered⟩ | ⟨failure, hresult, hends⟩
  · exact .inl ⟨a, hresult, (hmakes s).of_ok hresult, hanswered⟩
  · obtain ⟨made, rest, hscript, htrace⟩ := (hmakes s).of_error hresult
    exact .inr ⟨failure, made, rest, hresult, hscript, htrace, hends⟩

end Run

/-! ## Hosts that were taken back -/

/-- A host after it was removed, renamed and unlocked. -/
def MemoryHost.takenBack (h : MemoryHost) : MemoryHost :=
  { h with
    locked := false
    inTarget := false
    hasDrone := false
    renamed := if h.renameFails then h.renamed else false }

theorem MemoryHost.takenBack_takenBack (h : MemoryHost) : h.takenBack.takenBack = h.takenBack := by
  cases h with
  | mk _ _ _ _ _ _ renameFails => cases renameFails <;> rfl

namespace Memory

variable {m : Memory} {names others : HostSet}

/-- Of a set, the hosts that can be renamed. -/
def restorable (m : Memory) (names : HostSet) : HostSet :=
  names.filter fun n => (m.host? n).any fun h => !h.renameFails

/-- Of a set, the hosts that there are not. -/
def strangers (m : Memory) (names : HostSet) : HostSet :=
  names.filter fun n => (m.host? n).isNone

theorem updateAll_updateAll (m : Memory) (names : HostSet) (f g : MemoryHost → MemoryHost) :
    (m.updateAll names f).updateAll names g = m.updateAll names fun h => g (f h) := by
  rw [updateAll, updateAll, updateAll]
  simp only [List.map_map]
  congr 1
  refine List.map_congr_left ?_
  rintro ⟨n, h⟩ -
  by_cases hn : n ∈ names
  · simp [hn]
  · simp [hn]

/-- A change that is the same when it is made again can be made to some hosts first. -/
theorem updateAll_union {f : MemoryHost → MemoryHost} (hagain : ∀ h, f (f h) = f h) (m : Memory)
    (names others : HostSet) :
    (m.updateAll names f).updateAll others f = m.updateAll (names ∪ others) f := by
  rw [updateAll, updateAll, updateAll]
  simp only [List.map_map]
  congr 1
  refine List.map_congr_left ?_
  rintro ⟨n, h⟩ -
  by_cases hn : n ∈ names
  · by_cases ho : n ∈ others
    · simp [hn, ho, hagain]
    · simp [hn, ho]
  · by_cases ho : n ∈ others
    · simp [hn, ho]
    · simp [hn, ho]

theorem ofList_those (m : Memory) (names : HostSet) (p : MemoryHost → Bool) :
    HostSet.ofList (m.those names p) = names.filter fun n => (m.host? n).any p := by
  ext n
  rw [HostSet.mem_ofList, HostSet.mem_filter]
  exact List.mem_filter

/-- A change that no test notices changes nothing about which hosts pass it. -/
theorem filter_host?_updateAll {f : MemoryHost → MemoryHost} {p : Option MemoryHost → Bool}
    (hsame : ∀ h, p (h.map f) = p h) (m : Memory) (names changed : HostSet) :
    names.filter (fun n => p ((m.updateAll changed f).host? n)) =
      names.filter fun n => p (m.host? n) := by
  ext n
  rw [HostSet.mem_filter, HostSet.mem_filter, host?_updateAll]
  by_cases hn : n ∈ changed
  · simp only [hn, if_true, hsame]
  · simp only [hn, if_false, Option.map_id']

theorem restorable_updateAll (m : Memory) (names changed : HostSet) (f : MemoryHost → MemoryHost)
    (hsame : ∀ h, (f h).renameFails = h.renameFails) :
    (m.updateAll changed f).restorable names = m.restorable names := by
  refine filter_host?_updateAll (p := fun h => h.any fun h => !h.renameFails) ?_ m names changed
  intro h
  cases h with
  | none => rfl
  | some h => simp [hsame]

theorem strangers_updateAll (m : Memory) (names changed : HostSet) (f : MemoryHost → MemoryHost) :
    (m.updateAll changed f).strangers names = m.strangers names := by
  refine filter_host?_updateAll (p := Option.isNone) ?_ m names changed
  intro h
  exact Option.isNone_map

theorem sdiff_those (m : Memory) (names : HostSet) :
    names \ .ofList (m.those names fun _ => true) = m.strangers names := by
  rw [ofList_those]
  ext n
  rw [HostSet.mem_sdiff, HostSet.mem_filter, strangers, HostSet.mem_filter]
  refine and_congr_right fun hn => ?_
  cases m.host? n with
  | none => simp
  | some h => simp [hn]

end Memory

namespace Rollback

variable {σ : Type} {fleet : Fleet σ} {crash : PassError → Memory → Prop}

/-! ## Batches -/

theorem chunks_cons {α : Type} (size : Nat) (item : α) (items : List α) :
    chunks size (item :: items) = (item :: items.take size) :: chunks size (items.drop size) := by
  rw [chunks]

theorem flatten_chunks {α : Type} (size : Nat) (items : List α) :
    (chunks size items).flatten = items := by
  induction items using chunks.induct size with
  | case1 =>
      rw [chunks]
      rfl
  | case2 item items ih =>
      rw [chunks_cons, List.flatten_cons, ih, List.cons_append, List.take_append_drop]

theorem length_of_mem_chunks {α : Type} {size : Nat} {items part : List α}
    (hpart : part ∈ chunks size items) : part ≠ [] ∧ part.length ≤ size + 1 := by
  induction items using chunks.induct size with
  | case1 =>
      rw [chunks] at hpart
      exact nomatch hpart
  | case2 item items ih =>
      rw [chunks_cons] at hpart
      rcases List.mem_cons.mp hpart with rfl | hlater
      · refine ⟨List.cons_ne_nil _ _, Nat.succ_le_succ ?_⟩
        exact List.length_take_le _ _
      · exact ih hlater

/-- Only the last part may be shorter. -/
theorem length_of_mem_dropLast_chunks {α : Type} {size : Nat} {items part : List α}
    (hpart : part ∈ (chunks size items).dropLast) : part.length = size + 1 := by
  induction items using chunks.induct size with
  | case1 =>
      rw [chunks] at hpart
      exact nomatch hpart
  | case2 item items ih =>
      rw [chunks_cons] at hpart
      cases hrest : items.drop size with
      | nil =>
          rw [hrest, chunks] at hpart
          exact nomatch hpart
      | cons next later =>
          have hlater : chunks size (items.drop size) ≠ [] := by
            rw [hrest, chunks_cons]
            exact List.cons_ne_nil _ _
          rw [List.dropLast_cons_of_ne_nil hlater] at hpart
          rcases List.mem_cons.mp hpart with rfl | hpart
          · -- something is left over, so the first part is full
            have hlen := congrArg List.length hrest
            rw [List.length_drop, List.length_cons] at hlen
            rw [List.length_cons, List.length_take]
            omega
          · exact ih hpart

/-! ## The calls -/

/-- The calls that take batches back. -/
def script (bug : String) (batches : List (List Host)) : List Call :=
  batches.flatMap fun batch =>
    [.remove (.ofList batch) bug, .rename (.ofList batch) .restored, .unlock (.ofList batch)]

theorem eachBatch_cons (bug : String) (batch : List Host) (batches : List (List Host)) :
    (eachBatch bug (batch :: batches) : Run fleet (HostSet × HostSet)) =
      (do
        let _ ← Run.call (.remove (.ofList batch) bug)
        let renamed ← Run.call (.rename (.ofList batch) .restored)
        let unlocked ← Run.call (.unlock (.ofList batch))
        let r ← eachBatch bug batches
        return (.ofList renamed ∪ r.1, (.ofList batch \ .ofList unlocked) ∪ r.2)) := rfl

theorem makes_eachBatch (bug : String) (batches : List (List Host)) :
    (eachBatch bug batches : Run fleet (HostSet × HostSet)).Makes (script bug batches) := by
  induction batches with
  | nil => exact Run.makes_pure _
  | cons batch batches ih =>
      have hscript : script bug (batch :: batches) = [.remove (.ofList batch) bug] ++
          ([.rename (.ofList batch) .restored] ++
            ([.unlock (.ofList batch)] ++ (script bug batches ++ []))) := by
        rw [List.append_nil]
        rfl
      rw [eachBatch_cons, hscript]
      refine Run.makes_bind (Run.makes_call _) fun removed => ?_
      refine Run.makes_bind (Run.makes_call _) fun renamed => ?_
      refine Run.makes_bind (Run.makes_call _) fun unlocked => ?_
      exact Run.makes_bind ih fun r => Run.makes_pure _

theorem composed_eachBatch (bug : String) (batches : List (List Host)) :
    (eachBatch bug batches : Run fleet (HostSet × HostSet)).Composed := by
  induction batches with
  | nil => exact .pure _
  | cons batch batches ih =>
      rw [eachBatch_cons]
      refine .bind (.call _) fun removed => .bind (.call _) fun renamed => ?_
      exact .bind (.call _) fun unlocked => .bind ih fun r => .pure _

theorem run_dry (bug : String) (size : Nat) (hosts : HostSet) (s : σ) :
    (run bug size hosts true : Run fleet Report).run s =
      ⟨.ok { batches := batches size hosts }, [], s⟩ := rfl

theorem run_eq (bug : String) (size : Nat) (hosts : HostSet) :
    (run bug size hosts false : Run fleet Report) =
      (do
        let r ← eachBatch bug (batches size hosts)
        return { batches := batches size hosts, restored := r.1, stillLocked := r.2 }) := rfl

theorem makes_run (bug : String) (size : Nat) (hosts : HostSet) :
    (run bug size hosts false : Run fleet Report).Makes (script bug (batches size hosts)) := by
  rw [run_eq, ← List.append_nil (script bug (batches size hosts))]
  exact Run.makes_bind (makes_eachBatch bug _) fun r => Run.makes_pure _

theorem composed_run (bug : String) (size : Nat) (hosts : HostSet) :
    (run bug size hosts false : Run fleet Report).Composed := by
  rw [run_eq]
  exact .bind (composed_eachBatch bug _) fun r => .pure _

/-! ## On a fleet in memory -/

/-- The calls for one batch take its hosts back. -/
theorem state_batch (bug : String) (hosts : HostSet) (m : Memory) :
    (Memory.reply (.unlock hosts) (Memory.reply (.rename hosts .restored)
      (Memory.reply (.remove hosts bug) m).2).2).2 = m.updateAll hosts MemoryHost.takenBack := by
  show ((m.updateAll hosts fun h => { h with inTarget := false, hasDrone := false }).updateAll hosts
    fun h => if h.renameFails then h else { h with renamed := false }).updateAll hosts
      (fun h => { h with locked := false }) = _
  rw [Memory.updateAll_updateAll, Memory.updateAll_updateAll]
  congr 1
  funext h
  cases h with
  | mk _ _ _ _ _ _ renameFails => cases renameFails <;> rfl

/-- The calls for one batch, and whatever is done after them. -/
theorem ends_batch {β : Type} {post : β → Memory → Prop} (bug : String) (hosts : HostSet)
    (m : Memory) {next : List Host → List Host → Run Memory.fleet β}
    (hnext : ∀ renamed unlocked, .ofList renamed = m.restorable hosts →
      hosts \ .ofList unlocked = m.strangers hosts →
      (next renamed unlocked).ends post crash (m.updateAll hosts MemoryHost.takenBack)) :
    (do
      let _ ← Run.call (.remove hosts bug)
      let renamed ← Run.call (.rename hosts .restored)
      let unlocked ← Run.call (.unlock hosts)
      next renamed unlocked : Run Memory.fleet β).ends post crash m := by
  have hremove : Memory.fleet.reply (.remove hosts bug) m =
      (.ok .applied, (Memory.reply (.remove hosts bug) m).2) := rfl
  refine Run.ends_bind (Run.ends_call hremove ?_)
  generalize hm₁ : (Memory.reply (.remove hosts bug) m).2 = m₁
  have hrename : Memory.fleet.reply (.rename hosts .restored) m₁ =
      (.ok (m₁.those hosts fun h => !h.renameFails),
        (Memory.reply (.rename hosts .restored) m₁).2) := rfl
  refine Run.ends_bind (Run.ends_call hrename ?_)
  generalize hm₂ : (Memory.reply (.rename hosts .restored) m₁).2 = m₂
  have hunlock : Memory.fleet.reply (.unlock hosts) m₂ =
      (.ok (m₂.those hosts fun _ => true), (Memory.reply (.unlock hosts) m₂).2) := rfl
  refine Run.ends_bind (Run.ends_call hunlock ?_)
  have hrestorable : HostSet.ofList (m₁.those hosts fun h => !h.renameFails) =
      m.restorable hosts := by
    rw [Memory.ofList_those, ← hm₁]
    exact Memory.restorable_updateAll m hosts hosts _ fun _ => rfl
  have hstrangers : hosts \ .ofList (m₂.those hosts fun _ => true) = m.strangers hosts := by
    rw [Memory.sdiff_those, ← hm₂, ← hm₁]
    exact (Memory.strangers_updateAll _ _ _ _).trans (Memory.strangers_updateAll _ _ _ _)
  rw [← hm₂, ← hm₁, state_batch, hm₁, hm₂]
  exact hnext _ _ hrestorable hstrangers

/-- Batches come to what all of their hosts at once would. -/
theorem ends_eachBatch (bug : String) (batches : List (List Host)) (m : Memory) :
    (eachBatch bug batches : Run Memory.fleet (HostSet × HostSet)).ends (fun r m' =>
      r = (m.restorable (.ofList batches.flatten), m.strangers (.ofList batches.flatten)) ∧
      m' = m.updateAll (.ofList batches.flatten) MemoryHost.takenBack) crash m := by
  induction batches generalizing m with
  | nil => exact Run.ends_pure ⟨rfl, by simp [Memory.updateAll]⟩
  | cons batch batches ih =>
      have hhosts : HostSet.ofList (batch :: batches).flatten =
          .ofList batch ∪ .ofList batches.flatten := by
        ext n
        simp
      rw [eachBatch_cons, hhosts]
      refine ends_batch bug (.ofList batch) m fun renamed unlocked hrenamed hunlocked => ?_
      refine Run.ends_bind ((ih _).mono ?_)
      rintro r m' ⟨rfl, rfl⟩
      refine Run.ends_pure ⟨?_, Memory.updateAll_union MemoryHost.takenBack_takenBack m _ _⟩
      -- the hosts of the other batches can be renamed as before, or are as unknown
      have hrestorable : (m.updateAll (.ofList batch) MemoryHost.takenBack).restorable
          (.ofList batches.flatten) = m.restorable (.ofList batches.flatten) :=
        Memory.restorable_updateAll m _ _ MemoryHost.takenBack fun _ => rfl
      rw [hrenamed, hunlocked, hrestorable, Memory.strangers_updateAll]
      exact Prod.ext (HostSet.filter_union _ _ _).symm (HostSet.filter_union _ _ _).symm

/-- A rollback of a fleet in memory, by batches of any size. -/
theorem ends_run (bug : String) (size : Nat) (hosts : HostSet) (m : Memory) :
    (run bug size hosts false : Run Memory.fleet Report).ends (fun report m' =>
      report = ⟨batches size hosts, m.restorable hosts, m.strangers hosts⟩ ∧
      m' = m.updateAll hosts MemoryHost.takenBack) crash m := by
  have hhosts : HostSet.ofList (batches size hosts).flatten = hosts := by
    rw [batches, flatten_chunks, HostSet.ofList_toList]
  rw [run_eq]
  refine Run.ends_bind ((ends_eachBatch bug (batches size hosts) m).mono ?_)
  rintro r m' ⟨rfl, rfl⟩
  rw [hhosts]
  exact Run.ends_pure ⟨rfl, rfl⟩

/-! ## Any size of batches -/

/-- The batches of a rollback are the hosts in order, none of them empty and all of the size asked
    for but perhaps the last. On a fleet in memory every size of batches gives names back to just the
    hosts that can be renamed, leaves just the unknown ones locked, and takes back each known host
    once. On any fleet the calls for the batches are made in turn, up to the first that is not
    answered, and a dry run makes none. -/
theorem same_by_any_batches (bug : String) (size : Nat) (hosts : HostSet) :
    ((batches size hosts).flatten = hosts.toList ∧
      (∀ batch ∈ batches size hosts, batch ≠ [] ∧ batch.length ≤ max size 1) ∧
      ∀ batch ∈ (batches size hosts).dropLast, batch.length = max size 1) ∧
    (∀ start : Memory,
      ((run bug size hosts false : Run Memory.fleet Report).run start).result =
        .ok ⟨batches size hosts, start.restorable hosts, start.strangers hosts⟩ ∧
      (∀ n, ((run bug size hosts false : Run Memory.fleet Report).run start).state.host? n =
        if n ∈ hosts then (start.host? n).map MemoryHost.takenBack else start.host? n) ∧
      ∀ other, ((run bug other hosts false : Run Memory.fleet Report).run start).state =
        ((run bug size hosts false : Run Memory.fleet Report).run start).state) ∧
    ∀ {σ : Type} (fleet : Fleet σ) (s : σ),
      ((run bug size hosts false : Run fleet Report).run s).Follows
        (script bug (batches size hosts)) ∧
      (∀ report, ((run bug size hosts false : Run fleet Report).run s).result = .ok report →
        report.batches = batches size hosts) ∧
      (run bug size hosts true : Run fleet Report).run s =
        ⟨.ok { batches := batches size hosts }, [], s⟩ := by
  have hsize : size - 1 + 1 = max size 1 := by omega
  refine ⟨⟨flatten_chunks _ _, fun batch hbatch => ?_, fun batch hbatch => ?_⟩, ?_, ?_⟩
  · rw [← hsize]
    exact length_of_mem_chunks hbatch
  · rw [← hsize]
    exact length_of_mem_dropLast_chunks hbatch
  · intro start
    have hended : ∀ size, ((run bug size hosts false : Run Memory.fleet Report).run start).result =
          .ok ⟨batches size hosts, start.restorable hosts, start.strangers hosts⟩ ∧
        ((run bug size hosts false : Run Memory.fleet Report).run start).state =
          start.updateAll hosts MemoryHost.takenBack := by
      intro size
      -- no call of it fails, so it cannot end early
      have hends : (run bug size hosts false : Run Memory.fleet Report).ends _ (fun _ _ => False)
          start := ends_run bug size hosts start
      rcases hends.cases with ⟨report, hresult, rfl, hstate⟩ | ⟨e, -, hnever⟩
      · exact ⟨hresult, hstate⟩
      · exact hnever.elim
    obtain ⟨hresult, hstate⟩ := hended size
    refine ⟨hresult, fun n => ?_, fun other => ?_⟩
    · rw [hstate, Memory.host?_updateAll]
      by_cases hn : n ∈ hosts
      · simp [hn]
      · simp [hn]
    · rw [hstate, (hended other).2]
  · intro σ fleet s
    refine ⟨?_, fun report hreport => ?_, run_dry bug size hosts s⟩
    · exact (makes_run bug size hosts).follows (composed_run bug size hosts).candid s
    · rw [run_eq] at hreport
      obtain ⟨r, t, s', -, hreport⟩ := Run.ok_of_bind hreport
      cases hreport
      rfl

end Rollback

end Rehome
