import Rehome.Fleet.Memory
import Rehome.Fleet.Scripted
import Rehome.Proofs.Batches
import Rehome.Proofs.Journal

/-!
# Reports — of whom a rollback speaks

A rollback asks for each batch three times and is told three answers (`Round`). What it reports as
still locked is about the hosts of a batch alone, whatever the answers list. What it reports as
restored is not: every host that any answer lists goes into the report, so it may name hosts of
another batch, whose own answer left them out, and hosts that nobody asked for.

The main law (`report_by_rounds`) says what is in a report for all fleets, and when it is what the
answers for their own batches say of the hosts asked for.
-/

namespace Rehome

namespace Rollback

variable {σ : Type} {fleet : Fleet σ}

/-! ## Rounds -/

/-- What the three calls for a batch were answered. -/
structure Round where
  hosts : HostSet
  removed : Effect
  renamed : List Host
  unlocked : List Host

/-- The exchanges of a round. -/
def Round.exchanges (bug : String) (r : Round) : List Exchange :=
  [⟨.remove r.hosts bug, .ok r.removed⟩, ⟨.rename r.hosts .restored, .ok r.renamed⟩,
    ⟨.unlock r.hosts, .ok r.unlocked⟩]

/-- The answer for the round that a host is in lists it as renamed. -/
def RestoredByOwn (rounds : List Round) (h : Host) : Prop :=
  ∃ r ∈ rounds, h ∈ r.hosts ∧ h ∈ r.renamed

/-- The answer for the round that a host is in does not list it as unlocked. -/
def LeftLockedByOwn (rounds : List Round) (h : Host) : Prop :=
  ∃ r ∈ rounds, h ∈ r.hosts ∧ ¬ h ∈ r.unlocked

/-- Rounds ask for hosts, and for each of them in one round only. -/
structure AskFor (rounds : List Round) (hosts : HostSet) : Prop where
  mem_iff : ∀ h, h ∈ hosts ↔ ∃ r ∈ rounds, h ∈ r.hosts
  disjoint : rounds.Pairwise fun r later => ∀ h ∈ r.hosts, ¬ h ∈ later.hosts

/-- Batches of a list without repetition have no host in common. -/
theorem pairwise_disjoint_of_nodup_flatten {batches : List (List Host)}
    (hnodup : batches.flatten.Nodup) :
    batches.Pairwise fun batch later => ∀ h ∈ batch, ¬ h ∈ later := by
  obtain ⟨-, hpairwise⟩ := List.nodup_flatten.mp hnodup
  refine hpairwise.imp ?_
  intro batch later hdisjoint h hbatch hlater
  exact hdisjoint hbatch hlater

/-- Rounds for the batches of hosts ask for these hosts. -/
theorem askFor_of_batches {rounds : List Round} {size : Nat} {hosts : HostSet}
    (hrounds : rounds.map Round.hosts = (batches size hosts).map .ofList) :
    AskFor rounds hosts := by
  have hflatten : (batches size hosts).flatten = hosts.toList := flatten_chunks _ _
  constructor
  · intro h
    calc h ∈ hosts
        ↔ ∃ batch ∈ batches size hosts, h ∈ batch := by
          rw [← HostSet.mem_toList, ← hflatten, List.mem_flatten]
      _ ↔ ∃ names ∈ (batches size hosts).map HostSet.ofList, h ∈ names := by simp
      _ ↔ ∃ r ∈ rounds, h ∈ r.hosts := by
          rw [← hrounds]
          simp
  · have hnodup : (batches size hosts).flatten.Nodup := by
      rw [hflatten]
      exact hosts.nodup_toList
    have hbatches : ((batches size hosts).map HostSet.ofList).Pairwise
        fun names later => ∀ h ∈ names, ¬ h ∈ later := by
      refine List.pairwise_map.mpr ((pairwise_disjoint_of_nodup_flatten hnodup).imp ?_)
      intro batch later hdisjoint h hbatch hlater
      exact hdisjoint h (HostSet.mem_ofList.mp hbatch) (HostSet.mem_ofList.mp hlater)
    rw [← hrounds] at hbatches
    exact List.pairwise_map.mp hbatches

/-! ## What is reported -/

/-- Taking batches back goes round by round. It reports as restored what any answer lists, and as
    still locked what is left of each batch. -/
theorem yields_eachBatch (bug : String) (batches : List (List Host)) (s : σ) :
    (eachBatch bug batches : Run fleet (HostSet × HostSet)).yields (fun reported t _ =>
      ∃ rounds : List Round, rounds.map Round.hosts = batches.map .ofList ∧
        exchanges t = rounds.flatMap (Round.exchanges bug) ∧
        (∀ h, h ∈ reported.1 ↔ ∃ r ∈ rounds, h ∈ r.renamed) ∧
        ∀ h, h ∈ reported.2 ↔ LeftLockedByOwn rounds h) s := by
  induction batches generalizing s with
  | nil =>
      refine ⟨[], rfl, rfl, ?_, ?_⟩
      · intro h
        simp
      · intro h
        simp [LeftLockedByOwn]
  | cons batch batches ih =>
      rw [eachBatch_cons, Run.yields_bind, Run.yields_call]
      intro removed s₁ _
      rw [Run.yields_bind, Run.yields_call]
      intro renamed s₂ _
      rw [Run.yields_bind, Run.yields_call]
      intro unlocked s₃ _
      rw [Run.yields_bind]
      refine (ih s₃).mono ?_
      rintro reported t s₄ ⟨rounds, hhosts, hex, hrestored, hlocked⟩
      refine ⟨⟨.ofList batch, removed, renamed, unlocked⟩ :: rounds, ?_, ?_, ?_, ?_⟩
      · rw [List.map_cons, hhosts, List.map_cons]
      · simp [hex, Round.exchanges]
      · intro h
        show h ∈ HostSet.ofList renamed ∪ reported.1 ↔ _
        rw [HostSet.mem_union, hrestored]
        simp
      · intro h
        show h ∈ (HostSet.ofList batch \ .ofList unlocked) ∪ reported.2 ↔ _
        rw [HostSet.mem_union, hlocked]
        simp [LeftLockedByOwn]

/-- A rollback that ends with a report was answered in rounds for its batches. Still locked are just
    the hosts asked for that the answer for their own batch does not list. Restored are just the
    hosts that any answer lists: none but hosts that were asked for if all answers keep to these, and
    those that the answers for their own batches list if no answer lists another one. -/
theorem report_by_rounds (bug : String) (size : Nat) (hosts : HostSet) (s : σ) {report : Report}
    (hreport : ((run bug size hosts false : Run fleet Report).run s).result = .ok report) :
    ∃ rounds : List Round,
      exchanges ((run bug size hosts false : Run fleet Report).run s).trace =
        rounds.flatMap (Round.exchanges bug) ∧
      rounds.map Round.hosts = report.batches.map .ofList ∧ AskFor rounds hosts ∧
      (∀ h, h ∈ report.stillLocked ↔ LeftLockedByOwn rounds h) ∧
      (∀ h, h ∈ report.restored ↔ ∃ r ∈ rounds, h ∈ r.renamed) ∧
      (report.restored ⊆ hosts ↔ ∀ r ∈ rounds, ∀ h ∈ r.renamed, h ∈ hosts) ∧
      ((∀ h, h ∈ report.restored ↔ RestoredByOwn rounds h) ↔
        ∀ r ∈ rounds, ∀ h ∈ r.renamed, RestoredByOwn rounds h) := by
  have hyields : (run bug size hosts false : Run fleet Report).yields (fun report t _ =>
      ∃ rounds : List Round, exchanges t = rounds.flatMap (Round.exchanges bug) ∧
        rounds.map Round.hosts = report.batches.map .ofList ∧
        report.batches = batches size hosts ∧
        (∀ h, h ∈ report.stillLocked ↔ LeftLockedByOwn rounds h) ∧
        ∀ h, h ∈ report.restored ↔ ∃ r ∈ rounds, h ∈ r.renamed) s := by
    rw [run_eq, Run.yields_bind]
    refine (yields_eachBatch bug (batches size hosts) s).mono ?_
    rintro reported t s' ⟨rounds, hhosts, hex, hrestored, hlocked⟩
    refine ⟨rounds, ?_, hhosts, rfl, hlocked, hrestored⟩
    rw [exchanges_append, hex]
    exact List.append_nil _
  obtain ⟨rounds, hex, hhosts, hbatches, hlocked, hrestored⟩ := hyields.of_ok hreport
  refine ⟨rounds, hex, hhosts, ?_, hlocked, hrestored, ?_, ?_⟩
  · rw [hbatches] at hhosts
    exact askFor_of_batches hhosts
  · rw [HostSet.subset_def]
    constructor
    · intro hsubset r hr h hh
      exact hsubset h ((hrestored h).mpr ⟨r, hr, hh⟩)
    · intro hkeeps h hh
      obtain ⟨r, hr, hrenamed⟩ := (hrestored h).mp hh
      exact hkeeps r hr h hrenamed
  · constructor
    · intro hown r hr h hh
      exact (hown h).mp ((hrestored h).mpr ⟨r, hr, hh⟩)
    · intro hown h
      rw [hrestored h]
      constructor
      · rintro ⟨r, hr, hrenamed⟩
        exact hown r hr h hrenamed
      · rintro ⟨r, hr, -, hrenamed⟩
        exact ⟨r, hr, hrenamed⟩

/-- Two hosts, one of which cannot be renamed. -/
def oneFailing : Scripted Memory where
  inner := { hosts := [("a", {}), ("b", { renameFails := true })] }

/-- A fleet in memory whose first answer to a renaming lists other hosts. -/
def strayFleet : Fleet (Scripted Memory) :=
  Scripted.fleet Memory.fleet [⟨.rename, some 1, .ok ["b", "z"]⟩]

/-- What the calls for two batches of one host each are answered there. -/
def strayRounds : List Round :=
  [⟨.ofList ["a"], .applied, ["b", "z"], ["a"]⟩, ⟨.ofList ["b"], .applied, [], ["b"]⟩]

/-- What the rollback there leaves behind, in batches of one host each. -/
theorem run_stray :
    ((run defaultBug 1 (.ofList ["a", "b"]) false : Run strayFleet Report).run
        oneFailing).result = .ok ⟨[["a"], ["b"]], .ofList ["b", "z"], ∅⟩ ∧
      exchanges ((run defaultBug 1 (.ofList ["a", "b"]) false : Run strayFleet Report).run
        oneFailing).trace = strayRounds.flatMap (Round.exchanges defaultBug) := by
  have hbatches : batches 1 (.ofList ["a", "b"]) = [["a"], ["b"]] := by
    have hlist : (HostSet.ofList ["a", "b"]).toList = ["a", "b"] := by decide
    rw [batches, hlist, chunks_cons, Nat.sub_self, List.take_zero, List.drop_zero, chunks_cons,
      List.take_zero, List.drop_zero, chunks]
  rw [run_eq, hbatches]
  exact ⟨rfl, rfl⟩

/-- Reported as restored are a host that the answer for its own batch does not list, and one that
    nobody asked for. -/
theorem restored_stray :
    ∃ report : Report,
      ((run defaultBug 1 (.ofList ["a", "b"]) false : Run strayFleet Report).run
        oneFailing).result = .ok report ∧
      exchanges ((run defaultBug 1 (.ofList ["a", "b"]) false : Run strayFleet Report).run
        oneFailing).trace = strayRounds.flatMap (Round.exchanges defaultBug) ∧
      "b" ∈ report.restored ∧ ¬ RestoredByOwn strayRounds "b" ∧
      "z" ∈ report.restored ∧ ¬ "z" ∈ HostSet.ofList ["a", "b"] := by
  refine ⟨⟨[["a"], ["b"]], .ofList ["b", "z"], ∅⟩, run_stray.1, run_stray.2, by decide, ?_,
    by decide, by decide⟩
  rintro ⟨r, hr, hin, hrenamed⟩
  rcases List.mem_cons.mp hr with rfl | hr
  · exact absurd hin (by decide)
  · rw [List.mem_singleton.mp hr] at hrenamed
    exact nomatch hrenamed

/-- There the report names another host than those asked for, since an answer does. -/
theorem report_by_stray_rounds :
    ((run defaultBug 1 (.ofList ["a", "b"]) false : Run strayFleet Report).run
      oneFailing).result = .ok ⟨[["a"], ["b"]], .ofList ["b", "z"], ∅⟩ ∧
    ∃ rounds : List Round, rounds.map Round.hosts = [.ofList ["a"], .ofList ["b"]] ∧
      AskFor rounds (.ofList ["a", "b"]) ∧ (∀ h, ¬ LeftLockedByOwn rounds h) ∧
      ∃ r ∈ rounds, "z" ∈ r.renamed := by
  have hreport : ((run defaultBug 1 (.ofList ["a", "b"]) false : Run strayFleet Report).run
      oneFailing).result = .ok ⟨[["a"], ["b"]], .ofList ["b", "z"], ∅⟩ := run_stray.1
  obtain ⟨rounds, -, hhosts, hask, hlocked, hrestored, -⟩ :=
    report_by_rounds defaultBug 1 (.ofList ["a", "b"]) oneFailing hreport
  refine ⟨hreport, rounds, hhosts, hask, ?_, (hrestored "z").mp (by decide)⟩
  intro h hleft
  exact HostSet.notMem_empty h ((hlocked h).mpr hleft)

end Rollback

end Rehome
