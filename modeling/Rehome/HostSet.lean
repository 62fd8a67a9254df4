/-!
# Host sets — one value for each set

Hosts are told apart by their names and ordered by the code points of the names. A set of hosts
is kept as the strictly ascending list of its members, so two sets with the same members are the
same value (`HostSet.ext`) and a set has one order in which it is walked and printed.

The view of a set is membership: every operation below has a lemma that says which hosts are in
its result.
-/

namespace Rehome

/-- The name of a host. Names are compared code point by code point. -/
abbrev Host := String

/-- A finite set of hosts, as the strictly ascending list of its members. -/
structure HostSet where
  toList : List Host
  ascending : toList.Pairwise (· < ·)
  deriving DecidableEq

namespace HostSet

/-! ## Ascending lists of names -/

/-- Put a name at its place in an ascending list; a name that is there already is not repeated. -/
def insertAscending (h : Host) : List Host → List Host
  | [] => [h]
  | x :: xs =>
    if h < x then h :: x :: xs
    else if x < h then x :: insertAscending h xs
    else x :: xs

private theorem eq_of_not_lt {a b : Host} (h₁ : ¬ a < b) (h₂ : ¬ b < a) : a = b :=
  String.le_antisymm (String.not_lt.mp h₂) (String.not_lt.mp h₁)

theorem mem_insertAscending {h k : Host} {xs : List Host} :
    k ∈ insertAscending h xs ↔ k = h ∨ k ∈ xs := by
  induction xs with
  | nil => simp [insertAscending]
  | cons x xs ih =>
    unfold insertAscending
    split
    · simp
    · split
      · simp only [List.mem_cons, ih]
        constructor
        · rintro (rfl | rfl | hk)
          · exact .inr (.inl rfl)
          · exact .inl rfl
          · exact .inr (.inr hk)
        · rintro (rfl | rfl | hk)
          · exact .inr (.inl rfl)
          · exact .inl rfl
          · exact .inr (.inr hk)
      · rename_i h₁ h₂
        have heq : h = x := eq_of_not_lt h₁ h₂
        subst heq
        simp

theorem pairwise_insertAscending {h : Host} {xs : List Host} (hs : xs.Pairwise (· < ·)) :
    (insertAscending h xs).Pairwise (· < ·) := by
  induction xs with
  | nil => simp [insertAscending]
  | cons x xs ih =>
    have hx := List.pairwise_cons.mp hs
    unfold insertAscending
    split
    · rename_i hlt
      refine List.pairwise_cons.mpr ⟨fun y hy => ?_, hs⟩
      rcases List.mem_cons.mp hy with rfl | hy
      · exact hlt
      · exact String.lt_trans hlt (hx.1 y hy)
    · split
      · rename_i hgt
        refine List.pairwise_cons.mpr ⟨fun y hy => ?_, ih hx.2⟩
        rcases mem_insertAscending.mp hy with rfl | hy
        · exact hgt
        · exact hx.1 y hy
      · exact hs

/-- Two ascending lists with the same members are the same list. -/
theorem ascending_ext {xs ys : List Host} (hx : xs.Pairwise (· < ·)) (hy : ys.Pairwise (· < ·))
    (h : ∀ k, k ∈ xs ↔ k ∈ ys) : xs = ys := by
  induction xs generalizing ys with
  | nil =>
    cases ys with
    | nil => rfl
    | cons y ys => exact absurd ((h y).mpr (List.mem_cons_self ..)) (by simp)
  | cons x xs ih =>
    cases ys with
    | nil => exact absurd ((h x).mp (List.mem_cons_self ..)) (by simp)
    | cons y ys =>
      have hx' := List.pairwise_cons.mp hx
      have hy' := List.pairwise_cons.mp hy
      have hxy : x = y := by
        rcases List.mem_cons.mp ((h x).mp (List.mem_cons_self ..)) with e | hxin
        · exact e
        · rcases List.mem_cons.mp ((h y).mpr (List.mem_cons_self ..)) with e | hyin
          · exact e.symm
          · exact absurd (String.lt_trans (hx'.1 y hyin) (hy'.1 x hxin)) (String.lt_irrefl _)
      subst hxy
      congr 1
      refine ih hx'.2 hy'.2 fun k => ?_
      constructor
      · intro hk
        rcases List.mem_cons.mp ((h k).mp (List.mem_cons_of_mem _ hk)) with rfl | hk'
        · exact absurd (hx'.1 k hk) (String.lt_irrefl _)
        · exact hk'
      · intro hk
        rcases List.mem_cons.mp ((h k).mpr (List.mem_cons_of_mem _ hk)) with rfl | hk'
        · exact absurd (hy'.1 k hk) (String.lt_irrefl _)
        · exact hk'

/-! ## Membership -/

instance : Membership Host HostSet := ⟨fun s h => h ∈ s.toList⟩

instance (h : Host) (s : HostSet) : Decidable (h ∈ s) :=
  inferInstanceAs (Decidable (h ∈ s.toList))

@[simp] theorem mem_toList {h : Host} {s : HostSet} : h ∈ s.toList ↔ h ∈ s := Iff.rfl

/-- Sets with the same members are equal. -/
@[ext] theorem ext {s t : HostSet} (h : ∀ k, k ∈ s ↔ k ∈ t) : s = t := by
  cases s with
  | mk xs hx =>
    cases t with
    | mk ys hy =>
      have hxy : xs = ys := ascending_ext hx hy h
      subst hxy
      rfl

instance : HasSubset HostSet := ⟨fun s t => ∀ h, h ∈ s → h ∈ t⟩

theorem subset_def {s t : HostSet} : s ⊆ t ↔ ∀ h, h ∈ s → h ∈ t := Iff.rfl

/-! ## Building sets -/

/-- The set without members. -/
def empty : HostSet := ⟨[], .nil⟩

instance : EmptyCollection HostSet := ⟨empty⟩

instance : Inhabited HostSet := ⟨empty⟩

@[simp] theorem notMem_empty (h : Host) : ¬ h ∈ (∅ : HostSet) := List.not_mem_nil

@[simp] theorem toList_empty : (∅ : HostSet).toList = [] := rfl

/-- The set with one more member. -/
def insert (h : Host) (s : HostSet) : HostSet :=
  ⟨insertAscending h s.toList, pairwise_insertAscending s.ascending⟩

@[simp] theorem mem_insert {h k : Host} {s : HostSet} : k ∈ s.insert h ↔ k = h ∨ k ∈ s :=
  mem_insertAscending

/-- The members of a list, in any order and any number of times each. -/
def ofList (hosts : List Host) : HostSet := hosts.foldr insert ∅

@[simp] theorem ofList_nil : ofList [] = ∅ := rfl

@[simp] theorem ofList_cons (h : Host) (hosts : List Host) :
    ofList (h :: hosts) = (ofList hosts).insert h := rfl

@[simp] theorem mem_ofList {h : Host} {hosts : List Host} : h ∈ ofList hosts ↔ h ∈ hosts := by
  induction hosts with
  | nil => simp
  | cons x xs ih => simp [ih]

@[simp] theorem ofList_toList (s : HostSet) : ofList s.toList = s := by
  ext h
  simp

theorem ne_empty_of_mem {h : Host} {s : HostSet} (hh : h ∈ s) : s ≠ ∅ := by
  rintro rfl
  exact notMem_empty h hh

theorem eq_empty_iff {s : HostSet} : s = ∅ ↔ ∀ h, ¬ h ∈ s := by
  constructor
  · rintro rfl
    exact notMem_empty
  · intro hnone
    ext h
    exact ⟨fun hh => absurd hh (hnone h), fun hh => absurd hh (notMem_empty h)⟩

theorem singleton_ne_empty (h : Host) : ofList [h] ≠ ∅ :=
  ne_empty_of_mem (mem_ofList.mpr (List.mem_singleton_self h))

theorem singleton_subset {h : Host} {s : HostSet} (hh : h ∈ s) : ofList [h] ⊆ s := by
  intro k hk
  rw [List.mem_singleton.mp (mem_ofList.mp hk)]
  exact hh

/-- The members that pass a test. -/
def filter (p : Host → Bool) (s : HostSet) : HostSet :=
  ⟨s.toList.filter p, s.ascending.filter p⟩

@[simp] theorem mem_filter {p : Host → Bool} {h : Host} {s : HostSet} :
    h ∈ s.filter p ↔ h ∈ s ∧ p h = true :=
  List.mem_filter

/-! ## Combining sets -/

instance : Union HostSet := ⟨fun s t => s.toList.foldr insert t⟩

@[simp] theorem mem_union {h : Host} {s t : HostSet} : h ∈ s ∪ t ↔ h ∈ s ∨ h ∈ t := by
  have key : ∀ xs : List Host, h ∈ xs.foldr insert t ↔ h ∈ xs ∨ h ∈ t := by
    intro xs
    induction xs with
    | nil => simp
    | cons x xs ih => simp [ih, or_assoc]
  exact key s.toList

theorem filter_union (p : Host → Bool) (s t : HostSet) :
    (s ∪ t).filter p = s.filter p ∪ t.filter p := by
  ext h
  simp only [mem_filter, mem_union]
  exact or_and_right

instance : Inter HostSet := ⟨fun s t => s.filter (· ∈ t)⟩

@[simp] theorem mem_inter {h : Host} {s t : HostSet} : h ∈ s ∩ t ↔ h ∈ s ∧ h ∈ t := by
  show h ∈ s.filter (· ∈ t) ↔ _
  simp

instance : SDiff HostSet := ⟨fun s t => s.filter (¬ · ∈ t)⟩

@[simp] theorem mem_sdiff {h : Host} {s t : HostSet} : h ∈ s \ t ↔ h ∈ s ∧ ¬ h ∈ t := by
  show h ∈ s.filter (¬ · ∈ t) ↔ _
  simp

theorem sdiff_self (s : HostSet) : s \ s = ∅ := by
  ext h
  simp

theorem sdiff_empty (s : HostSet) : s \ ∅ = s := by
  ext h
  simp

theorem union_empty (s : HostSet) : s ∪ ∅ = s := by
  ext h
  simp

theorem sdiff_sdiff (s t : HostSet) : s \ (s \ t) = s ∩ t := by
  ext h
  rw [mem_sdiff, mem_sdiff, mem_inter]
  exact and_congr_right fun hs => by simp [hs]

theorem sdiff_eq_empty_iff {s t : HostSet} : s \ t = ∅ ↔ s ⊆ t := by
  rw [eq_empty_iff]
  constructor
  · intro hnone h hs
    exact Decidable.byContradiction fun ht => hnone h (mem_sdiff.mpr ⟨hs, ht⟩)
  · intro hsub h hh
    obtain ⟨hs, ht⟩ := mem_sdiff.mp hh
    exact ht (hsub h hs)

theorem inter_eq_empty_iff {s t : HostSet} : s ∩ t = ∅ ↔ ∀ h, h ∈ s → ¬ h ∈ t := by
  rw [eq_empty_iff]
  exact forall_congr' fun h => by rw [mem_inter, not_and]

/-! ## Asking about sets -/

/-- Whether the set has no members. -/
def isEmpty (s : HostSet) : Bool := s.toList.isEmpty

theorem isEmpty_iff {s : HostSet} : s.isEmpty = true ↔ s = ∅ := by
  constructor
  · intro h
    have hl : s.toList = [] := List.isEmpty_iff.mp h
    ext k
    constructor
    · intro hk
      have : k ∈ s.toList := hk
      rw [hl] at this
      exact absurd this List.not_mem_nil
    · intro hk
      exact absurd hk (notMem_empty k)
  · rintro rfl
    rfl

/-- The number of members. -/
def size (s : HostSet) : Nat := s.toList.length

/-- The smallest member. -/
def first? (s : HostSet) : Option Host := s.toList.head?

/-- The union of a list of sets. -/
def unions (sets : List HostSet) : HostSet := sets.foldr (· ∪ ·) ∅

@[simp] theorem mem_unions {h : Host} {sets : List HostSet} :
    h ∈ unions sets ↔ ∃ s ∈ sets, h ∈ s := by
  induction sets with
  | nil => simp [unions]
  | cons s sets ih =>
    have : unions (s :: sets) = s ∪ unions sets := rfl
    simp [this, ih]

/-- Whether no host is in two sets of the list: the sizes add up to the size of the union. -/
def pairwiseDisjoint (sets : List HostSet) : Bool :=
  (unions sets).size == sets.foldl (fun n s => n + s.size) 0

end HostSet

end Rehome
