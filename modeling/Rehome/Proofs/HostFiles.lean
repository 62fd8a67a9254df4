import Rehome.Hostnames
import Rehome.Proofs.Linewise
import Mathlib.Data.List.Basic

/-!
# Host files — lists of names that are put together

A file of host names is read line by line (`linewise_hostnameOf?`), so what is put together from two
files names the hosts of both, however the first one ends and the second one begins. A name that
would not be taken for a blank line, a comment or two lines (`Listable`) is read as it was written, so
a file that was written from a set of hosts gives the set back. The main result, `hostnames_combine`,
says both.
-/

namespace Rehome

/-! ## One line -/

theorem linewise_hostnameOf? : Text.Linewise hostnameOf? where
  read_empty := by decide
  read_return line := by rw [hostnameOf?, Text.trim_return, hostnameOf?]

/-- A name that a file can list: it has one line, no blanks around it and is no comment. -/
structure Listable (h : Host) : Prop where
  nonempty : h ≠ ""
  oneLine : '\n' ∉ h.toList
  noBlankFirst : ∀ c ∈ h.toList.head?, Text.isBlank c = false
  noBlankLast : ∀ c ∈ h.toList.getLast?, Text.isBlank c = false
  noComment : h.toList.head? ≠ some '#'

theorem listable_iff {h : Host} :
    Listable h ↔ h ≠ "" ∧ '\n' ∉ h.toList ∧ (h.toList.head?.all fun c => !Text.isBlank c) = true ∧
      (h.toList.getLast?.all fun c => !Text.isBlank c) = true ∧ h.toList.head? ≠ some '#' := by
  simp only [Option.all_eq_true, Bool.not_eq_true']
  constructor
  · rintro ⟨hnonempty, honeLine, hfirst, hlast, hno⟩
    exact ⟨hnonempty, honeLine, hfirst, hlast, hno⟩
  · rintro ⟨hnonempty, honeLine, hfirst, hlast, hno⟩
    exact ⟨hnonempty, honeLine, hfirst, hlast, hno⟩

instance (h : Host) : Decidable (Listable h) := decidable_of_iff' _ listable_iff

theorem Listable.hostnameOf? {h : Host} (hh : Listable h) : hostnameOf? h = some h := by
  have htrim : Text.trim h = h := by
    rw [Text.trim, Text.trimmed, Text.dropBlanks_eq_self hh.noBlankFirst,
      Text.dropFinalBlanks_eq_self hh.noBlankLast, String.ofList_toList]
  rw [Rehome.hostnameOf?, htrim]
  exact if_neg (not_or.mpr ⟨hh.nonempty, hh.noComment⟩)

/-! ## Whole files -/

theorem hostnames_append (before after : String) :
    hostnames (before ++ "\n" ++ after) = hostnames before ∪ hostnames after := by
  rw [hostnames, linewise_hostnameOf?.filterMap_lines_append]
  ext h
  simp only [hostnames, HostSet.mem_ofList, HostSet.mem_union, List.mem_append]

theorem hostnames_intercalate {sep : String} (hsep : sep = "\n" ∨ sep = "\r\n") {names : List Host}
    (hnames : ∀ h ∈ names, Listable h) :
    hostnames (String.intercalate sep names) = .ofList names := by
  have hread : names.filterMap hostnameOf? = names :=
    (List.filterMap_congr fun h hh => (hnames h hh).hostnameOf?).trans List.filterMap_some
  rw [hostnames, linewise_hostnameOf?.filterMap_lines_intercalate hsep fun h hh => (hnames h hh).oneLine,
    hread]

/-- Files of host names can be put together: a line feed between two texts, whatever the one ends and
    the other begins with, makes a file of the hosts of both, and a set of hosts whose names can be
    listed is what its names are read as, in any order, any number of times each and with line ends of
    either kind. -/
theorem hostnames_combine :
    (∀ before after : String,
      hostnames (before ++ "\n" ++ after) = hostnames before ∪ hostnames after) ∧
    ∀ (hosts : HostSet) (names : List Host), (∀ h, h ∈ names ↔ h ∈ hosts) →
      (∀ h ∈ hosts, Listable h) →
      hostnames (String.intercalate "\n" names) = hosts ∧
      hostnames (String.intercalate "\r\n" names) = hosts := by
  refine ⟨hostnames_append, ?_⟩
  intro hosts names hsame hlistable
  have hnames : ∀ h ∈ names, Listable h := fun h hh => hlistable h ((hsame h).mp hh)
  have hset : HostSet.ofList names = hosts := by
    ext h
    rw [HostSet.mem_ofList, hsame]
  rw [hostnames_intercalate (.inl rfl) hnames, hostnames_intercalate (.inr rfl) hnames]
  exact ⟨hset, hset⟩

/-- Names with blanks and a number sign inside, one of them twice. -/
def oddNames : List Host := ["lab #2", "b\rc", "lab #2"]

/-- Both kinds of line ends give the odd names back, and one of them is there once. -/
theorem hostnames_combine_odd :
    (∀ h, h ∈ oddNames ↔ h ∈ HostSet.ofList ["b\rc", "lab #2"]) ∧
    (∀ h ∈ HostSet.ofList ["b\rc", "lab #2"], Listable h) ∧
    hostnames (String.intercalate "\n" oddNames) = .ofList ["b\rc", "lab #2"] ∧
    hostnames (String.intercalate "\r\n" oddNames) = .ofList ["b\rc", "lab #2"] := by
  have hset : HostSet.ofList oddNames = .ofList ["b\rc", "lab #2"] := by decide
  have hsame : ∀ h, h ∈ oddNames ↔ h ∈ HostSet.ofList ["b\rc", "lab #2"] := by
    intro h
    rw [← hset, HostSet.mem_ofList]
  have hlistable : ∀ h ∈ HostSet.ofList ["b\rc", "lab #2"], Listable h := by
    intro h hh
    rw [HostSet.mem_ofList, List.mem_pair] at hh
    rcases hh with rfl | rfl
    · decide
    · decide
  exact ⟨hsame, hlistable, hostnames_combine.2 _ _ hsame hlistable⟩

end Rehome
