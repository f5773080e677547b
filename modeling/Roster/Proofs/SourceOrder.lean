import Roster.Collection
import Roster.Proofs.Relisting

/-! The names that a collection asks about, and their order. Below a folder these are the rows of names that lead,
through folders that are listed and entered, to something named like a source; a folder's own come in order of their
names, before those of its subfolders in order of theirs. -/

namespace Roster

open FileTree

theorem Entry.induction_on_entries {motive : Entry → Prop} (file : ∀ content, motive (.file content))
    (link : ∀ target, motive (.link target))
    (folder : ∀ entries, (∀ name entry, (name, entry) ∈ entries → motive entry) →
      motive (.folder entries)) : ∀ entry, motive entry
  | .file content => file content
  | .link target => link target
  | .folder entries =>
      folder entries fun name entry hmem =>
        have : sizeOf entry < 1 + sizeOf entries := by
          have hlt := List.sizeOf_lt_of_mem hmem
          simp only [Prod.mk.sizeOf_spec] at hlt
          omega
        Entry.induction_on_entries file link folder entry

namespace Collection

/-- The path that a row of names leads to from a folder. -/
def below (folder : Path) (row : List String) : Path :=
  { folder with parts := folder.parts ++ row }

theorem below_inside (folder : Path) (name : String) (row : List String) :
    below (inside folder name) row = below folder (name :: row) := by
  rw [below, below, inside, List.append_assoc, List.singleton_append]

theorem below_inj {folder : Path} {row other : List String}
    (hsame : below folder row = below folder other) : row = other :=
  List.append_cancel_left (congrArg Path.parts hsame)

/-- Which of two rows is collected first. -/
inductive Before : List String → List String → Prop
  | own {first second} (hname : first < second) : Before [first] [second]
  | outside {first second next rest} : Before [first] (second :: next :: rest)
  | folder {first second next other rest more} (hname : first < second) :
      Before (first :: next :: rest) (second :: other :: more)
  | inside {name row other} (hrow : Before row other) : Before (name :: row) (name :: other)

theorem Before.ne_nil {row other : List String} (hbefore : Before row other) :
    row ≠ [] ∧ other ≠ [] := by
  cases hbefore <;> simp

theorem Before.asymm {row other : List String} (hbefore : Before row other) :
    ¬ Before other row := by
  induction hbefore with
  | own hname =>
      intro hback
      cases hback with
      | own hother => exact String.lt_asymm hname hother
      | inside hrow => exact hrow.ne_nil.1 rfl
  | outside =>
      intro hback
      cases hback with
      | inside hrow => exact hrow.ne_nil.2 rfl
  | folder hname =>
      intro hback
      cases hback with
      | folder hother => exact String.lt_asymm hname hother
      | inside hrow => exact String.lt_irrefl _ hname
  | inside hrow ih =>
      intro hback
      cases hback with
      | own hother => exact hrow.ne_nil.1 rfl
      | outside => exact hrow.ne_nil.2 rfl
      | folder hother => exact String.lt_irrefl _ hother
      | inside hother => exact ih hother

instance : Std.Antisymm Before := ⟨fun _ _ hbefore hback => absurd hback hbefore.asymm⟩

instance : Std.Irrefl Before := ⟨fun _ hbefore => hbefore.asymm hbefore⟩

section Sorting

variable {α : Type} {entries : List (String × α)}

theorem mem_byName {entry : String × α} : entry ∈ byName entries ↔ entry ∈ entries :=
  List.mem_mergeSort

/-- Entries of different names stand in order of their names. -/
theorem pairwise_byName (hnodup : (entries.map (·.1)).Nodup) :
    (byName entries).Pairwise fun first second => first.1 < second.1 := by
  have hsorted : (byName entries).Pairwise fun first second => (!decide (second.1 < first.1)) = true := by
    refine List.pairwise_mergeSort ?_ ?_ entries
    · intro first second third hfirst hsecond
      simp only [Bool.not_eq_true', decide_eq_false_iff_not, String.not_lt] at *
      exact String.le_trans hfirst hsecond
    · intro first second
      simp only [Bool.or_eq_true, Bool.not_eq_true', decide_eq_false_iff_not, String.not_lt]
      exact String.le_total ..
  have hdistinct : (byName entries).Pairwise fun first second => first.1 ≠ second.1 := by
    have hperm : ((byName entries).map (·.1)).Perm (entries.map (·.1)) :=
      (List.mergeSort_perm entries _).map _
    exact List.pairwise_map.mp (hperm.nodup_iff.mpr hnodup)
  refine (hsorted.and hdistinct).imp fun {first second} hboth => ?_
  by_contra hnot
  have hle : first.1 ≤ second.1 := by
    simpa only [Bool.not_eq_true', decide_eq_false_iff_not, String.not_lt] using hboth.1
  exact hboth.2 (String.le_antisymm hle (String.not_lt.mp hnot))

end Sorting

/-- The rows below a folder whose paths are asked about. -/
inductive Asked (scope : Scope) : Path → Entry → List String → Prop
  | own {folder entries name entry} (hlisted : isTooLong folder = false)
      (hmem : (name, entry) ∈ entries) (hname : isSourceName name = true)
      (hleaf : entry.isFolder = false) : Asked scope folder (.folder entries) [name]
  | inside {folder entries name entry row} (hlisted : isTooLong folder = false)
      (hmem : (name, entry) ∈ entries) (hentered : scope.excludesFolder (inside folder name) = false)
      (hrow : Asked scope (inside folder name) entry row) :
      Asked scope folder (.folder entries) (name :: row)

variable {scope : Scope}

theorem Asked.isFolder {folder : Path} {entry : Entry} {row : List String}
    (hasked : Asked scope folder entry row) : entry.isFolder = true := by
  cases hasked with
  | own => rfl
  | inside => rfl

theorem Asked.exists_cons {folder : Path} {entry : Entry} {row : List String}
    (hasked : Asked scope folder entry row) : ∃ name rest, row = name :: rest := by
  cases hasked with
  | own => exact ⟨_, _, rfl⟩
  | inside => exact ⟨_, _, rfl⟩

theorem mem_ownSources {folder path : Path} {entries : List (String × Entry)} :
    path ∈ ownSources folder entries ↔ ∃ name entry, (name, entry) ∈ entries ∧
      isSourceName name = true ∧ entry.isFolder = false ∧ path = inside folder name := by
  rw [ownSources, List.mem_map]
  constructor
  · rintro ⟨⟨name, entry⟩, hmem, rfl⟩
    obtain ⟨hmem, hkept⟩ := List.mem_filter.mp hmem
    obtain ⟨hname, hleaf⟩ := Bool.and_eq_true_iff.mp hkept
    exact ⟨name, entry, mem_byName.mp hmem, hname, by simpa using hleaf, rfl⟩
  · rintro ⟨name, entry, hmem, hname, hleaf, rfl⟩
    exact ⟨(name, entry), List.mem_filter.mpr ⟨mem_byName.mpr hmem, by simp [hname, hleaf]⟩, rfl⟩

/-- The subfolders that are entered, each with what is asked about below it. -/
theorem sourcesBelowEach_eq (folder : Path) (entries : List (String × Entry)) :
    sourcesBelowEach scope folder entries =
      (entries.filter fun (name, entry) =>
        entry.isFolder && !scope.excludesFolder (inside folder name)).map
          fun (name, entry) => (name, sourcesBelow scope (inside folder name) entry) := by
  induction entries with
  | nil => rw [sourcesBelowEach, List.filter_nil, List.map_nil]
  | cons first entries ih =>
      obtain ⟨name, entry⟩ := first
      rw [sourcesBelowEach, List.filter_cons]
      split_ifs with hentered
      · rw [List.map_cons, ih]
      · exact ih

theorem mem_sourcesBelowEach {folder : Path} {entries : List (String × Entry)}
    {found : String × List Path} :
    found ∈ sourcesBelowEach scope folder entries ↔ ∃ name entry, (name, entry) ∈ entries ∧
      entry.isFolder = true ∧ scope.excludesFolder (inside folder name) = false ∧
      found = (name, sourcesBelow scope (inside folder name) entry) := by
  rw [sourcesBelowEach_eq, List.mem_map]
  constructor
  · rintro ⟨⟨name, entry⟩, hmem, rfl⟩
    obtain ⟨hmem, hkept⟩ := List.mem_filter.mp hmem
    obtain ⟨hfolder, hentered⟩ := Bool.and_eq_true_iff.mp hkept
    exact ⟨name, entry, hmem, hfolder, by simpa using hentered, rfl⟩
  · rintro ⟨name, entry, hmem, hfolder, hentered, rfl⟩
    exact ⟨(name, entry), List.mem_filter.mpr ⟨hmem, by simp [hfolder, hentered]⟩, rfl⟩

theorem sourcesBelow_folder {folder : Path} (hlisted : isTooLong folder = false)
    (entries : List (String × Entry)) :
    sourcesBelow scope folder (.folder entries) = ownSources folder entries ++
      (byName (sourcesBelowEach scope folder entries)).flatMap (·.2) := by
  rw [sourcesBelow, hlisted]
  rfl

theorem mem_sourcesBelow {folder path : Path} {entry : Entry} :
    path ∈ sourcesBelow scope folder entry ↔
      ∃ row, Asked scope folder entry row ∧ path = below folder row := by
  induction entry using Entry.induction_on_entries generalizing folder path with
  | file content =>
      refine iff_of_false (by simp [sourcesBelow]) ?_
      rintro ⟨row, hasked, -⟩
      cases hasked
  | link target =>
      refine iff_of_false (by simp [sourcesBelow]) ?_
      rintro ⟨row, hasked, -⟩
      cases hasked
  | folder entries ih =>
      cases hlisted : isTooLong folder with
      | true =>
          refine iff_of_false (by simp [sourcesBelow, hlisted]) ?_
          rintro ⟨row, hasked, -⟩
          cases hasked <;> simp_all
      | false =>
          rw [sourcesBelow_folder hlisted, List.mem_append, mem_ownSources, List.mem_flatMap]
          constructor
          · rintro (⟨name, entry, hmem, hname, hleaf, rfl⟩ | ⟨found, hfound, hpath⟩)
            · exact ⟨[name], .own hlisted hmem hname hleaf, rfl⟩
            · obtain ⟨name, entry, hmem, -, hentered, rfl⟩ :=
                mem_sourcesBelowEach.mp (mem_byName.mp hfound)
              obtain ⟨row, hasked, rfl⟩ := (ih name entry hmem).mp hpath
              exact ⟨name :: row, .inside hlisted hmem hentered hasked, below_inside ..⟩
          · rintro ⟨row, hasked, rfl⟩
            cases hasked with
            | own _ hmem hname hleaf => exact Or.inl ⟨_, _, hmem, hname, hleaf, rfl⟩
            | @inside _ _ name entry row _ hmem hentered hrow =>
                refine Or.inr ⟨_, mem_byName.mpr (mem_sourcesBelowEach.mpr
                  ⟨name, entry, hmem, hrow.isFolder, hentered, rfl⟩), ?_⟩
                exact (ih name entry hmem).mpr ⟨row, hrow, (below_inside ..).symm⟩

/-- Which of two paths below a folder is collected first. -/
def PathBefore (folder first second : Path) : Prop :=
  ∃ row other, first = below folder row ∧ second = below folder other ∧ Before row other

theorem pairwise_ownSources {folder : Path} {entries : List (String × Entry)}
    (hnodup : (entries.map (·.1)).Nodup) :
    (ownSources folder entries).Pairwise (PathBefore folder) := by
  rw [ownSources, List.pairwise_map]
  refine ((pairwise_byName hnodup).filter _).imp fun {first second} hname => ?_
  exact ⟨[first.1], [second.1], rfl, rfl, .own hname⟩

theorem nodup_sourcesBelowEach {folder : Path} {entries : List (String × Entry)}
    (hnodup : (entries.map (·.1)).Nodup) :
    ((sourcesBelowEach scope folder entries).map (·.1)).Nodup := by
  rw [sourcesBelowEach_eq, List.map_map]
  exact hnodup.sublist ((List.filter_sublist ..).map _)

theorem exists_row_of_mem {folder path : Path} {entries : List (String × Entry)}
    {found : String × List Path} (hfound : found ∈ sourcesBelowEach scope folder entries)
    (hpath : path ∈ found.2) : ∃ next rest, path = below folder (found.1 :: next :: rest) := by
  obtain ⟨name, entry, -, -, -, rfl⟩ := mem_sourcesBelowEach.mp hfound
  obtain ⟨row, hasked, rfl⟩ := mem_sourcesBelow.mp hpath
  obtain ⟨next, rest, rfl⟩ := hasked.exists_cons
  exact ⟨next, rest, below_inside ..⟩

/-- What is asked about comes in order. -/
theorem pairwise_sourcesBelow {folder : Path} {entry : Entry} (hproper : entry.Proper) :
    (sourcesBelow scope folder entry).Pairwise (PathBefore folder) := by
  induction entry using Entry.induction_on_entries generalizing folder with
  | file content => simp [sourcesBelow]
  | link target => simp [sourcesBelow]
  | folder entries ih =>
      cases hlisted : isTooLong folder with
      | true => simp [sourcesBelow, hlisted]
      | false =>
          have hnodup := hproper.nodup
          rw [sourcesBelow_folder hlisted, List.pairwise_append, List.pairwise_flatMap]
          refine ⟨pairwise_ownSources hnodup, ⟨?_, ?_⟩, ?_⟩
          · intro found hfound
            obtain ⟨name, entry, hmem, -, -, rfl⟩ :=
              mem_sourcesBelowEach.mp (mem_byName.mp hfound)
            refine (ih name entry hmem (hproper.child (Entry.child?_of_mem hnodup hmem))).imp ?_
            rintro _ _ ⟨row, other, rfl, rfl, hbefore⟩
            exact ⟨name :: row, name :: other, below_inside .., below_inside .., .inside hbefore⟩
          · refine (pairwise_byName (nodup_sourcesBelowEach hnodup)).imp_of_mem ?_
            intro found other hfound hother hname path hpath later hlater
            obtain ⟨next, rest, rfl⟩ := exists_row_of_mem (mem_byName.mp hfound) hpath
            obtain ⟨second, more, rfl⟩ := exists_row_of_mem (mem_byName.mp hother) hlater
            exact ⟨_, _, rfl, rfl, .folder hname⟩
          · intro path hpath later hlater
            obtain ⟨name, -, -, -, -, rfl⟩ := mem_ownSources.mp hpath
            obtain ⟨found, hfound, hlater⟩ := List.mem_flatMap.mp hlater
            obtain ⟨next, rest, rfl⟩ := exists_row_of_mem (mem_byName.mp hfound) hlater
            exact ⟨[name], _, rfl, rfl, .outside⟩

end Collection

end Roster
