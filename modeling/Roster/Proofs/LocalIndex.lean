import Mathlib.Data.List.Induction
import Roster.Proofs.IndexHistory
import Roster.Scan.File

/-! An index in between changes nothing. Merging depends on matches only through the order in which their targets first
occur and through the classes of each target, and an index that lists its matches target by target has kept both. So
the matches of a file may be gathered in an index of their own and then merged, as well as be merged one by one. -/

namespace Roster.Index

/-- Matches that merge alike: their targets first occur in the same order, and each has the same classes. -/
structure Alike (found other : List Match) : Prop where
  targets : (found.map (·.target)).eraseDups = (other.map (·.target)).eraseDups
  classes : ∀ target, classesFor target found = classesFor target other

/-- What merging does to the first list, and what it leaves for the others. -/
theorem merge_cons (key : String) (known : List String) (rest : List (String × List String))
    (found : List Match) :
    merge ⟨(key, known) :: rest⟩ found =
      ⟨(key, known ++ classesFor key found) ::
        (merge ⟨rest⟩ (found.filter (·.target ≠ key))).entries⟩ := by
  induction found generalizing known rest with
  | nil =>
      show Index.mk ((key, known) :: rest) = ⟨(key, known ++ []) :: rest⟩
      rw [List.append_nil]
  | cons first found ih =>
      show merge (record ⟨(key, known) :: rest⟩ first) found = _
      -- the match belongs to the first list, or it is left for the others
      by_cases hkey : first.target = key
      · have hrecord : record ⟨(key, known) :: rest⟩ first =
            ⟨(key, known ++ [first.className]) :: rest⟩ := by
          simp [record, appendTo, hkey]
        rw [hrecord, ih, List.append_assoc]
        simp [classesFor, hkey]
      · have hrecord : record ⟨(key, known) :: rest⟩ first =
            ⟨(key, known) :: (record ⟨rest⟩ first).entries⟩ := by
          simp [record, appendTo, Ne.symm hkey]
        rw [hrecord, ih]
        simp [classesFor, hkey, merge]

theorem eraseDups_filter (keep : String → Bool) (names : List String) :
    (names.filter keep).eraseDups = names.eraseDups.filter keep := by
  -- from the end: whether the last name is new depends on those before it
  induction names using List.reverseRecOn with
  | nil => rfl
  | append_singleton names name ih =>
      rw [List.filter_append, eraseDups_concat]
      by_cases hkeep : keep name = true
      · have hmem : name ∈ names.filter keep ↔ name ∈ names := by simp [hkeep]
        rw [List.filter_cons_of_pos hkeep, List.filter_nil, eraseDups_concat, ih]
        simp only [hmem]
        split_ifs
        · rfl
        · rw [List.filter_append, List.filter_cons_of_pos hkeep, List.filter_nil]
      · rw [List.filter_cons_of_neg hkeep, List.filter_nil, List.append_nil, ih]
        split_ifs
        · rfl
        · rw [List.filter_append, List.filter_cons_of_neg hkeep, List.filter_nil, List.append_nil]

theorem classesFor_filter_ne (target key : String) (found : List Match) :
    classesFor target (found.filter (·.target ≠ key)) =
      if target = key then [] else classesFor target found := by
  rw [classesFor, List.filter_filter]
  split_ifs with hkey
  · simp [hkey]
  · congr 1
    apply List.filter_congr
    intro one _
    by_cases htarget : one.target = target
    · simp [htarget, hkey]
    · simp [htarget]

theorem Alike.filter_ne {found other : List Match} (halike : Alike found other) (key : String) :
    Alike (found.filter (·.target ≠ key)) (other.filter (·.target ≠ key)) where
  targets := by
    have hmap (row : List Match) :
        (row.filter (·.target ≠ key)).map (·.target) = (row.map (·.target)).filter (· ≠ key) := by
      rw [List.filter_map]
      rfl
    rw [hmap, hmap, eraseDups_filter, eraseDups_filter, halike.targets]
  classes target := by
    rw [classesFor_filter_ne, classesFor_filter_ne, halike.classes]

theorem merge_empty (found : List Match) :
    ({} : Index).merge found =
      ⟨(found.map (·.target)).eraseDups.map fun key => (key, classesFor key found)⟩ := by
  have hentries := (reflects_empty.merge found).entries_eq
  rw [List.nil_append, List.nil_append] at hentries
  exact congrArg Index.mk hentries

/-- Matches that are alike come to the same index, whatever they are merged into. The induction is on the lists that
are there already; what is left at the end goes to an empty index, which the matches alone tell. -/
theorem Alike.merge_eq {found other : List Match} (halike : Alike found other) (index : Index) :
    index.merge found = index.merge other := by
  obtain ⟨entries⟩ := index
  induction entries generalizing found other with
  | nil =>
      show ({} : Index).merge found = ({} : Index).merge other
      rw [merge_empty, merge_empty, halike.targets]
      simp only [halike.classes]
  | cons entry rest ih =>
      obtain ⟨key, known⟩ := entry
      rw [merge_cons, merge_cons, halike.classes, ih (halike.filter_ne key)]

theorem eraseDups_run {name : String} {run : List String} (hsome : run ≠ [])
    (hrun : ∀ other ∈ run, other = name) : run.eraseDups = [name] := by
  obtain ⟨first, rest, rfl⟩ := List.exists_cons_of_ne_nil hsome
  obtain ⟨rfl, hrest⟩ := List.forall_mem_cons.mp hrun
  have hnone : (rest.filter fun other => !other == first) = [] := by
    rw [List.filter_eq_nil_iff]
    intro other hother
    simp [hrest other hother]
  rw [List.eraseDups_cons, hnone]
  rfl

/-- Names that stand in runs, one run for each, first occur in the order of the runs. -/
theorem eraseDups_flatMap {names : List String} {run : String → List String} (hnodup : names.Nodup)
    (hsome : ∀ name ∈ names, run name ≠ []) (hrun : ∀ name, ∀ other ∈ run name, other = name) :
    (names.flatMap run).eraseDups = names := by
  induction names with
  | nil => rfl
  | cons name rest ih =>
      obtain ⟨hnew, hrest⟩ := List.nodup_cons.mp hnodup
      obtain ⟨hfirst, hlater⟩ := List.forall_mem_cons.mp hsome
      -- a name of this run in a later one would be the name of both
      have hapart : (rest.flatMap run).removeAll (run name) = rest.flatMap run := by
        apply List.filter_eq_self.mpr
        intro other hother
        obtain ⟨later, hmem, hin⟩ := List.mem_flatMap.mp hother
        have hne : other ∉ run name := by
          intro hsame
          rw [← hrun later other hin, hrun name other hsame] at hmem
          exact hnew hmem
        simpa using hne
      rw [List.flatMap_cons, List.eraseDups_append, hapart, ih hrest hlater,
        eraseDups_run hfirst (hrun name)]
      rfl

theorem length_toMatches (index : Index) : index.toMatches.length = index.size := by
  obtain ⟨entries⟩ := index
  induction entries with
  | nil => rfl
  | cons entry rest ih =>
      rw [size_cons, ← ih, toMatches, List.flatMap_cons, List.length_append, List.length_map]
      rfl

theorem classesFor_ne_nil {target : String} {found : List Match}
    (hmem : target ∈ found.map (·.target)) : classesFor target found ≠ [] := by
  obtain ⟨one, hone, rfl⟩ := List.mem_map.mp hmem
  have hkept : one ∈ found.filter (·.target = one.target) := by simpa using hone
  exact List.ne_nil_of_mem (List.mem_map_of_mem hkept)

/-- An index lists its matches target by target; that is alike to the order in which they were merged. -/
theorem alike_toMatches (found : List Match) : Alike (({} : Index).merge found).toMatches found := by
  have hindex := reflects_empty.merge found
  rw [List.nil_append, List.nil_append] at hindex
  constructor
  · have hnodup := hindex.nodup
    rw [hindex.targets] at hnodup
    rw [hindex.toMatches_eq, List.map_flatMap]
    apply eraseDups_flatMap hnodup
    · intro key hkey
      simpa using classesFor_ne_nil (List.mem_eraseDups.mp hkey)
    · simp
  · exact fun target => (classes_toMatches hindex.nodup target).trans (hindex.get target)

theorem mergeCounted_toMatches (index : Index) (found : List Match) :
    index.mergeCounted (({} : Index).mergeCounted found).1.toMatches = index.mergeCounted found := by
  have hsize : (({} : Index).merge found).size = found.length := (size_merge {} found).trans (Nat.zero_add _)
  rw [mergeCounted_eq {}, mergeCounted_eq, mergeCounted_eq, (alike_toMatches found).merge_eq,
    length_toMatches, hsize]

end Roster.Index

namespace Roster.Scan

open Roster.Syntax

/-- Scanning a file through an index of its own, and merging what that lists, is to record in the index at once. -/
theorem map_matchesOf (finder : Finder) (source : Tree) (index : Index) :
    (matchesOf finder source).map index.mergeCounted = (finder.findInto index source).mapError .finder := by
  rw [matchesOf, Finder.findInto, Finder.findInto]
  cases finder.matchesIn source with
  | error fault => rfl
  | ok found =>
      have hlocal := Index.mergeCounted_toMatches index found
      rw [Index.mergeCounted_eq {}, Index.mergeCounted_eq index found] at hlocal
      exact congrArg Except.ok hlocal

/-- To merge what an index lists that had nothing but certain matches merged into it is to merge these matches: the same
targets in the same places, new ones included, the same classes for each, and the same count. So a file that is scanned
through an index of its own adds what the finder would have recorded directly. And matches may be merged in parts. -/
theorem local_index_changes_nothing (index : Index) (found : List Match) :
    index.mergeCounted (({} : Index).mergeCounted found).1.toMatches = index.mergeCounted found ∧
    (∀ more, index.mergeCounted (found ++ more) =
      (((index.mergeCounted found).1.mergeCounted more).1,
        (index.mergeCounted found).2 + ((index.mergeCounted found).1.mergeCounted more).2)) ∧
    ∀ (finder : Finder) (source : Tree),
      (matchesOf finder source).map index.mergeCounted =
        (finder.findInto index source).mapError .finder := by
  refine ⟨index.mergeCounted_toMatches found, ?_, fun finder source => map_matchesOf finder source index⟩
  intro more
  simp only [Index.mergeCounted_eq, Index.merge, List.foldl_append, List.length_append]

end Roster.Scan
