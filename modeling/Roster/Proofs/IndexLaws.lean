import Mathlib.Data.List.Basic
import Roster.Index

/-! What recording does to an index: a match adds its class to the list of its target, behind what is there already,
and leaves every other list alone. -/

namespace Roster.Index

theorem get_cons (key : String) (known : List String) (rest : List (String × List String))
    (target : String) :
    get ⟨(key, known) :: rest⟩ target = if key = target then known else get ⟨rest⟩ target := by
  rw [get, List.find?_cons]
  by_cases hkey : key = target
  · rw [if_pos hkey, decide_eq_true hkey]
    rfl
  · rw [if_neg hkey, decide_eq_false hkey]
    rfl

theorem get_appendTo (target : String) (classes : List String)
    (entries : List (String × List String)) (other : String) :
    get ⟨appendTo target classes entries⟩ other =
      if target = other then get ⟨entries⟩ other ++ classes else get ⟨entries⟩ other := by
  induction entries with
  | nil => rw [appendTo, get_cons]; rfl
  | cons entry rest ih =>
      obtain ⟨key, known⟩ := entry
      rw [appendTo]
      by_cases hkey : key = target
      · subst hkey
        rw [if_pos rfl, get_cons, get_cons]
        by_cases hother : key = other
        · rw [if_pos hother, if_pos hother, if_pos hother]
        · rw [if_neg hother, if_neg hother, if_neg hother]
      · rw [if_neg hkey, get_cons, get_cons, ih]
        by_cases hother : key = other
        · subst hother
          rw [if_pos rfl, if_pos rfl, if_neg (Ne.symm hkey)]
        · rw [if_neg hother, if_neg hother]

theorem get_record (index : Index) (found : Match) (target : String) :
    (index.record found).get target =
      index.get target ++ if found.target = target then [found.className] else [] := by
  rw [record, get_appendTo]
  split_ifs
  · rfl
  · rw [List.append_nil]

/-- Merging appends, to the list of each target, the classes that were found for it. -/
theorem get_merge (index : Index) (found : List Match) (target : String) :
    (index.merge found).get target =
      index.get target ++ (found.filter (·.target = target)).map (·.className) := by
  induction found generalizing index with
  | nil => exact (List.append_nil _).symm
  | cons first rest ih =>
      change ((index.record first).merge rest).get target = _
      rw [ih, get_record, List.filter_cons, List.append_assoc]
      congr 1
      by_cases htarget : first.target = target
      · rw [if_pos htarget, if_pos (decide_eq_true htarget)]
        rfl
      · rw [if_neg htarget, if_neg (by simpa using htarget)]
        rfl

theorem foldl_lengths (entries : List (String × List String)) (n : Nat) :
    entries.foldl (fun n entry => n + entry.2.length) n = n + size ⟨entries⟩ := by
  induction entries generalizing n with
  | nil => rfl
  | cons entry rest ih =>
      have hsize : size ⟨entry :: rest⟩ = 0 + entry.2.length + size ⟨rest⟩ := ih (0 + entry.2.length)
      rw [List.foldl_cons, ih, hsize, Nat.zero_add, Nat.add_assoc]

theorem size_cons (entry : String × List String) (rest : List (String × List String)) :
    size ⟨entry :: rest⟩ = entry.2.length + size ⟨rest⟩ := by
  rw [size, List.foldl_cons, foldl_lengths, Nat.zero_add]

theorem size_appendTo (target : String) (classes : List String)
    (entries : List (String × List String)) :
    size ⟨appendTo target classes entries⟩ = size ⟨entries⟩ + classes.length := by
  induction entries with
  | nil => rw [appendTo, size_cons, Nat.add_comm]
  | cons entry rest ih =>
      obtain ⟨key, known⟩ := entry
      rw [appendTo]
      split_ifs
      · rw [size_cons, size_cons, List.length_append, Nat.add_right_comm]
      · rw [size_cons, size_cons, ih, Nat.add_assoc]

theorem size_ensureAll (index : Index) (targets : List String) :
    (index.ensureAll targets).size = index.size := by
  induction targets generalizing index with
  | nil => rfl
  | cons target rest ih => exact (ih (index.ensure target)).trans (size_appendTo target [] _)

theorem size_merge (index : Index) (found : List Match) :
    (index.merge found).size = index.size + found.length := by
  induction found generalizing index with
  | nil => rfl
  | cons first rest ih =>
      change ((index.record first).merge rest).size = _
      rw [ih, record, size_appendTo, List.length_singleton, List.length_cons, Nat.add_assoc,
        Nat.add_comm 1]

theorem targets_appendTo_of_mem {target : String} {entries : List (String × List String)}
    (hmem : target ∈ targets ⟨entries⟩) (classes : List String) :
    targets ⟨appendTo target classes entries⟩ = targets ⟨entries⟩ := by
  induction entries with
  | nil => simp [targets] at hmem
  | cons entry rest ih =>
      obtain ⟨key, known⟩ := entry
      by_cases hkey : key = target
      · simp [appendTo, hkey, targets]
      · have hrest : target ∈ targets ⟨rest⟩ := by
          simpa [targets, Ne.symm hkey] using hmem
        have hlater := ih hrest
        simp only [targets] at hlater ⊢
        simp [appendTo, hkey, hlater]

/-- Targets that the index has already keep their places, and no others come in. -/
theorem targets_merge_of_mem {index : Index} {found : List Match}
    (hheld : ∀ one ∈ found, one.target ∈ index.targets) :
    (index.merge found).targets = index.targets := by
  induction found generalizing index with
  | nil => rfl
  | cons first rest ih =>
      have hfirst : (index.record first).targets = index.targets :=
        targets_appendTo_of_mem (hheld first List.mem_cons_self) _
      change ((index.record first).merge rest).targets = _
      rw [ih, hfirst]
      intro one hmem
      rw [hfirst]
      exact hheld one (List.mem_cons_of_mem _ hmem)

theorem get_ensureAll (index : Index) (targets : List String) (target : String) :
    (index.ensureAll targets).get target = index.get target := by
  induction targets generalizing index with
  | nil => rfl
  | cons first rest ih =>
      change ((index.ensure first).ensureAll rest).get target = _
      rw [ih, ensure, get_appendTo]
      split_ifs
      · exact List.append_nil _
      · rfl

theorem mem_targets_appendTo {target other : String} {classes : List String}
    {entries : List (String × List String)} :
    other ∈ targets ⟨appendTo target classes entries⟩ ↔ other = target ∨ other ∈ targets ⟨entries⟩ := by
  induction entries with
  | nil => simp [appendTo, targets]
  | cons entry rest ih =>
      obtain ⟨key, known⟩ := entry
      simp only [targets] at ih
      by_cases hkey : key = target
      · simp [appendTo, hkey, targets]
      · simp [appendTo, hkey, targets, ih, or_left_comm]

theorem mem_targets_ensureAll {index : Index} {names : List String} {target : String} :
    target ∈ (index.ensureAll names).targets ↔ target ∈ names ∨ target ∈ index.targets := by
  induction names generalizing index with
  | nil => simp [ensureAll]
  | cons name rest ih =>
      change target ∈ ((index.ensure name).ensureAll rest).targets ↔ _
      rw [ih, ensure, mem_targets_appendTo, List.mem_cons, ← or_assoc, or_comm (a := target ∈ rest)]

theorem mem_targets_merge {index : Index} {found : List Match} {target : String} :
    target ∈ (index.merge found).targets ↔
      (∃ one ∈ found, one.target = target) ∨ target ∈ index.targets := by
  induction found generalizing index with
  | nil => simp [merge]
  | cons first rest ih =>
      change target ∈ ((index.record first).merge rest).targets ↔ _
      rw [ih, record, mem_targets_appendTo, List.exists_mem_cons_iff, ← or_assoc,
        or_comm (b := target = first.target), eq_comm]

theorem target_mem_of_mem_toMatches {index : Index} {one : Match} (hone : one ∈ index.toMatches) :
    one.target ∈ index.targets := by
  obtain ⟨entry, hentry, hmem⟩ := List.mem_flatMap.mp hone
  obtain ⟨className, -, rfl⟩ := List.mem_map.mp hmem
  exact List.mem_map_of_mem hentry

theorem nodup_targets_appendTo {entries : List (String × List String)}
    (hnodup : (targets ⟨entries⟩).Nodup) (target : String) (classes : List String) :
    (targets ⟨appendTo target classes entries⟩).Nodup := by
  induction entries with
  | nil => simp [appendTo, targets]
  | cons entry rest ih =>
      obtain ⟨key, known⟩ := entry
      by_cases hkey : key = target
      · simpa [appendTo, hkey, targets] using hnodup
      · have hrest : (targets ⟨rest⟩).Nodup := (List.nodup_cons.mp hnodup).2
        have hnew : key ∉ targets ⟨appendTo target classes rest⟩ := by
          rw [mem_targets_appendTo, not_or]
          exact ⟨hkey, (List.nodup_cons.mp hnodup).1⟩
        rw [appendTo, if_neg hkey]
        exact List.nodup_cons.mpr ⟨hnew, ih hrest⟩

theorem nodup_targets_merge {index : Index} (hnodup : index.targets.Nodup) (found : List Match) :
    (index.merge found).targets.Nodup := by
  induction found generalizing index with
  | nil => exact hnodup
  | cons first rest ih => exact ih (nodup_targets_appendTo hnodup _ _)

theorem get_eq_nil_of_not_mem {index : Index} {target : String} (hnew : target ∉ index.targets) :
    index.get target = [] := by
  have hnone : index.entries.find? (·.1 = target) = none := by
    rw [List.find?_eq_none]
    intro entry hentry
    have hkey : entry.1 ∈ index.targets := List.mem_map_of_mem hentry
    have hne : entry.1 ≠ target := fun heq => hnew (heq ▸ hkey)
    simpa using hne
  rw [get, hnone]
  rfl

/-- The matches listed for a target are the classes recorded for it. -/
theorem classes_toMatches {entries : List (String × List String)}
    (hnodup : (targets ⟨entries⟩).Nodup) (target : String) :
    ((toMatches ⟨entries⟩).filter (·.target = target)).map (·.className) =
      get ⟨entries⟩ target := by
  induction entries with
  | nil => rfl
  | cons entry rest ih =>
      obtain ⟨key, known⟩ := entry
      have hlater := ih (List.nodup_cons.mp hnodup).2
      have hsplit : toMatches ⟨(key, known) :: rest⟩ =
          known.map (Match.mk key) ++ toMatches ⟨rest⟩ := rfl
      rw [hsplit, List.filter_append, List.map_append, hlater, get_cons]
      by_cases hkey : key = target
      · have hgone : get ⟨rest⟩ target = [] :=
          get_eq_nil_of_not_mem (hkey ▸ (List.nodup_cons.mp hnodup).1)
        simp [hkey, hgone, List.filter_map, Function.comp_def]
      · simp [hkey, List.filter_map, Function.comp_def]

end Roster.Index
