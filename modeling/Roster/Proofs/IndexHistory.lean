import Roster.Proofs.IndexLaws

/-! An index is told by its history alone. However operations follow one another, its targets are the names that were
mentioned, in the order of first mention, and the list of each target is what was recorded for it, in the order of
recording. Questions leave no trace. -/

namespace Roster.Index

/-- The names that an operation mentions, in order. -/
def Operation.mentioned : Operation → List String
  | .ensure target => [target]
  | .record found => [found.target]
  | .merge found => found.map (·.target)
  | .get _ | .pairs | .entries | .targets | .size => []

/-- The matches that an operation records, in order. -/
def Operation.recorded : Operation → List Match
  | .record found => [found]
  | .merge found => found
  | .ensure _ | .get _ | .pairs | .entries | .targets | .size => []

/-- The index after a row of operations. -/
def after (index : Index) (operations : List Operation) : Index :=
  operations.foldl (fun index operation => (index.perform operation).1) index

/-- The classes that matches name for a target. -/
def classesFor (target : String) (found : List Match) : List String :=
  (found.filter (·.target = target)).map (·.className)

theorem classesFor_append (target : String) (found more : List Match) :
    classesFor target (found ++ more) = classesFor target found ++ classesFor target more := by
  rw [classesFor, List.filter_append, List.map_append]
  rfl

theorem classesFor_map_mk (target key : String) (classes : List String) :
    classesFor target (classes.map (Match.mk key)) = if key = target then classes else [] := by
  by_cases hkey : key = target
  · simp [classesFor, hkey, List.filter_map, Function.comp_def]
  · simp [classesFor, hkey, List.filter_map, Function.comp_def]

theorem targets_appendTo_of_not_mem {target : String} {entries : List (String × List String)}
    (hnew : target ∉ targets ⟨entries⟩) (classes : List String) :
    targets ⟨appendTo target classes entries⟩ = targets ⟨entries⟩ ++ [target] := by
  induction entries with
  | nil => rfl
  | cons entry rest ih =>
      obtain ⟨key, known⟩ := entry
      obtain ⟨hkey, hrest⟩ : target ≠ key ∧ target ∉ targets ⟨rest⟩ := by
        simpa [targets, not_or] using hnew
      have hlater := ih hrest
      simp only [targets] at hlater ⊢
      simp [appendTo, Ne.symm hkey, hlater]

theorem eraseDups_concat (names : List String) (name : String) :
    (names ++ [name]).eraseDups =
      if name ∈ names then names.eraseDups else names.eraseDups ++ [name] := by
  rw [List.eraseDups_append]
  by_cases hname : name ∈ names
  · simp [List.removeAll, hname]
  · simp [List.removeAll, hname, List.eraseDups_cons]

theorem mergeCounted_eq (index : Index) (found : List Match) :
    index.mergeCounted found = (index.merge found, found.length) := by
  have hcount : ∀ start : Index × Nat,
      found.foldl (fun merged one => (merged.1.record one, merged.2 + 1)) start =
        (start.1.merge found, start.2 + found.length) := by
    induction found with
    | nil => exact fun start => rfl
    | cons first rest ih =>
        intro start
        rw [List.foldl_cons, ih, List.length_cons, Nat.add_right_comm, Nat.add_assoc]
        rfl
  rw [mergeCounted, hcount, Nat.zero_add]

/-- Distinct targets and their lists make up the whole index. -/
theorem entries_eq_map_get {entries : List (String × List String)}
    (hnodup : (targets ⟨entries⟩).Nodup) :
    entries = (targets ⟨entries⟩).map fun target => (target, get ⟨entries⟩ target) := by
  induction entries with
  | nil => rfl
  | cons entry rest ih =>
      obtain ⟨key, known⟩ := entry
      obtain ⟨hkey, hrest⟩ := List.nodup_cons.mp hnodup
      have hfirst : get ⟨(key, known) :: rest⟩ key = known := by
        rw [get_cons, if_pos rfl]
      have hlater : ∀ target ∈ targets ⟨rest⟩,
          get ⟨(key, known) :: rest⟩ target = get ⟨rest⟩ target := by
        intro target htarget
        rw [get_cons, if_neg]
        rintro rfl
        exact hkey htarget
      calc (key, known) :: rest
        _ = (key, known) :: (targets ⟨rest⟩).map fun target => (target, get ⟨rest⟩ target) := by
          rw [← ih hrest]
        _ = (key, get ⟨(key, known) :: rest⟩ key) ::
            (targets ⟨rest⟩).map fun target => (target, get ⟨(key, known) :: rest⟩ target) := by
          rw [hfirst]
          congr 1
          apply List.map_congr_left
          intro target htarget
          rw [hlater target htarget]

/-- What an index holds once these names were mentioned and these matches recorded. -/
structure Reflects (mentioned : List String) (recorded : List Match) (index : Index) : Prop where
  targets : index.targets = mentioned.eraseDups
  nodup : index.targets.Nodup
  get : ∀ target, index.get target = classesFor target recorded
  size : index.size = recorded.length

theorem reflects_empty : Reflects [] [] {} :=
  ⟨rfl, List.nodup_nil, fun _ => rfl, rfl⟩

namespace Reflects

variable {mentioned : List String} {recorded : List Match} {index : Index}

/-- Whatever an operation adds, it adds at the end of one list. -/
theorem appendTo (hindex : Reflects mentioned recorded index) (target : String)
    (classes : List String) :
    Reflects (mentioned ++ [target]) (recorded ++ classes.map (Match.mk target))
      ⟨Index.appendTo target classes index.entries⟩ where
  targets := by
    have hmem : target ∈ index.targets ↔ target ∈ mentioned := by
      rw [hindex.targets, List.mem_eraseDups]
    rw [eraseDups_concat, ← hindex.targets]
    by_cases hknown : target ∈ mentioned
    · rw [if_pos hknown]
      exact targets_appendTo_of_mem (hmem.mpr hknown) classes
    · rw [if_neg hknown]
      exact targets_appendTo_of_not_mem (fun hnew => hknown (hmem.mp hnew)) classes
  nodup := nodup_targets_appendTo hindex.nodup target classes
  get other := by
    rw [get_appendTo, classesFor_append, classesFor_map_mk, ← hindex.get]
    split_ifs
    · rfl
    · rw [List.append_nil]
  size := by
    rw [size_appendTo, List.length_append, List.length_map, ← hindex.size]

theorem ensure (hindex : Reflects mentioned recorded index) (target : String) :
    Reflects (mentioned ++ [target]) recorded (index.ensure target) := by
  have hstep := hindex.appendTo target []
  rwa [List.map_nil, List.append_nil] at hstep

theorem record (hindex : Reflects mentioned recorded index) (found : Match) :
    Reflects (mentioned ++ [found.target]) (recorded ++ [found]) (index.record found) :=
  hindex.appendTo found.target [found.className]

theorem merge (hindex : Reflects mentioned recorded index) (found : List Match) :
    Reflects (mentioned ++ found.map (·.target)) (recorded ++ found) (index.merge found) := by
  induction found generalizing mentioned recorded index with
  | nil => rwa [List.map_nil, List.append_nil, List.append_nil]
  | cons first rest ih =>
      have hrest := ih (hindex.record first)
      rwa [List.append_assoc, List.append_assoc] at hrest

theorem ensureAll (hindex : Reflects mentioned recorded index) (targets : List String) :
    Reflects (mentioned ++ targets) recorded (index.ensureAll targets) := by
  induction targets generalizing mentioned index with
  | nil => rwa [List.append_nil]
  | cons first rest ih =>
      have hrest := ih (hindex.ensure first)
      rwa [List.append_assoc] at hrest

theorem perform (hindex : Reflects mentioned recorded index) (operation : Operation) :
    Reflects (mentioned ++ operation.mentioned) (recorded ++ operation.recorded)
      (index.perform operation).1 := by
  have hasked : Reflects (mentioned ++ []) (recorded ++ []) index := by
    rwa [List.append_nil, List.append_nil]
  cases operation with
  | ensure target =>
      have hstep := hindex.ensure target
      rwa [← List.append_nil recorded] at hstep
  | record found => exact hindex.record found
  | merge found =>
      have hstep := hindex.merge found
      change Reflects _ _ (index.mergeCounted found).1
      rwa [mergeCounted_eq]
  | get target => exact hasked
  | pairs => exact hasked
  | entries => exact hasked
  | targets => exact hasked
  | size => exact hasked

theorem after (hindex : Reflects mentioned recorded index) (operations : List Operation) :
    Reflects (mentioned ++ operations.flatMap Operation.mentioned)
      (recorded ++ operations.flatMap Operation.recorded) (index.after operations) := by
  induction operations generalizing mentioned recorded index with
  | nil => rwa [List.flatMap_nil, List.flatMap_nil, List.append_nil, List.append_nil]
  | cons first rest ih =>
      have hrest := ih (hindex.perform first)
      rwa [List.append_assoc, List.append_assoc] at hrest

theorem entries_eq (hindex : Reflects mentioned recorded index) :
    index.entries = mentioned.eraseDups.map fun key => (key, classesFor key recorded) := by
  calc index.entries
    _ = index.targets.map fun key => (key, index.get key) := entries_eq_map_get hindex.nodup
    _ = mentioned.eraseDups.map fun key => (key, classesFor key recorded) := by
      simp only [hindex.targets, hindex.get]

theorem toMatches_eq (hindex : Reflects mentioned recorded index) :
    index.toMatches =
      mentioned.eraseDups.flatMap fun key => (classesFor key recorded).map (Match.mk key) := by
  rw [toMatches, hindex.entries_eq, List.flatMap_map]

end Reflects

/-- After any history an index answers what the history tells: its targets are the names mentioned so far, seeds first,
in the order of first mention; a target has the classes recorded for it, in order and as often as they were recorded, and
a name never mentioned has none; there are as many matches as were recorded; all of it is listed target by target.
Merging answers with the number of matches that it was given, and a question leaves the index as it is. -/
theorem index_told_by_history (seeds : List String) (history : List Operation) :
    let index := (ofTargets seeds).after history
    let keys := (seeds ++ history.flatMap Operation.mentioned).eraseDups
    let recorded := history.flatMap Operation.recorded
    index.perform .targets = (index, .targets keys) ∧
    (∀ target, index.perform (.get target) = (index, .classes (classesFor target recorded))) ∧
    (∀ target, target ∉ keys → index.perform (.get target) = (index, .classes [])) ∧
    index.perform .size = (index, .count recorded.length) ∧
    index.perform .pairs =
      (index, .pairs (keys.flatMap fun key => (classesFor key recorded).map (Match.mk key))) ∧
    index.perform .entries =
      (index, .entries (keys.map fun key => (key, classesFor key recorded))) ∧
    ∀ found, (index.perform (.merge found)).2 = .count found.length := by
  intro index keys recorded
  have hindex : Reflects ([] ++ seeds ++ history.flatMap Operation.mentioned) ([] ++ recorded) index :=
    (reflects_empty.ensureAll seeds).after history
  rw [List.nil_append, List.nil_append] at hindex
  have hkeys : index.targets = keys := hindex.targets
  refine ⟨?_, ?_, ?_, ?_, ?_, ?_, ?_⟩
  · rw [perform, hkeys]
  · intro target
    rw [perform, hindex.get]
  · intro target hnew
    rw [perform, get_eq_nil_of_not_mem (hkeys ▸ hnew)]
  · rw [perform, hindex.size]
  · rw [perform, hindex.toMatches_eq]
  · rw [perform, hindex.entries_eq]
  · intro found
    rw [perform, mergeCounted_eq]

end Roster.Index
