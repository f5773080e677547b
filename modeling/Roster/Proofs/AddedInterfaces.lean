import Roster.Proofs.NameMatching

/-! Interfaces that are added one by one never conflict. What is stored of a name is a short name, and a short name is
its own, so two stored names with one artifact are the same name, which is stored once. The only thing that can be wrong
with such targets is that nothing is left of a name. -/

namespace Roster

open Roster.Text

/-- The last segment of a text is empty only if the text is empty or ends with a separator. -/
theorem Text.eq_nil_or_getLast?_of_lastSegment {sep : Char} {cs : List Char}
    (hlast : lastSegment sep cs = []) : cs = [] ∨ cs.getLast? = some sep := by
  have hne : segments sep cs ≠ [] := segmentsBy_ne_nil _ cs
  have hend : (segments sep cs).getLast hne = [] := by
    rwa [lastSegment, List.getLastD_eq_getLast?, List.getLast?_eq_some_getLast hne] at hlast
  -- the empty text has one empty segment, so these are the last segments of both texts
  have hsuffix : segments sep [] <:+ segments sep cs := by
    refine ⟨(segments sep cs).dropLast, ?_⟩
    calc (segments sep cs).dropLast ++ [[]]
      _ = (segments sep cs).dropLast ++ [(segments sep cs).getLast hne] := by rw [hend]
      _ = segments sep cs := List.dropLast_append_getLast hne
  rcases segments_suffix_iff.mp hsuffix with hnil | ⟨front, hfront⟩
  · exact Or.inl hnil
  · exact Or.inr (List.getLast?_eq_some_iff.mpr ⟨front, hfront.symm⟩)

/-- Nothing is left of a name that consists of separators, and only of such a name. -/
theorem Name.short_eq_empty_iff {name : String} :
    short name = "" ↔ ∀ c ∈ name.toList, c = separator := by
  rw [short, String.ofList_eq_empty_iff]
  constructor
  · intro hlast
    have hkept : dropEndWhile (· == separator) name.toList = [] := by
      rcases eq_nil_or_getLast?_of_lastSegment hlast with hnil | hend
      · exact hnil
      · by_contra hsome
        have hstop := List.rdropWhile_last_not (· == separator) name.toList hsome
        rw [List.getLast?_eq_some_getLast hsome] at hend
        exact hstop (beq_iff_eq.mpr (Option.some.inj hend))
    intro c hc
    exact beq_iff_eq.mp (List.rdropWhile_eq_nil_iff.mp hkept c hc)
  · intro hall
    have hkept : dropEndWhile (· == separator) name.toList = [] := by
      apply List.rdropWhile_eq_nil_iff.mpr
      intro c hc
      exact beq_iff_eq.mpr (hall c hc)
    rw [hkept]
    rfl

namespace Discovery

variable {state : State} {names : List String} {fault : Fault}

/-- One addition: a name that is stored already is stored no second time. -/
theorem interfaces_adding (state : State) (name : String) :
    (state.adding name).settings.interfaces =
      if state.settings.interfaces.contains (storedName name) then state.settings.interfaces
      else state.settings.interfaces ++ [storedName name] := by
  show (state.settings.addInterface name).interfaces = _
  unfold Settings.addInterface storedName
  dsimp only
  split_ifs
  · rfl
  · rfl

/-- Any number of additions: each name is stored where it was added first. -/
theorem interfaces_foldl_adding (hstart : state.settings.interfaces = []) (names : List String) :
    (names.foldl State.adding state).settings.interfaces = Finder.distinct (names.map storedName) := by
  -- the names stored so far are what the fold of distinct names carries
  have hfold (state : State) :
      (names.foldl State.adding state).settings.interfaces =
        (names.map storedName).foldl
          (fun kept name => if kept.contains name then kept else kept ++ [name])
          state.settings.interfaces := by
    induction names generalizing state with
    | nil => rfl
    | cons name rest ih =>
        rw [List.foldl_cons, ih, interfaces_adding, List.map_cons, List.foldl_cons]
  rw [hfold, hstart]
  rfl

theorem mem_interfaces_foldl_adding (hstart : state.settings.interfaces = []) {stored : String} :
    stored ∈ (names.foldl State.adding state).settings.interfaces ↔
      ∃ name ∈ names, storedName name = stored := by
  rw [interfaces_foldl_adding hstart, Finder.mem_distinct, List.mem_map]

/-- Short names have artifacts of their own. -/
theorem apart_of_short (hshort : ∀ name ∈ names, Name.short name = name) : Artifact.Apart names := by
  intro first hfirst second hsecond hsame
  calc first
    _ = Name.short first := (hshort first hfirst).symm
    _ = Name.short second := hsame
    _ = second := hshort second hsecond

/-- Two targets share an artifact, wherever that is noticed. -/
def Fault.isConflict : Fault → Bool
  | .conflict _ | .write (.conflict _) => true
  | _ => false

/-- A target has no name, wherever that is noticed. -/
def Fault.isNameless : Fault → Bool
  | .emptyInterfaceName | .scan (.finder .emptyTargetName) => true
  | _ => false

theorem Fault.isConfiguration_of_or (hfault : fault.isConflict = true ∨ fault.isNameless = true) :
    fault.isConfiguration = true := by
  rcases hfault with hconflict | hnameless
  · unfold isConflict at hconflict
    split at hconflict
    · rfl
    · rfl
    · contradiction
  · unfold isNameless at hnameless
    split at hnameless
    · rfl
    · rfl
    · contradiction

/-- With short names in the settings a discovery fails for them only if one of them is empty, and that it does. -/
theorem outcome_of_short (host : Host) (elapsed : Float)
    (hshort : ∀ name ∈ state.settings.interfaces, Name.short name = name) :
    ("" ∈ state.settings.interfaces ∧
      (run host elapsed state none).outcome = .error .emptyInterfaceName) ∨
    ("" ∉ state.settings.interfaces ∧
      ∀ fault, (run host elapsed state none).outcome = .error fault → fault.isConfiguration = false) := by
  have hcourse := run_course host elapsed state none
  have hmem (name : String) : name ∈ targetsOf state none ↔ name ∈ state.settings.interfaces :=
    Finder.mem_distinct _ name
  by_cases hempty : "" ∈ state.settings.interfaces
  · exact Or.inl ⟨hempty, (emptyInterfaceName_of_course ((hmem "").mpr hempty) hcourse).1⟩
  · refine Or.inr ⟨hempty, fun fault => ?_⟩
    apply isConfiguration_of_course _ hcourse
    rw [checkTargets_eq_ok_iff, hmem]
    refine ⟨hempty, apart_of_short fun name hname => ?_⟩
    exact hshort name ((hmem name).mp hname)

/-- Names that are added to settings without interfaces are stored once each, in the order of their first addition, as
names of one segment that are their own short names. So they pass the check of artifacts, and a discovery never fails
for two of them that share one; it fails for a name that is empty exactly if a name was added that, without the blanks
around it, has nothing but separators. -/
theorem added_interfaces_never_conflict (host : Host) (elapsed : Float) (state : State)
    (hstart : state.settings.interfaces = []) (names : List String) :
    let added := names.foldl State.adding state
    let stored := added.settings.interfaces
    let outcome := (run host elapsed added none).outcome
    stored.Nodup ∧
    (∀ name ∈ stored, Name.separator ∉ name.toList ∧ Name.short name = name) ∧
    stored = (names.map storedName).eraseDups ∧
    Artifact.checkNames stored = .ok () ∧
    (¬ ∃ fault, outcome = .error fault ∧ fault.isConflict = true) ∧
    ((∃ fault, outcome = .error fault ∧ fault.isNameless = true) ↔
      ∃ name ∈ names, ∀ c ∈ (Text.trim name).toList, c = Name.separator) := by
  intro added stored outcome
  have hstored : stored = Finder.distinct (names.map storedName) := interfaces_foldl_adding hstart names
  have hshort : ∀ name ∈ stored, Name.short name = name := by
    intro name hname
    obtain ⟨raw, -, rfl⟩ := (mem_interfaces_foldl_adding hstart).mp hname
    exact Name.short_short _
  have hempty : "" ∈ stored ↔ ∃ name ∈ names, ∀ c ∈ (Text.trim name).toList, c = Name.separator := by
    rw [mem_interfaces_foldl_adding hstart]
    simp only [storedName, Name.short_eq_empty_iff]
  refine ⟨?_, ?_, ?_, Artifact.checkNames_eq_ok_iff.mpr (apart_of_short hshort), ?_⟩
  · rw [hstored]
    exact Finder.nodup_distinct _
  · intro name hname
    refine ⟨?_, hshort name hname⟩
    rw [← hshort name hname]
    exact Name.separator_not_mem_short name
  · rw [hstored, Finder.distinct_eq_eraseDups]
  · rw [← hempty]
    -- an empty name is refused as such before artifacts are looked at; without one no fault is about the settings
    rcases outcome_of_short host elapsed hshort with ⟨hsome, hrefused⟩ | ⟨hnone, haccepted⟩
    · refine ⟨?_, iff_of_true ⟨_, hrefused, rfl⟩ hsome⟩
      rintro ⟨fault, hfault, hconflict⟩
      cases hrefused.symm.trans hfault
      contradiction
    · have hneither : ∀ fault, outcome = .error fault →
          ¬ (fault.isConflict = true ∨ fault.isNameless = true) := by
        intro fault hfault hwrong
        have hsettled := haccepted fault hfault
        rw [Fault.isConfiguration_of_or hwrong] at hsettled
        contradiction
      refine ⟨?_, iff_of_false ?_ hnone⟩
      · rintro ⟨fault, hfault, hconflict⟩
        exact hneither fault hfault (Or.inl hconflict)
      · rintro ⟨fault, hfault, hnameless⟩
        exact hneither fault hfault (Or.inr hnameless)

/-- The project with one source, before anything is looked for. -/
def withoutInterfaces : State :=
  { oneSource with settings := { oneSource.settings with interfaces := [] } }

/-- The second name is stored already, and nothing is left of the third. -/
theorem added_interfaces_never_conflict_emptied :
    withoutInterfaces.settings.interfaces = [] ∧
    (["\tApp\\I", "B\\I\\", " \\\\ "].foldl State.adding withoutInterfaces).settings.interfaces = ["I", ""] ∧
    Artifact.checkNames ["I", ""] = .ok () ∧
    ∃ fault,
      (run {} 0 (["\tApp\\I", "B\\I\\", " \\\\ "].foldl State.adding withoutInterfaces) none).outcome = .error fault ∧
      fault.isNameless = true ∧ fault.isConflict = false := by
  obtain ⟨-, -, hstored, hcheck, hconflict, hnameless⟩ :=
    added_interfaces_never_conflict {} 0 withoutInterfaces rfl ["\tApp\\I", "B\\I\\", " \\\\ "]
  have hnames : (["\tApp\\I", "B\\I\\", " \\\\ "].map storedName).eraseDups = ["I", ""] := by decide +kernel
  rw [hstored, hnames] at hcheck
  have hseparators : ∀ c ∈ (Text.trim " \\\\ ").toList, c = Name.separator := by
    have hall : ((Text.trim " \\\\ ").toList.all (· == Name.separator)) = true := by decide +kernel
    intro c hc
    simpa using List.all_eq_true.mp hall c hc
  obtain ⟨fault, hfault, hempty⟩ := hnameless.mpr ⟨" \\\\ ", by decide, hseparators⟩
  refine ⟨rfl, hstored.trans hnames, hcheck, fault, hfault, hempty, ?_⟩
  by_contra hshared
  exact hconflict ⟨fault, hfault, by simpa using hshared⟩

end Discovery

end Roster
