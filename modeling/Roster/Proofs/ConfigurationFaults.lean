import Roster.Proofs.TargetIndependence

/-! Wrong targets are found up front. A discovery refuses an empty name and names that share an artifact before it
touches anything, and once its targets are accepted, every later check of them passes. -/

namespace Roster

namespace Artifact

/-- What a reported conflict is about: two different interfaces with one short name. -/
theorem conflict_of_conflictAmong {owners : List (String × String)} {interfaces : List String}
    {shared : Conflict} (howners : ∀ owner ∈ owners, owner.1 = Name.short owner.2)
    (hsome : conflictAmong owners interfaces = some shared) :
    shared.first ∈ owners.map (·.2) ++ interfaces ∧ shared.second ∈ interfaces ∧
      shared.first ≠ shared.second ∧ Name.short shared.first = shared.shortName ∧
      Name.short shared.second = shared.shortName := by
  induction interfaces generalizing owners with
  | nil => contradiction
  | cons interface rest ih =>
      rw [conflictAmong] at hsome
      cases hfind : owners.find? (·.1 = Name.short interface) with
      | some owner =>
          obtain ⟨name, holder⟩ := owner
          rw [hfind] at hsome
          dsimp only at hsome
          have hmem := List.mem_of_find?_eq_some hfind
          have hname : name = Name.short interface := by simpa using List.find?_some hfind
          split_ifs at hsome with hsame
          · obtain ⟨hfirst, hsecond, hdistinct⟩ := ih howners hsome
            refine ⟨?_, List.mem_cons_of_mem _ hsecond, hdistinct⟩
            rcases List.mem_append.mp hfirst with howned | hlater
            · exact List.mem_append_left _ howned
            · exact List.mem_append_right _ (List.mem_cons_of_mem _ hlater)
          · cases hsome
            refine ⟨?_, List.mem_cons_self, hsame, ?_, rfl⟩
            · exact List.mem_append_left _ (List.mem_map_of_mem hmem)
            · exact (howners _ hmem).symm.trans hname
      | none =>
          rw [hfind] at hsome
          have howned : ∀ owner ∈ owners ++ [(Name.short interface, interface)],
              owner.1 = Name.short owner.2 := by
            simp only [List.mem_append, List.mem_singleton]
            rintro owner (howner | rfl)
            · exact howners owner howner
            · rfl
          obtain ⟨hfirst, hsecond, hdistinct⟩ := ih howned hsome
          refine ⟨?_, List.mem_cons_of_mem _ hsecond, hdistinct⟩
          rwa [List.map_append, List.append_assoc] at hfirst

theorem conflict_of_checkNames {interfaces : List String} {shared : Conflict}
    (hcheck : checkNames interfaces = .error shared) :
    shared.first ∈ interfaces ∧ shared.second ∈ interfaces ∧ shared.first ≠ shared.second ∧
      Name.short shared.first = shared.shortName ∧ Name.short shared.second = shared.shortName := by
  unfold checkNames at hcheck
  split at hcheck
  · next found hfound =>
      cases hcheck
      simpa using @conflict_of_conflictAmong [] interfaces shared (by simp) hfound
  · contradiction

/-- Interfaces pass exactly when no two of them share an artifact. -/
theorem checkNames_eq_ok_iff {interfaces : List String} :
    checkNames interfaces = .ok () ↔ Apart interfaces := by
  refine ⟨apart_of_checkNames, fun hapart => ?_⟩
  cases hcheck : checkNames interfaces with
  | ok value => rfl
  | error shared =>
      obtain ⟨hfirst, hsecond, hdistinct, hshort, hshortToo⟩ := conflict_of_checkNames hcheck
      exact absurd (hapart _ hfirst _ hsecond (hshort.trans hshortToo.symm)) hdistinct

/-- Interfaces that pass are not refused when they are written. -/
theorem write_ne_conflict {device : FileTree.Device} {cache : Path} {format : Format} {index : Index}
    {tree after : FileTree} {interfaces : List String} {fault : WriteFault}
    (hcheck : checkNames interfaces = .ok ())
    (hwrite : write device cache format index tree interfaces = (.error fault, after)) (shared : Conflict) :
    fault ≠ .conflict shared := by
  have hblamed (blame : FileTree.Fault → WriteFault) (hblame : ∀ other, blame other ≠ .conflict shared)
      (cause : FileTree.Fault) : WriteFault.ofFault blame cause ≠ .conflict shared := by
    cases cause with
    | embeddedNull =>
        intro heq
        cases heq
    | system cause path => exact hblame _
    | brokenOff cause => exact hblame _
  have heach (device : FileTree.Device) (tree : FileTree) (names : List String)
      (hfailed : writeEach device cache format index tree names = (.error fault, after)) :
      fault ≠ .conflict shared := by
    induction names generalizing device tree with
    | nil => cases hfailed
    | cons interface rest ih =>
        rw [writeEach] at hfailed
        split at hfailed
        · cases hfailed
          exact hblamed _ (by simp) _
        · next written hwritten =>
            split at hfailed
            · cases hfailed
            · exact ih device.tail written hfailed
  rw [write, hcheck] at hwrite
  dsimp only at hwrite
  split at hwrite
  · cases hwrite
    exact hblamed _ (by simp) _
  · exact heach _ _ _ hwrite

end Artifact

namespace Scan

variable [Syntax.Parser] {targets : List String}

/-- With targets that are accepted, only the path of a file can stop a scan. -/
theorem fault_of_scanEach (hsome : targets ≠ []) (hnamed : "" ∉ targets) {tree : FileTree}
    {files : List Candidate} {fault : Fault} (hscan : scanEach targets tree files = .error fault) :
    fault = .embeddedNull := by
  by_cases hnull : ∀ file ∈ files, '\x00' ∉ (toString file.path).toList
  · obtain ⟨results, hresults⟩ := scanEach_eq_ok hsome hnamed tree hnull
    cases hresults.symm.trans hscan
  · push Not at hnull
    obtain ⟨file, hfile, hmem⟩ := hnull
    cases (scanEach_of_null hsome hnamed tree hfile hmem).symm.trans hscan
    rfl

theorem fault_of_scanUnder (hsome : targets ≠ []) (hnamed : "" ∉ targets)
    {circumstances : Circumstances} {index : Index} {tree : FileTree} {files : List Candidate}
    {fault : Fault} (hscan : scanUnder circumstances targets index tree files = .error fault) :
    fault = .embeddedNull := by
  obtain ⟨pooled, fates, arranged, -, -, -, -, -, htally⟩ :=
    scanUnder_accounts hsome hnamed circumstances index tree files
  rw [hscan, sequentially] at htally
  cases hresults : scanEach targets tree ((arranged.filter (!·.lost)).map Fate.file) with
  | ok results =>
      rw [hresults] at htally
      cases htally
  | error other =>
      rw [hresults] at htally
      cases htally
      exact fault_of_scanEach hsome hnamed hresults

end Scan

theorem FileTree.admissible_of_not_mem {path : Path} (hparts : ∀ part ∈ path.parts, '\x00' ∉ part.toList)
    (hlong : ¬ longestPath < (toString path).utf8ByteSize) : Admissible path := by
  refine ⟨fun hnull => ?_, hlong⟩
  rcases Path.mem_of_mem_toString hnull with hslash | hdot | ⟨part, hpart, hmem⟩
  · exact absurd hslash (by decide)
  · exact absurd hdot (by decide)
  · exact hparts part hpart hmem

namespace Discovery

variable {host : Host} {elapsed : Float} {state : State} {targets : List String}

/-- Whether the targets are at fault, wherever that is noticed. -/
def Fault.isConfiguration : Fault → Bool
  | .emptyInterfaceName | .conflict _ | .scan (.finder _) | .write (.conflict _) => true
  | _ => false

theorem checkTargets_eq_ok_iff :
    checkTargets targets = .ok () ↔ "" ∉ targets ∧ Artifact.Apart targets := by
  constructor
  · intro hcheck
    exact ⟨not_mem_of_checkTargets hcheck,
      Artifact.apart_of_checkNames (checkNames_of_checkTargets hcheck)⟩
  · rintro ⟨hnamed, hapart⟩
    have hcontains : ¬ targets.contains "" = true := by simpa using hnamed
    rw [checkTargets, if_neg hcontains, Artifact.checkNames_eq_ok_iff.mpr hapart]
    rfl

/-- The checks of targets behind the first one: of the plan, of the finder that each unit makes, of that finder at a
class declaration, and of the names of the artifacts. -/
structure PassesLaterChecks (targets : List String) : Prop where
  plan : ∀ profile batchSize progressive, ∃ plan,
    Scan.Plan.make targets profile batchSize progressive = .ok plan
  finder : ∃ finder, Scan.finderFor targets = .ok finder ∧
    ∀ source, ∃ found, Scan.matchesOf finder source = .ok found
  names : Artifact.checkNames targets = .ok ()

theorem passesLaterChecks (hsome : targets ≠ []) (hnamed : "" ∉ targets)
    (hapart : Artifact.Apart targets) : PassesLaterChecks targets where
  plan profile batchSize progressive := by
    obtain ⟨plan, hplan, -⟩ := Scan.Plan.make_eq_ok hsome profile batchSize progressive
    exact ⟨plan, hplan⟩
  finder := ⟨_, Scan.finderFor_eq_ok hnamed,
    fun source => Scan.matchesOf_eq_ok _ (Finder.distinct_ne_nil hsome) source⟩
  names := Artifact.checkNames_eq_ok_iff.mpr hapart

section Run

variable [Syntax.Parser]

theorem isConfiguration_of_scanFiles {files : List Candidate} {fault : Fault} (hsome : targets ≠ [])
    (hnamed : "" ∉ targets)
    (hstats : (scanFiles host elapsed state targets files).stats = .error fault) :
    fault.isConfiguration = false := by
  by_cases hfiles : files = []
  · subst hfiles
    cases hstats
  cases hprofile : state.settings.resourceProfile host with
  | error cause =>
      have hempty : ¬ files.isEmpty = true := by simpa using hfiles
      rw [scanFiles, if_neg hempty, hprofile] at hstats
      cases hstats
      rfl
  | ok found =>
      obtain ⟨profile, settings⟩ := found
      have hscan := scanFiles_eq_scanUnder elapsed targets hfiles hprofile
      rw [hstats] at hscan
      cases hunder : Scan.scanUnder (circumstances host elapsed { state with settings } profile) targets
          (.ofTargets targets) state.tree files with
      | ok outcome =>
          rw [hunder] at hscan
          cases hscan
      | error cause =>
          rw [hunder] at hscan
          cases hscan
          rw [Scan.fault_of_scanUnder hsome hnamed hunder]
          rfl

theorem skipped_of_course {result : Result} (hnone : targets = [])
    (hcourse : Course host elapsed state targets result) :
    result.outcome = .ok {} ∧ result.state = state := by
  cases hcourse with
  | idle => exact ⟨rfl, rfl⟩
  | refused hsome => exact absurd hnone hsome
  | uncollected hsome => exact absurd hnone hsome
  | unscanned hsome => exact absurd hnone hsome
  | unwritten hsome => exact absurd hnone hsome
  | reported hsome => exact absurd hnone hsome

/-- Targets that are refused are what the discovery fails for, and it has changed nothing. -/
theorem refused_of_course {result : Result} {fault : Fault} (hsome : targets ≠ [])
    (hrefused : checkTargets targets = .error fault)
    (hcourse : Course host elapsed state targets result) :
    result.outcome = .error fault ∧ result.state = state := by
  cases hcourse with
  | idle hnone => exact absurd hnone hsome
  | refused _ hcheck =>
      cases hrefused.symm.trans hcheck
      exact ⟨rfl, rfl⟩
  | uncollected _ hcheck => cases hrefused.symm.trans hcheck
  | unscanned _ hcheck => cases hrefused.symm.trans hcheck
  | unwritten _ hcheck => cases hrefused.symm.trans hcheck
  | reported _ hcheck => cases hrefused.symm.trans hcheck

theorem emptyInterfaceName_of_course {result : Result} (hempty : "" ∈ targets)
    (hcourse : Course host elapsed state targets result) :
    result.outcome = .error .emptyInterfaceName ∧ result.state = state := by
  apply refused_of_course (List.ne_nil_of_mem hempty) _ hcourse
  rw [checkTargets, if_pos (List.contains_iff_mem.mpr hempty)]

/-- Two names that share an artifact are refused, if not these then others. -/
theorem conflict_of_course {result : Result} (hnamed : "" ∉ targets) (hshared : ¬ Artifact.Apart targets)
    (hcourse : Course host elapsed state targets result) :
    ∃ shared, result.outcome = .error (.conflict shared) ∧ result.state = state ∧
      shared.first ∈ targets ∧ shared.second ∈ targets ∧ shared.first ≠ shared.second ∧
      Name.short shared.first = shared.shortName ∧ Name.short shared.second = shared.shortName := by
  cases hnames : Artifact.checkNames targets with
  | ok value => exact absurd (Artifact.apart_of_checkNames hnames) hshared
  | error shared =>
      have hconflict := Artifact.conflict_of_checkNames hnames
      have hcontains : ¬ targets.contains "" = true := by simpa using hnamed
      have hrefused : checkTargets targets = .error (.conflict shared) := by
        rw [checkTargets, if_neg hcontains, hnames]
        rfl
      obtain ⟨houtcome, hstate⟩ :=
        refused_of_course (List.ne_nil_of_mem hconflict.1) hrefused hcourse
      exact ⟨shared, houtcome, hstate, hconflict⟩

/-- Once its targets are accepted, nothing that a discovery fails for is their fault. -/
theorem isConfiguration_of_course {result : Result} {fault : Fault}
    (hcheck : checkTargets targets = .ok ()) (hcourse : Course host elapsed state targets result)
    (hfault : result.outcome = .error fault) : fault.isConfiguration = false := by
  cases hcourse with
  | idle => cases hfault
  | refused _ hrefused => cases hcheck.symm.trans hrefused
  | uncollected =>
      cases hfault
      rfl
  | unscanned hsome _ _ hscan hstats =>
      cases hfault
      rw [← hscan] at hstats
      exact isConfiguration_of_scanFiles hsome (not_mem_of_checkTargets hcheck) hstats
  | unwritten _ _ _ _ _ hwrite =>
      cases hfault
      have hnames := Artifact.write_ne_conflict (checkNames_of_checkTargets hcheck) hwrite
      unfold Fault.isConfiguration
      split
      · contradiction
      · contradiction
      · contradiction
      · next shared heq =>
          cases heq
          exact absurd rfl (hnames shared)
      · rfl
  | reported => cases hfault

/-- A discovery without targets is skipped. An empty name among them is refused, and so are, among names that are not
empty, two with one short name; either way nothing has changed. Targets that are neither are accepted for good: they
pass all later checks, and whatever else the discovery fails for, it does not fail for them. -/
theorem configuration_faults_come_first (host : Host) (elapsed : Float) (state : State)
    (interfaces : Option (List String)) :
    let targets := (interfaces.getD state.settings.interfaces).eraseDups
    let result := run host elapsed state interfaces
    (targets = [] → result.outcome = .ok {} ∧ Report.skipped {} = true ∧ result.state = state) ∧
    ("" ∈ targets → result.outcome = .error .emptyInterfaceName ∧ result.state = state) ∧
    ("" ∉ targets → ∀ first ∈ targets, ∀ second ∈ targets, first ≠ second →
      Name.short first = Name.short second →
      ∃ shared, result.outcome = .error (.conflict shared) ∧ result.state = state ∧
        shared.first ∈ targets ∧ shared.second ∈ targets ∧ shared.first ≠ shared.second ∧
        Name.short shared.first = shared.shortName ∧ Name.short shared.second = shared.shortName) ∧
    (targets ≠ [] → "" ∉ targets →
      (∀ first ∈ targets, ∀ second ∈ targets, Name.short first = Name.short second →
        first = second) →
      PassesLaterChecks targets ∧
        ∀ fault, result.outcome = .error fault → fault.isConfiguration = false) := by
  have hcourse := run_course host elapsed state interfaces
  rw [targetsOf, Finder.distinct_eq_eraseDups] at hcourse
  refine ⟨?_, fun hempty => emptyInterfaceName_of_course hempty hcourse, ?_, ?_⟩
  · intro hnone
    obtain ⟨houtcome, hstate⟩ := skipped_of_course hnone hcourse
    exact ⟨houtcome, rfl, hstate⟩
  · intro hnamed first hfirst second hsecond hdistinct hshort
    apply conflict_of_course hnamed _ hcourse
    exact fun hapart => hdistinct (hapart first hfirst second hsecond hshort)
  · intro hsome hnamed hapart
    refine ⟨passesLaterChecks hsome hnamed hapart, fun fault hfault => ?_⟩
    exact isConfiguration_of_course (checkTargets_eq_ok_iff.mpr ⟨hnamed, hapart⟩) hcourse hfault

end Run

/-- A name that is too long to be asked about. -/
def overlongName : String :=
  String.ofList (List.replicate 300 'a')

theorem not_mem_overlongName {c : Char} (hc : c ≠ 'a') : c ∉ overlongName.toList := by
  intro hmem
  have hchars : overlongName.toList = List.replicate 300 'a' := String.toList_ofList
  rw [hchars] at hmem
  exact hc (List.eq_of_mem_replicate hmem)

theorem longestName_lt_overlongName : FileTree.longestName < overlongName.utf8ByteSize := by
  decide +kernel

/-- A project with a module directory of such a name. -/
def overlongModule : State :=
  { oneSource with settings := { oneSource.settings with moduleDirectories := [overlongName] } }

theorem gather_overlongModule : ∃ fault, gather overlongModule = (.error fault, overlongModule) := by
  have hpath : overlongModule.settings.base / overlongName = ⟨.slash, [overlongName]⟩ := by
    have hslash : '/' ∉ overlongName.toList := not_mem_overlongName (by decide)
    change Path.join ⟨.slash, []⟩ (Path.ofString overlongName) = _
    rw [Artifact.ofString_of_not_mem hslash (by decide +kernel) (by decide +kernel)]
    rfl
  have hadmissible : FileTree.Admissible ⟨.slash, [overlongName]⟩ := by
    refine FileTree.admissible_of_not_mem (fun part hpart => ?_) (by decide +kernel)
    obtain rfl := List.mem_singleton.mp hpart
    exact not_mem_overlongName (by decide)
  have hroot : overlongModule.tree.locate true ⟨.slash, []⟩ = .ok (.entry [] overlongModule.tree.root) :=
    FileTree.locate_eq_ok_iff.mpr ⟨by decide, .done rfl⟩
  have hlocate : overlongModule.tree.locate true ⟨.slash, [overlongName]⟩ = _ :=
    FileTree.locate_overlong hroot longestName_lt_overlongName hadmissible
  obtain ⟨fault, hfault⟩ : ∃ fault, overlongModule.tree.isDirectory
      (overlongModule.settings.base / overlongName) = .error fault := by
    rw [hpath, FileTree.isDirectory, FileTree.entry?, hlocate]
    exact ⟨_, rfl⟩
  have hroots : Collection.scanRoots overlongModule.tree overlongModule.settings = .error fault := by
    change Collection.moduleRoots overlongModule.tree overlongModule.settings.base [overlongName] >>= _ = _
    rw [Collection.moduleRoots, hfault]
    rfl
  refine ⟨fault, ?_⟩
  rw [gather, hroots]

theorem configuration_faults_overlongModule :
    (run {} 0 overlongModule (some [])).outcome = .ok {} ∧
    (run {} 0 overlongModule (some ["I", "", "I"])).outcome = .error .emptyInterfaceName ∧
    (∃ shared, (run {} 0 overlongModule (some ["A\\I", "J", "B\\I\\"])).outcome =
      .error (.conflict shared)) ∧
    PassesLaterChecks ["J", "I"] ∧
    ∃ fault, (run {} 0 overlongModule none).outcome = .error fault ∧ fault.isConfiguration = false := by
  obtain ⟨hskips, -⟩ := configuration_faults_come_first {} 0 overlongModule (some [])
  obtain ⟨-, hempty, -⟩ := configuration_faults_come_first {} 0 overlongModule (some ["I", "", "I"])
  obtain ⟨-, -, hshares, -⟩ :=
    configuration_faults_come_first {} 0 overlongModule (some ["A\\I", "J", "B\\I\\"])
  obtain ⟨-, -, -, haccepts⟩ := configuration_faults_come_first {} 0 overlongModule none
  obtain ⟨hlater, hfails⟩ := haccepts (by decide) (by decide) (by decide +kernel)
  refine ⟨(hskips rfl).1, (hempty (by decide)).1, ?_, hlater, ?_⟩
  · obtain ⟨shared, houtcome, -⟩ := hshares (by decide) "A\\I" (by decide) "B\\I\\" (by decide)
      (by decide) (by decide +kernel)
    exact ⟨shared, houtcome⟩
  · obtain ⟨fault, hgather⟩ := gather_overlongModule
    have houtcome : (run {} 0 overlongModule none).outcome = .error (.file fault) := by
      rw [run_ungathered (by decide) (by decide +kernel) hgather]
    exact ⟨_, houtcome, hfails _ houtcome⟩

end Discovery

end Roster
