import Roster.Discovery
import Roster.Proofs.ArtifactStore
import Roster.Proofs.ResourceIndependence

/-! A discovery as a scan with an artifact store behind it: when it looks for targets, which circumstances its scan
has, and that it ends well when the files are collected, no worker dies and the artifacts can be written. -/

namespace Roster.Discovery

open FileTree

/-- What the scan of a discovery depends on besides its targets and files. -/
def circumstances (host : Host) (elapsed : Float) (state : State) (profile : Profile) :
    Scan.Circumstances where
  profile := profile
  batchSize := state.settings.batchSize
  progressive := state.settings.progressive
  platform := host.platform
  order := host.order
  elapsed := elapsed
  faults := state.faults

/-- No worker dies when the files are scanned for the targets. -/
def ScansCrashFree (host : Host) (elapsed : Float) (state : State) (targets : List String)
    (files : List Candidate) : Prop :=
  ∀ profile settings, state.settings.resourceProfile host = .ok (profile, settings) →
    (circumstances host elapsed { state with settings } profile).CrashFree targets files

/-- What a discovery looks for. -/
def targetsOf (state : State) (interfaces : Option (List String)) : List String :=
  Finder.distinct (interfaces.getD state.settings.interfaces)

/-- No worker dies in a discovery. -/
def CrashFree (host : Host) (elapsed : Float) (state : State) (interfaces : Option (List String)) :
    Prop :=
  ∀ files gathered, gather state = (.ok files, gathered) →
    ScansCrashFree host elapsed gathered (targetsOf state interfaces) files

variable {host : Host} {elapsed : Float} {state : State} {targets : List String}
  {files : List Candidate}

/-- Collecting files leaves the tree, the profile and the place of the cache as they are. -/
structure SameStore (first second : State) : Prop where
  tree : second.tree = first.tree
  profile : second.settings.profile = first.settings.profile
  cache : second.settings.cachePath = first.settings.cachePath
  format : second.settings.format = first.settings.format

theorem scanRoots_settings {tree : FileTree} {settings later : Settings} {roots : List Path}
    (hroots : Collection.scanRoots tree settings = .ok (roots, later)) :
    later = settings ∨ later = { settings with searchVendors := false } := by
  rw [Collection.scanRoots] at hroots
  cases hmodules : Collection.moduleRoots tree settings.base settings.moduleDirectories with
  | error fault =>
      rw [hmodules] at hroots
      cases hroots
  | ok modules =>
      rw [hmodules] at hroots
      change (if _ then _ else if _ then _ else _) = _ at hroots
      split_ifs at hroots
      · cases hroots
        exact Or.inr rfl
      · cases hroots
        exact Or.inl rfl
      · cases hroots
        exact Or.inl rfl

/-- All that gathering may change is the search of single vendors. -/
theorem gathered_of_gather {gathered : State} (hgather : gather state = (.ok files, gathered)) :
    gathered = state ∨
      gathered = { state with settings := { state.settings with searchVendors := false } } := by
  rw [gather] at hgather
  cases hroots : Collection.scanRoots state.tree state.settings with
  | error fault =>
      rw [hroots] at hgather
      cases hgather
  | ok found =>
      obtain ⟨roots, settings⟩ := found
      rw [hroots] at hgather
      obtain ⟨-, rfl⟩ := Prod.mk.inj hgather
      rcases scanRoots_settings hroots with rfl | rfl
      · exact Or.inl rfl
      · exact Or.inr rfl

theorem sameStore_of_gather {gathered : State} (hgather : gather state = (.ok files, gathered)) :
    SameStore state gathered := by
  rcases gathered_of_gather hgather with rfl | rfl
  · exact ⟨rfl, rfl, rfl, rfl⟩
  · exact ⟨rfl, rfl, rfl, rfl⟩

theorem not_mem_of_checkTargets (hcheck : checkTargets targets = .ok ()) : "" ∉ targets := by
  intro hmem
  rw [checkTargets, if_pos (List.contains_iff_mem.mpr hmem)] at hcheck
  contradiction

theorem checkNames_of_checkTargets (hcheck : checkTargets targets = .ok ()) :
    Artifact.checkNames targets = .ok () := by
  rw [checkTargets] at hcheck
  split_ifs at hcheck
  cases hnames : Artifact.checkNames targets with
  | error conflict =>
      rw [hnames] at hcheck
      cases hcheck
  | ok value => rfl

theorem settings_of_resourceProfile {settings later : Settings} {profile : Profile}
    (hprofile : settings.resourceProfile host = .ok (profile, later)) :
    later = { settings with profile := some profile } := by
  rw [Settings.resourceProfile] at hprofile
  cases hknown : settings.profile with
  | some known =>
      rw [hknown] at hprofile
      obtain ⟨rfl, rfl⟩ := Prod.mk.inj (Except.ok.inj hprofile)
      rw [← hknown]
  | none =>
      rw [hknown] at hprofile
      cases hdetect : host.detect settings.memoryLimit with
      | error fault =>
          rw [hdetect] at hprofile
          cases hprofile
      | ok detected =>
          rw [hdetect] at hprofile
          obtain ⟨rfl, rfl⟩ := Prod.mk.inj (Except.ok.inj hprofile)
          rfl

/-- The order in which a scan without deaths merges the files of a project. What is looked for has no part in it. -/
def takenIn (host : Host) (state : State) (files : List Candidate) : List Candidate :=
  match state.settings.resourceProfile host with
  | .ok (profile, settings) => (circumstances host 0 { state with settings } profile).taken files
  | .error _ => files

theorem takenIn_perm (host : Host) (state : State) (files : List Candidate) :
    (takenIn host state files).Perm files := by
  rw [takenIn]
  split
  · exact Scan.Circumstances.taken_perm _ files
  · exact .refl _

/-- Without a pool files are merged as they are. -/
theorem takenIn_of_unpooled (host : Host) (elapsed : Float) {profile : Profile} {settings : Settings}
    (hprofile : state.settings.resourceProfile host = .ok (profile, settings))
    (hinline : ((circumstances host elapsed { state with settings } profile).plan targets).usesPool
      (((circumstances host elapsed { state with settings } profile).plan targets).isProgressive
        host.platform files.length) = false) : takenIn host state files = files := by
  rw [takenIn, hprofile]
  refine Scan.Plan.taken_eq _ fun hpool => ?_
  cases hinline.symm.trans hpool

variable [Syntax.Parser]

/-- The scan of a discovery is a scan in its circumstances. -/
theorem scanFiles_eq_scanUnder {profile : Profile} {settings : Settings} (elapsed : Float)
    (targets : List String) (hsome : files ≠ [])
    (hprofile : state.settings.resourceProfile host = .ok (profile, settings)) :
    (scanFiles host elapsed state targets files).stats.map
        (·, (scanFiles host elapsed state targets files).index) =
      (Scan.scanUnder (circumstances host elapsed { state with settings } profile) targets
        (.ofTargets targets) state.tree files).mapError .scan := by
  have hempty : ¬ files.isEmpty = true := by simpa using hsome
  rw [scanFiles, if_neg hempty, hprofile, Scan.scanUnder]
  dsimp only [circumstances]
  cases hplan : Scan.Plan.make targets profile settings.batchSize settings.progressive with
  | error fault => rfl
  | ok plan =>
      dsimp only
      cases hrun : Scan.run plan host.order host.platform elapsed state.tree
          (Scan.start plan (.ofTargets targets) state.faults) files with
      | mk outcome progress =>
          cases outcome with
          | error fault => rfl
          | ok counts => rfl

theorem scanUnder_of_scanFiles {profile : Profile} {settings : Settings} {stats : Scan.Stats}
    (hsome : files ≠ [])
    (hprofile : state.settings.resourceProfile host = .ok (profile, settings))
    (hstats : (scanFiles host elapsed state targets files).stats = .ok stats) :
    Scan.scanUnder (circumstances host elapsed { state with settings } profile) targets
        (.ofTargets targets) state.tree files =
      .ok (stats, (scanFiles host elapsed state targets files).index) := by
  have hscan := scanFiles_eq_scanUnder elapsed targets hsome hprofile
  rw [hstats] at hscan
  generalize Scan.scanUnder _ _ _ _ _ = outcome at hscan ⊢
  cases outcome with
  | error fault => cases hscan
  | ok found => exact congrArg Except.ok (Except.ok.inj hscan).symm

/-- A scan of files that ends well knows its profile. -/
theorem profile_of_scanFiles {stats : Scan.Stats} (hfiles : files ≠ [])
    (hstats : (scanFiles host elapsed state targets files).stats = .ok stats) :
    ∃ profile, state.settings.resourceProfile host =
      .ok (profile, { state.settings with profile := some profile }) := by
  have hempty : ¬ files.isEmpty = true := by simpa using hfiles
  cases hprofile : state.settings.resourceProfile host with
  | error fault =>
      rw [scanFiles, if_neg hempty, hprofile] at hstats
      cases hstats
  | ok found =>
      obtain ⟨profile, settings⟩ := found
      exact ⟨profile, by rw [settings_of_resourceProfile hprofile]⟩

section Calm

variable {profile : Profile} {settings : Settings} (hfiles : files ≠ []) (hsome : targets ≠ [])
  (hnamed : "" ∉ targets)
  (hprofile : state.settings.resourceProfile host = .ok (profile, settings))
  (hfree : ScansCrashFree host elapsed state targets files)

include hfiles hsome hnamed hprofile hfree

/-- A scan without deaths is known in full, but for what it says on the way. -/
theorem scanFiles_calm :
    let plan := (circumstances host elapsed { state with settings } profile).plan targets
    let one := Scan.sequentially targets (.ofTargets targets) state.tree (takenIn host state files)
    (∀ fault, one = .error fault →
      (scanFiles host elapsed state targets files).stats = .error (.scan fault)) ∧
    ∀ tally, one = .ok tally → ∃ notices,
      scanFiles host elapsed state targets files =
        ⟨.ok (plan.countsOf host.platform elapsed files tally), tally.index, notices,
          { state with settings }⟩ := by
  intro plan one
  have hempty : ¬ files.isEmpty = true := by simpa using hfiles
  have hplan : Scan.Plan.make targets profile settings.batchSize settings.progressive = .ok plan :=
    (circumstances host elapsed { state with settings } profile).make_plan hsome
  have hspare : plan.usesPool (plan.isProgressive host.platform files.length) = true →
      state.faults.Spare files :=
    fun hpool => hfree profile settings hprofile ((Scan.Circumstances.pools_iff hsome).mpr hpool)
  have htaken : takenIn host state files = plan.taken host.order host.platform files := by
    rw [takenIn, hprofile]
    rfl
  obtain ⟨herror, hok⟩ :=
    Scan.run_of_spare plan host.order elapsed state.tree (.ofTargets targets) hnamed hspare
  rw [← htaken] at herror hok
  rw [scanFiles, if_neg hempty, hprofile]
  dsimp only
  rw [hplan]
  constructor
  · intro fault hfault
    obtain ⟨after, hrun⟩ := herror fault hfault
    dsimp only
    rw [hrun]
    rfl
  · intro tally htally
    obtain ⟨after, hrun, hindex, hfaults⟩ := hok tally htally
    refine ⟨after.notices, ?_⟩
    dsimp only
    rw [hrun, ← hindex, ← hfaults]
    rfl

theorem counts_of_scanFiles {stats : Scan.Stats}
    (hstats : (scanFiles host elapsed state targets files).stats = .ok stats) :
    ∃ tally notices,
      Scan.sequentially targets (.ofTargets targets) state.tree (takenIn host state files) = .ok tally ∧
      stats = ((circumstances host elapsed { state with settings } profile).plan targets).countsOf
        host.platform elapsed files tally ∧
      scanFiles host elapsed state targets files =
        ⟨.ok stats, tally.index, notices, { state with settings }⟩ := by
  obtain ⟨herror, hok⟩ := scanFiles_calm hfiles hsome hnamed hprofile hfree
  cases hone : Scan.sequentially targets (.ofTargets targets) state.tree (takenIn host state files) with
  | error fault =>
      rw [herror fault hone] at hstats
      cases hstats
  | ok tally =>
      obtain ⟨notices, hscan⟩ := hok tally hone
      rw [hscan] at hstats
      obtain rfl := Except.ok.inj hstats
      exact ⟨tally, notices, rfl, rfl, hscan⟩

end Calm

/-- Files whose paths can be read are scanned to an end, and the store is where it was. -/
theorem scanFiles_succeeds {profile : Profile} (hsome : targets ≠ []) (hnamed : "" ∉ targets)
    (hprofile : state.settings.profile = some profile)
    (hnull : ∀ file ∈ files, '\x00' ∉ (toString file.path).toList)
    (hfree : ScansCrashFree host elapsed state targets files) :
    ∃ stats, (scanFiles host elapsed state targets files).stats = .ok stats ∧
      SameStore state (scanFiles host elapsed state targets files).state := by
  by_cases hfiles : files = []
  · subst hfiles
    exact ⟨{}, rfl, rfl, rfl, rfl, rfl⟩
  have hknown : state.settings.resourceProfile host = .ok (profile, state.settings) := by
    rw [Settings.resourceProfile, hprofile]
  obtain ⟨-, hok⟩ := scanFiles_calm hfiles hsome hnamed hknown hfree
  obtain ⟨results, hresults⟩ := Scan.scanEach_eq_ok hsome hnamed state.tree fun file hfile =>
    hnull file ((takenIn_perm host state files).mem_iff.mp hfile)
  obtain ⟨notices, hscan⟩ := hok _ (congrArg (Except.map _) hresults)
  rw [hscan]
  exact ⟨_, rfl, rfl, rfl, rfl, rfl⟩

theorem run_ungathered {interfaces : Option (List String)} {gathered : State} {fault : FileTree.Fault}
    (hsome : targetsOf state interfaces ≠ [])
    (hcheck : checkTargets (targetsOf state interfaces) = .ok ())
    (hgather : gather state = (.error fault, gathered)) :
    run host elapsed state interfaces =
      ⟨.error (.file fault), [.discovering (targetsOf state interfaces).length], gathered⟩ := by
  have hempty : ¬ (targetsOf state interfaces).isEmpty = true := by simpa using hsome
  unfold run
  dsimp only
  unfold targetsOf at *
  rw [if_neg hempty, hcheck, hgather]

/-- What was found is reported once the artifacts are written. -/
theorem run_reports {interfaces : Option (List String)} {gathered : State} {scanned : Scanned}
    {stats : Scan.Stats} {paths : List Path} {after : FileTree}
    (hsome : targetsOf state interfaces ≠ [])
    (hcheck : checkTargets (targetsOf state interfaces) = .ok ())
    (hgather : gather state = (.ok files, gathered))
    (hscan : scanFiles host elapsed gathered (targetsOf state interfaces) files = scanned)
    (hstats : scanned.stats = .ok stats)
    (hwrite : Artifact.write host.device scanned.state.settings.cachePath
      scanned.state.settings.format scanned.index scanned.state.tree (targetsOf state interfaces) = (.ok paths, after)) :
    run host elapsed state interfaces =
      ⟨.ok {
          interfaces := targetsOf state interfaces
          implementors := (targetsOf state interfaces).map fun target =>
            (target, scanned.index.get target)
          artifacts := paths
          stats := some stats
          duration := elapsed },
        .discovering (targetsOf state interfaces).length :: scanned.notices ++ [.discovered elapsed],
        { scanned.state with tree := after }⟩ := by
  have hempty : ¬ (targetsOf state interfaces).isEmpty = true := by simpa using hsome
  unfold run
  dsimp only
  unfold targetsOf at *
  rw [if_neg hempty, hcheck, hgather]
  dsimp only
  rw [hscan, hstats]
  dsimp only [conclude]
  rw [hwrite]

/-- A discovery ends with a report where its files are collected, no worker dies and nothing is in the way of the
artifacts. -/
theorem run_succeeds {interfaces : Option (List String)} {gathered : State} {profile : Profile}
    {folder : List String} (hsome : targetsOf state interfaces ≠ [])
    (hcheck : checkTargets (targetsOf state interfaces) = .ok ())
    (hgather : gather state = (.ok files, gathered))
    (hnull : ∀ file ∈ files, '\x00' ∉ (toString file.path).toList)
    (hprofile : state.settings.profile = some profile)
    (hfree : CrashFree host elapsed state interfaces) (hsound : host.device.Sound)
    (hcache : Artifact.CacheAt state.tree state.settings.cachePath folder)
    (hwritable : ∀ target ∈ targetsOf state interfaces,
      Artifact.Writable state.tree state.settings.cachePath folder target state.settings.format) :
    ∃ report, (run host elapsed state interfaces).outcome = .ok report := by
  have hgathered := sameStore_of_gather hgather
  obtain ⟨stats, hstats, hscanned⟩ := scanFiles_succeeds hsome (not_mem_of_checkTargets hcheck)
    (hgathered.profile.trans hprofile) hnull (hfree files gathered hgather)
  rw [← hgathered.tree, ← hgathered.cache, ← hscanned.tree, ← hscanned.cache] at hcache
  rw [← hgathered.tree, ← hgathered.cache, ← hgathered.format, ← hscanned.tree, ← hscanned.cache,
    ← hscanned.format] at hwritable
  obtain ⟨paths, after, hwrite⟩ :=
    Artifact.write_succeeds hsound (checkNames_of_checkTargets hcheck) hcache hwritable
  rw [run_reports hsome hcheck hgather rfl hstats hwrite]
  exact ⟨_, rfl⟩

/-- How a discovery for targets goes: it has nothing to do, its targets are refused, it fails to collect, to scan or
to write, or it comes to a report. -/
inductive Course (host : Host) (elapsed : Float) (state : State) (targets : List String) :
    Result → Prop
  | idle (hnone : targets = []) : Course host elapsed state targets ⟨.ok {}, [.noInterfaces], state⟩
  | refused {fault} (hsome : targets ≠ []) (hcheck : checkTargets targets = .error fault) :
      Course host elapsed state targets ⟨.error fault, [], state⟩
  | uncollected {fault gathered} (hsome : targets ≠ []) (hcheck : checkTargets targets = .ok ())
      (hgather : gather state = (.error fault, gathered)) :
      Course host elapsed state targets
        ⟨.error (.file fault), [.discovering targets.length], gathered⟩
  | unscanned {files gathered scanned fault} (hsome : targets ≠ [])
      (hcheck : checkTargets targets = .ok ()) (hgather : gather state = (.ok files, gathered))
      (hscan : scanFiles host elapsed gathered targets files = scanned)
      (hstats : scanned.stats = .error fault) :
      Course host elapsed state targets
        ⟨.error fault, .discovering targets.length :: scanned.notices, scanned.state⟩
  | unwritten {files gathered scanned stats fault after} (hsome : targets ≠ [])
      (hcheck : checkTargets targets = .ok ()) (hgather : gather state = (.ok files, gathered))
      (hscan : scanFiles host elapsed gathered targets files = scanned)
      (hstats : scanned.stats = .ok stats)
      (hwrite : Artifact.write host.device scanned.state.settings.cachePath
        scanned.state.settings.format scanned.index scanned.state.tree targets = (.error fault, after)) :
      Course host elapsed state targets
        ⟨.error (.write fault), .discovering targets.length :: scanned.notices,
          { scanned.state with tree := after }⟩
  | reported {files gathered scanned stats paths after} (hsome : targets ≠ [])
      (hcheck : checkTargets targets = .ok ()) (hgather : gather state = (.ok files, gathered))
      (hscan : scanFiles host elapsed gathered targets files = scanned)
      (hstats : scanned.stats = .ok stats)
      (hwrite : Artifact.write host.device scanned.state.settings.cachePath
        scanned.state.settings.format scanned.index scanned.state.tree targets = (.ok paths, after)) :
      Course host elapsed state targets
        ⟨.ok {
            interfaces := targets
            implementors := targets.map fun target => (target, scanned.index.get target)
            artifacts := paths
            stats := some stats
            duration := elapsed },
          .discovering targets.length :: scanned.notices ++ [.discovered elapsed],
          { scanned.state with tree := after }⟩

theorem course_of_conclude {files : List Candidate} {gathered : State} {scanned : Scanned}
    {stats : Scan.Stats} (hsome : targets ≠ []) (hcheck : checkTargets targets = .ok ())
    (hgather : gather state = (.ok files, gathered))
    (hscan : scanFiles host elapsed gathered targets files = scanned)
    (hstats : scanned.stats = .ok stats) :
    Course host elapsed state targets (conclude host.device elapsed targets
      { scanned with notices := .discovering targets.length :: scanned.notices } stats) := by
  unfold conclude
  dsimp only
  cases hwrite : Artifact.write host.device scanned.state.settings.cachePath
      scanned.state.settings.format scanned.index scanned.state.tree targets with
  | mk written after =>
      cases written with
      | error fault => exact .unwritten hsome hcheck hgather hscan hstats hwrite
      | ok paths => exact .reported hsome hcheck hgather hscan hstats hwrite

/-- Every discovery takes one of these courses. -/
theorem run_course (host : Host) (elapsed : Float) (state : State)
    (interfaces : Option (List String)) :
    Course host elapsed state (targetsOf state interfaces) (run host elapsed state interfaces) := by
  unfold run targetsOf
  dsimp only
  generalize Finder.distinct (interfaces.getD state.settings.interfaces) = targets
  by_cases hnone : targets = []
  · rw [if_pos (List.isEmpty_iff.mpr hnone)]
    exact .idle hnone
  · rw [if_neg (mt List.isEmpty_iff.mp hnone)]
    cases hcheck : checkTargets targets with
    | error fault => exact .refused hnone hcheck
    | ok value =>
        dsimp only
        cases hgather : gather state with
        | mk collected gathered =>
            cases collected with
            | error fault => exact .uncollected hnone hcheck hgather
            | ok files =>
                dsimp only
                split
                · next fault hstats => exact .unscanned hnone hcheck hgather rfl hstats
                · next stats hstats => exact course_of_conclude hnone hcheck hgather rfl hstats

end Roster.Discovery
