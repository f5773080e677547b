import Roster.Proofs.ConfigurationFaults
import Roster.Proofs.FilledFolder

/-! A discovery that is run again. The first run fills the folder of the cache and may settle the search of vendors and
the profile; none of that is seen by the second one as long as the cache is not below a root, so it finds the same
files, with the same classes in them. Unless a pool takes its units in in another order than before, it writes what is
there already. -/

namespace Roster

namespace Scan

variable [Syntax.Parser]

theorem scanFile_congr {tree after : FileTree} {path : String}
    (hsame : fileTree after path = fileTree tree path) (targets : List String) :
    scanFile targets after path = scanFile targets tree path := by
  rw [scanFile, scanFile, hsame]

/-- Files that are read the same come to the same. -/
theorem sequentially_congr {tree after : FileTree} {files : List Candidate}
    (hsame : ∀ file ∈ files,
      fileTree after (toString file.path) = fileTree tree (toString file.path))
    (targets : List String) (index : Index) :
    sequentially targets index after files = sequentially targets index tree files := by
  have heach : scanEach targets after files = scanEach targets tree files := by
    induction files with
    | nil => rw [scanEach, scanEach, List.mapM_nil, List.mapM_nil]
    | cons file rest ih =>
        obtain ⟨hfirst, hlater⟩ := List.forall_mem_cons.mp hsame
        have hrest := ih hlater
        rw [scanEach, scanEach] at hrest ⊢
        rw [List.mapM_cons, List.mapM_cons, hrest, scanFile_congr hfirst]
  rw [sequentially, sequentially, heach]

omit [Syntax.Parser] in
/-- Tallies that are alike give the same counts, but for the time. -/
theorem Tally.Alike.counts {first second : Tally} (halike : first.Alike second) (plan : Plan)
    (platform : String) (elapsed later : Float) (files : List Candidate) :
    { plan.countsOf platform later files second with elapsed := 0 } =
      { plan.countsOf platform elapsed files first with elapsed := 0 } := by
  rw [Plan.countsOf, Plan.countsOf, halike.scanned, halike.failed, halike.found]

end Scan

namespace Discovery

open FileTree

/-- The folders that a discovery may take for roots. -/
def possibleRoots (settings : Settings) : List Path :=
  settings.sourcePath :: settings.moduleDirectories.map (fun name : String => settings.base / name)
    ++ settings.base / "vendor" :: settings.vendors.map (settings.base / "vendor" / ·)

theorem module_mem_possibleRoots {settings : Settings} {name : String}
    (hname : name ∈ settings.moduleDirectories) : settings.base / name ∈ possibleRoots settings := by
  apply List.mem_append_left
  apply List.mem_cons_of_mem
  exact List.mem_map.mpr ⟨name, hname, rfl⟩

variable {folder names : List String} {tree after : FileTree} {settings later : Settings}
  {roots : List Path}

/-- Filling a folder beside the roots does not change them, nor does what settles with the first look for them. -/
theorem scanRoots_filled (hfree : tree.root.LinkFree) (hfills : FillsFolder folder names tree after)
    (hbeside : ∀ root ∈ possibleRoots settings, Beside tree folder root)
    (hroots : Collection.scanRoots tree settings = .ok (roots, later)) (profile : Option Profile) :
    (∀ root ∈ roots, root ∈ possibleRoots settings) ∧
      Collection.scanRoots after { later with profile } = .ok (roots, { later with profile }) := by
  rw [Collection.scanRoots] at hroots
  cases hmodules : Collection.moduleRoots tree settings.base settings.moduleDirectories with
  | error fault =>
      rw [hmodules] at hroots
      cases hroots
  | ok modules =>
      rw [hmodules] at hroots
      obtain ⟨hagain, hmem⟩ := Collection.moduleRoots_filled hfree hfills
        (fun name hname => hbeside _ (module_mem_possibleRoots hname)) hmodules
      have hown : ∀ root ∈ settings.sourcePath :: modules, root ∈ possibleRoots settings := by
        intro root hroot
        rcases List.mem_cons.mp hroot with rfl | hroot
        · exact List.mem_cons_self
        · obtain ⟨name, hname, rfl⟩ := hmem root hroot
          exact module_mem_possibleRoots hname
      change (if _ then _ else if _ then _ else _) = _ at hroots
      split_ifs at hroots with hall hsome
      · obtain ⟨rfl, rfl⟩ := Prod.mk.inj (Except.ok.inj hroots)
        constructor
        · intro root hroot
          rcases List.mem_append.mp hroot with hroot | hroot
          · exact hown root hroot
          · simp [possibleRoots, List.mem_singleton.mp hroot]
        · rw [Collection.scanRoots, hagain]
          exact if_pos hall
      · obtain ⟨rfl, rfl⟩ := Prod.mk.inj (Except.ok.inj hroots)
        constructor
        · intro root hroot
          rcases List.mem_append.mp hroot with hroot | hroot
          · exact hown root hroot
          · exact List.mem_append_right _ (List.mem_cons_of_mem _ hroot)
        · rw [Collection.scanRoots, hagain]
          exact (if_neg hall).trans (if_pos hsome)
      · obtain ⟨rfl, rfl⟩ := Prod.mk.inj (Except.ok.inj hroots)
        refine ⟨hown, ?_⟩
        rw [Collection.scanRoots, hagain]
        exact (if_neg hall).trans (if_neg hsome)

/-- A state once its profile is known and its tree has grown. -/
def State.advanced (state : State) (profile : Option Profile) (tree : FileTree) : State where
  settings := { state.settings with profile }
  tree := tree
  faults := state.faults

variable {host : Host} {elapsed : Float} {state gathered : State} {targets : List String}
  {files : List Candidate} {stats : Scan.Stats}

/-- The same files are gathered again, and nothing is left to settle. -/
theorem gather_filled [Syntax.Parser] (hplain : state.tree.root.Plain)
    (hfills : FillsFolder folder names state.tree after)
    (hbeside : ∀ root ∈ possibleRoots state.settings, Beside state.tree folder root)
    (hgather : gather state = (.ok files, gathered)) (profile : Option Profile) :
    gather (gathered.advanced profile after) = (.ok files, gathered.advanced profile after) ∧
      ∀ file ∈ files,
        Scan.fileTree after (toString file.path) = Scan.fileTree state.tree (toString file.path) := by
  rw [gather] at hgather
  cases hroots : Collection.scanRoots state.tree state.settings with
  | error fault =>
      rw [hroots] at hgather
      cases hgather
  | ok found =>
      obtain ⟨roots, settings⟩ := found
      rw [hroots] at hgather
      obtain ⟨hcollect, rfl⟩ := Prod.mk.inj hgather
      obtain ⟨hmem, hagain⟩ := scanRoots_filled hplain.no_link hfills hbeside hroots profile
      obtain ⟨hcollected, hread⟩ := Collection.collect_filled hplain hfills
        (fun root hroot => hbeside root (hmem root hroot)) hcollect
      refine ⟨?_, hread⟩
      rw [gather, State.advanced]
      dsimp only
      rw [hagain]
      exact congrArg (·, _) hcollected

section Advanced

variable {again : Host} {profile : Profile}
  (hprofile : gathered.settings.resourceProfile host =
    .ok (profile, { gathered.settings with profile := some profile }))
  (hplatform : again.platform = host.platform) (after : FileTree)

include hprofile hplatform

/-- Once the profile is known, the order of files depends on the platform of the host and on its order of units. -/
theorem takenIn_advanced (horder : again.order = host.order) (files : List Candidate) :
    takenIn again (gathered.advanced (some profile) after) files = takenIn host gathered files := by
  rw [takenIn, takenIn, hprofile]
  change Scan.Plan.taken _ again.order again.platform files =
    Scan.Plan.taken _ host.order host.platform files
  rw [hplatform, horder]
  rfl

/-- Where no worker died, none dies when the profile is known. -/
theorem scansCrashFree_advanced (hfree : ScansCrashFree host elapsed gathered targets files)
    (later : Float) :
    ScansCrashFree again later (gathered.advanced (some profile) after) targets files := by
  intro other settings hother
  have hknown : (gathered.advanced (some profile) after).settings.resourceProfile again =
      .ok (profile, { gathered.settings with profile := some profile }) := rfl
  cases hknown.symm.trans hother
  rintro ⟨plan, hplan, hpool⟩
  change plan.usesPool (plan.isProgressive again.platform files.length) = true at hpool
  rw [hplatform] at hpool
  exact hfree profile _ hprofile ⟨plan, hplan, hpool⟩

end Advanced

section Scan

variable [Syntax.Parser]

/-- What a second scan of the same files comes to: the same counts, and for each target the same classes. -/
structure ScansAgain (host again : Host) (first : Index) (stats : Scan.Stats) (state : State)
    (second : Scanned) : Prop where
  counts : ∃ counted, second.stats = .ok counted ∧
    { counted with elapsed := 0 } = { stats with elapsed := 0 }
  state_eq : second.state = state
  classes : ∀ target, (second.index.get target).Perm (first.get target)
  same : again.order = host.order ∨ stats.parallel = false → second.index = first

/-- A scan without deaths changes nothing but that its profile is known. In the state it leaves, a scan of files that
are read as before comes to the same, but for the order in which units are taken in. -/
theorem scanFiles_again (hsome : targets ≠ []) (hnamed : "" ∉ targets)
    (hfree : ScansCrashFree host elapsed gathered targets files)
    (hstats : (scanFiles host elapsed gathered targets files).stats = .ok stats) :
    ∃ profile,
      (scanFiles host elapsed gathered targets files).state = gathered.advanced profile gathered.tree ∧
      ∀ (again : Host) (later : Float) (after : FileTree), again.platform = host.platform →
        (∀ file ∈ files, Scan.fileTree after (toString file.path) =
          Scan.fileTree gathered.tree (toString file.path)) →
        ScansAgain host again (scanFiles host elapsed gathered targets files).index stats
          (gathered.advanced profile after)
          (scanFiles again later (gathered.advanced profile after) targets files) := by
  by_cases hfiles : files = []
  · subst hfiles
    obtain rfl := Except.ok.inj hstats
    exact ⟨gathered.settings.profile, rfl, fun again later after _ _ =>
      ⟨⟨_, rfl, rfl⟩, rfl, fun _ => .refl _, fun _ => rfl⟩⟩
  obtain ⟨profile, hprofile⟩ := profile_of_scanFiles hfiles hstats
  obtain ⟨tally, notices, hone, rfl, hscan⟩ :=
    counts_of_scanFiles hfiles hsome hnamed hprofile hfree hstats
  rw [hscan]
  refine ⟨some profile, rfl, fun again later after hplatform hread => ?_⟩
  -- the files come in another order at most, and are read as before
  have hperm := (takenIn_perm again (gathered.advanced (some profile) after) files).trans
    (takenIn_perm host gathered files).symm
  have houtcomes := Scan.sequentially_perm hsome hnamed (.ofTargets targets) gathered.tree hperm
  rw [hone] at houtcomes
  obtain ⟨other, hother, halike⟩ := houtcomes.of_ok
  have hsecond := (Scan.sequentially_congr (fun file hfile =>
    hread file ((takenIn_perm _ _ files).mem_iff.mp hfile)) targets (.ofTargets targets)).trans hother
  have hknown : (gathered.advanced (some profile) after).settings.resourceProfile again =
      .ok (profile, { gathered.settings with profile := some profile }) := rfl
  obtain ⟨-, hok⟩ := scanFiles_calm hfiles hsome hnamed hknown
    (scansCrashFree_advanced hprofile hplatform after hfree later)
  obtain ⟨said, hscanAgain⟩ := hok other hsecond
  rw [hscanAgain, hplatform]
  refine ⟨⟨_, rfl, halike.counts _ _ elapsed later files⟩, rfl, halike.classes, ?_⟩
  rintro (horder | hinline)
  · rw [takenIn_advanced hprofile hplatform after horder, hone] at hother
    cases hother
    rfl
  · rw [takenIn_of_unpooled host elapsed hprofile hinline] at hone
    have hinlineAgain := hinline
    rw [← hplatform] at hinlineAgain
    have hplain : takenIn again (gathered.advanced (some profile) after) files = files :=
      takenIn_of_unpooled again later hknown hinlineAgain
    rw [hplain, hone] at hother
    cases hother
    rfl

end Scan

/-- A report but for the times in it. -/
def Report.untimed (report : Report) : Report :=
  { report with stats := report.stats.map ({ · with elapsed := 0 }), duration := 0 }

/-- A project without links whose cache is not below a folder that may be a root. Where the way to the cache has to be
made, no root goes through it to a name that is too long. -/
structure Tidy (state : State) : Prop where
  plain : state.tree.root.Plain
  cache : state.settings.cachePath.Clean
  roots : ∀ root ∈ possibleRoots state.settings,
    Beside state.tree state.settings.cachePath.parts root

theorem targetsOf_advanced (hgather : gather state = (.ok files, gathered)) (profile : Option Profile)
    (after : FileTree) (interfaces : Option (List String)) :
    targetsOf (gathered.advanced profile after) interfaces = targetsOf state interfaces := by
  rcases gathered_of_gather hgather with rfl | rfl
  · rfl
  · rfl

/-- A report and the state behind it, set against those of an earlier discovery: classes may have changed places, in
the report and in the artifacts, but nothing else has changed. -/
structure Repeats (report second : Report) (after last : State) : Prop where
  interfaces : second.interfaces = report.interfaces
  implementors : List.Forall₂ (fun known found => found.1 = known.1 ∧ found.2.Perm known.2)
    report.implementors second.implementors
  artifacts : second.artifacts = report.artifacts
  counts : second.untimed.stats = report.untimed.stats
  settings : last.settings = after.settings
  faults : last.faults = after.faults
  tree : Artifact.Rewritten after.settings.cachePath after.settings.format second.implementors
    after.tree last.tree

theorem repeats_idle (state : State) : Repeats {} {} state state :=
  ⟨rfl, .nil, rfl, rfl, rfl, rfl, rfl, nofun, fun _ _ _ _ => Iff.rfl, fun _ => Iff.rfl⟩

/-- A discovery that ended well is repeated by another one in the state it left, with the same configuration and on the
same platform, up to the order in which a pool takes its units in. If that is the same, or if there was no pool, the
report is the same but for the times, and nothing changes any more. -/
theorem rediscovery_changes_nothing [Syntax.Parser] {host again : Host} {elapsed later : Float}
    {state after : State} {interfaces : Option (List String)} {report : Report} (htidy : Tidy state)
    (hnames : ∀ target ∈ targetsOf state interfaces, '/' ∉ target.toList)
    (hfree : CrashFree host elapsed state interfaces) (hplatform : again.platform = host.platform)
    (hsound : again.device.Sound) (hrun : (run host elapsed state interfaces).outcome = .ok report)
    (hafter : (run host elapsed state interfaces).state = after) :
    ∃ second, (run again later after interfaces).outcome = .ok second ∧
      Repeats report second after (run again later after interfaces).state ∧
      (again.order = host.order ∨ report.stats.any (·.parallel) = false →
        second.untimed = report.untimed ∧ (run again later after interfaces).state = after) := by
  have hcourse := run_course host elapsed state interfaces
  generalize run host elapsed state interfaces = result at hcourse hrun hafter
  cases hcourse with
  | idle hnone =>
      obtain rfl : state = after := hafter
      obtain rfl : {} = report := Except.ok.inj hrun
      obtain ⟨houtcome, hstate⟩ := skipped_of_course hnone (run_course again later state interfaces)
      rw [hstate]
      exact ⟨{}, houtcome, repeats_idle state, fun _ => ⟨rfl, rfl⟩⟩
  | @reported files gathered scanned stats paths tree hsome hcheck hgather hscan hstats hwrite =>
      subst hscan
      cases hrun
      have hstore := sameStore_of_gather hgather
      obtain ⟨profile, hstate, hscanAgain⟩ := scanFiles_again hsome (not_mem_of_checkTargets hcheck)
        (hfree files gathered hgather) hstats
      rw [hstate] at hwrite hafter
      obtain rfl : gathered.advanced profile tree = after := hafter
      change Artifact.write host.device gathered.settings.cachePath gathered.settings.format _
        gathered.tree _ = _ at hwrite
      have hclean : gathered.settings.cachePath.Clean := hstore.cache ▸ htidy.cache
      have hplain : gathered.tree.root.Plain := hstore.tree ▸ htidy.plain
      -- the artifacts are all that the tree has gained, and they lie beside the roots
      have hfills := Artifact.fillsFolder_of_write hplain.no_link hclean hnames hwrite
      rw [hstore.cache, hstore.tree] at hfills
      obtain ⟨hgatherAgain, hread⟩ := gather_filled htidy.plain hfills htidy.roots hgather profile
      rw [← hstore.tree] at hread
      obtain ⟨⟨counted, hcounted, hcounts⟩, hsame, hclasses, hindex⟩ :=
        hscanAgain again later tree hplatform hread
      have htargets := targetsOf_advanced hgather profile tree interfaces
      generalize hsecond : scanFiles again later (gathered.advanced profile tree)
        (targetsOf state interfaces) files = second at hcounted hsame hclasses hindex
      obtain ⟨last, hover, hrewritten⟩ :=
        Artifact.write_over hsound hplain.no_link hclean hnames hwrite second.index
      have hwriteOver : Artifact.write again.device second.state.settings.cachePath
          second.state.settings.format second.index second.state.tree (targetsOf state interfaces) =
            (.ok paths, last) := by
        rw [hsame]
        exact hover
      rw [← htargets] at hsome hcheck hsecond hwriteOver
      rw [run_reports hsome hcheck hgatherAgain hsecond hcounted hwriteOver, htargets, hsame]
      refine ⟨_, rfl, ⟨rfl, ?_, rfl, congrArg some hcounts, rfl, rfl, hrewritten⟩, fun horder => ?_⟩
      · refine List.forall₂_map_left_iff.mpr (List.forall₂_map_right_iff.mpr ?_)
        exact List.forall₂_same.mpr fun target _ => ⟨rfl, hclasses target⟩
      · have heq := hindex horder
        rw [heq] at hover
        cases hover.symm.trans (Artifact.write_again hsound hplain.no_link hclean hnames hwrite)
        refine ⟨?_, rfl⟩
        simp only [Report.untimed, Option.map_some, hcounts, heq]
  | _ => cases hrun

/-- The project with one source, told to search all vendors and a single one. -/
def bothSearches : State :=
  { oneSource with
    settings := { oneSource.settings with vendors := ["acme"], searchVendors := true, searchAllVendors := true } }

theorem plain_oneSource : oneSource.tree.root.Plain := by
  have happ (content : ByteArray) : (Entry.folder [("A.php", .file content)]).Plain := by
    refine .folder (by simp) ?_ ?_
    · simpa using (by decide : Path.IsName "A.php")
    · simpa using .file content
  have hcache : (Entry.folder []).Plain := .folder (by simp) (by simp) (by simp)
  refine .folder (by decide) ?_ ?_
  · simpa using (by decide : Path.IsName "app" ∧ Path.IsName "cache")
  · simpa using ⟨happ _, hcache⟩

theorem tidy_bothSearches : Tidy bothSearches where
  plain := plain_oneSource
  cache := by decide
  roots := by
    have hroots : possibleRoots bothSearches.settings =
        [⟨.slash, ["app"]⟩, ⟨.slash, ["vendor"]⟩, ⟨.slash, ["vendor", "acme"]⟩] := by decide +kernel
    have hshort (path : Path) (above : List String) (name : String) (habove : above <+: ["cache"])
        (hnone : oneSource.tree.root.at? above = none) :
        above ++ [name] <+: path.parts → ¬ longestName < name.utf8ByteSize := by
      rcases List.prefix_cons_iff.mp habove with rfl | ⟨rest, rfl, hrest⟩
      · cases hnone
      · obtain rfl := List.prefix_nil.mp hrest
        cases hnone
    rw [hroots]
    intro root hroot
    refine ⟨?_, ?_, hshort root⟩
    · revert root
      decide
    · revert root
      decide

theorem gather_bothSearches : ∃ files,
    gather bothSearches = (.ok files,
      { bothSearches with settings := { bothSearches.settings with searchVendors := false } }) ∧
    ∀ file ∈ files, '\x00' ∉ (toString file.path).toList := by
  obtain ⟨files, hgather, hnull⟩ := gather_oneSource
  have happ : Collection.collect oneSource.tree oneSource.settings.base Exclusion.builtIn
      [⟨.slash, ["app"]⟩] = .ok files := congrArg Prod.fst hgather
  have hmissing : oneSource.tree.entry? ⟨.slash, ["vendor"]⟩ = .ok none :=
    entry?_missing plain_oneSource.no_link (by decide) (by decide) rfl rfl (by decide) rfl
  have hvendor : Collection.collectFrom oneSource.tree oneSource.settings.base Exclusion.builtIn
      ⟨.slash, ["vendor"]⟩ = .ok [] := Collection.collectFrom_of_no_folder hmissing (by simp)
  have hroots : Collection.scanRoots bothSearches.tree bothSearches.settings =
      .ok ([⟨.slash, ["app"]⟩, ⟨.slash, ["vendor"]⟩],
        { bothSearches.settings with searchVendors := false }) := rfl
  have hcollect : Collection.collect oneSource.tree oneSource.settings.base Exclusion.builtIn
      [⟨.slash, ["app"]⟩, ⟨.slash, ["vendor"]⟩] = .ok files := by
    rw [Collection.collect] at happ ⊢
    rw [Collection.collect, hvendor]
    exact happ
  refine ⟨files, ?_, hnull⟩
  rw [gather, hroots]
  exact congrArg (·, _) hcollect

theorem crashFree_bothSearches (elapsed : Float) (interfaces : Option (List String)) :
    CrashFree {} elapsed bothSearches interfaces := by
  intro files gathered hgather profile settings hprofile hpools file hfile
  rcases gathered_of_gather hgather with rfl | rfl
  · rfl
  · rfl

/-- Both searches of vendors are asked for, and the first run turns one of them off. -/
theorem rediscovery_changes_nothing_bothSearches :
    Tidy bothSearches ∧ (∀ target ∈ targetsOf bothSearches none, '/' ∉ target.toList) ∧
    CrashFree {} 0 bothSearches none ∧
    ∃ report after second third,
      (run {} 0 bothSearches none).outcome = .ok report ∧
      (run {} 0 bothSearches none).state = after ∧
      (run {} 1 after none).outcome = .ok second ∧ second.untimed = report.untimed ∧
      (run {} 1 after none).state = after ∧
      (run { order := Scan.latestFirst } 1 after none).outcome = .ok third ∧
      Repeats report third after (run { order := Scan.latestFirst } 1 after none).state := by
  have hnames : ∀ target ∈ targetsOf bothSearches none, '/' ∉ target.toList := by decide
  have hfree := crashFree_bothSearches 0 none
  obtain ⟨files, hgather, hnull⟩ := gather_bothSearches
  have hmem : ∀ target ∈ targetsOf bothSearches none, target ∈ ["I", "X\\Y", "J"] := by decide
  obtain ⟨report, hreport⟩ : ∃ report, (run {} 0 bothSearches none).outcome = .ok report :=
    run_succeeds (by decide) (by decide +kernel) hgather hnull rfl hfree Device.sound_nil
      cacheAt_oneSource fun target htarget => writable_oneSource (hmem target htarget)
  have hagain (again : Host) (hplatform : again.platform = "Linux") (hsound : again.device.Sound) :=
    @rediscovery_changes_nothing _ {} again 0 1 _ _ none _ tidy_bothSearches hnames hfree hplatform
      hsound hreport rfl
  obtain ⟨second, hsecond, -, hsame⟩ := hagain {} rfl Device.sound_nil
  obtain ⟨third, hthird, hrepeats, -⟩ := hagain { order := Scan.latestFirst } rfl Device.sound_nil
  obtain ⟨hreports, hstate⟩ := hsame (Or.inl rfl)
  exact ⟨tidy_bothSearches, hnames, hfree, report, _, second, third, hreport, rfl, hsecond, hreports,
    hstate, hthird, hrepeats⟩

/-- A project that has nothing in it yet, with its sources to lie in the cache under a name that is too long. -/
def rootInCache : State where
  settings := {
    base := ⟨.slash, []⟩
    app := some ⟨.slash, ["cache", overlongName]⟩
    cache := some ⟨.slash, ["cache"]⟩
    moduleDirectories := []
    interfaces := ["I"] }
  tree := { root := .folder [] }

theorem plain_rootInCache : rootInCache.tree.root.Plain :=
  .folder (by simp) (by simp) (by simp)

theorem isName_overlongName : Path.IsName overlongName :=
  ⟨by decide +kernel, by decide +kernel, by decide +kernel, not_mem_overlongName (by decide)⟩

theorem clean_overlong : Path.Clean ⟨.slash, ["cache", overlongName]⟩ :=
  ⟨by decide, by simpa using ⟨by decide, isName_overlongName⟩⟩

theorem admissible_overlong : Admissible ⟨.slash, ["cache", overlongName]⟩ := by
  refine admissible_of_not_mem (fun part hpart => ?_) (by decide +kernel)
  rcases List.mem_cons.mp hpart with rfl | hpart
  · decide
  · obtain rfl := List.mem_singleton.mp hpart
    exact not_mem_overlongName (by decide)

/-- There is nothing at the root as long as there is no cache. -/
theorem gather_rootInCache : gather rootInCache = (.ok [], rootInCache) := by
  have hmissing : rootInCache.tree.entry? ⟨.slash, ["cache", overlongName]⟩ = .ok none :=
    entry?_missing plain_rootInCache.no_link clean_overlong admissible_overlong rfl rfl (by decide) rfl
  have hroots : Collection.scanRoots rootInCache.tree rootInCache.settings =
      .ok ([⟨.slash, ["cache", overlongName]⟩], rootInCache.settings) := rfl
  have hcollect : Collection.collect rootInCache.tree rootInCache.settings.base Exclusion.builtIn
      [⟨.slash, ["cache", overlongName]⟩] = .ok [] := by
    rw [Collection.collect, Collection.collectFrom_of_no_folder hmissing (by simp)]
    rfl
  rw [gather, hroots]
  dsimp only
  rw [hcollect]

/-- Once there is one, the root cannot be asked about. -/
theorem gather_of_cache {tree : FileTree} {faults : Scan.WorkerFaults} (hfree : tree.root.LinkFree)
    {entries : List (String × Entry)} (hcache : tree.root.at? ["cache"] = some (.folder entries)) :
    ∃ fault, gather ⟨rootInCache.settings, tree, faults⟩ =
      (.error fault, ⟨rootInCache.settings, tree, faults⟩) := by
  have hordinary : ∀ part ∈ ["cache"], Ordinary part := by decide
  have hrefused := entry?_overlong hfree clean_overlong admissible_overlong rfl hcache
    longestName_lt_overlongName hordinary
  have hroots : Collection.scanRoots tree rootInCache.settings =
      .ok ([⟨.slash, ["cache", overlongName]⟩], rootInCache.settings) := rfl
  rw [gather, hroots]
  dsimp only
  rw [Collection.collect, Collection.collectFrom, hrefused]
  exact ⟨_, rfl⟩

/-- The first run makes the cache. -/
theorem run_rootInCache : ∃ report tree entries,
    (run {} 0 rootInCache none).outcome = .ok report ∧
    (run {} 0 rootInCache none).state = ⟨rootInCache.settings, tree, {}⟩ ∧
    tree.root.LinkFree ∧ tree.root.at? ["cache"] = some (.folder entries) := by
  have hclean : Path.Clean ⟨.slash, ["cache"]⟩ := by decide
  have hnames : ∀ target ∈ targetsOf rootInCache none, '/' ∉ target.toList := by decide
  have hcheck : checkTargets (targetsOf rootInCache none) = .ok () := by decide +kernel
  have hname : Ordinary "cache" := by decide
  have hlocate : rootInCache.tree.locate false ⟨.slash, ["cache"]⟩ = .ok (.free [] "cache") :=
    locate_eq_ok_iff.mpr ⟨by decide, .free hname rfl rfl⟩
  have hmade : Artifact.CacheAt { root := .folder [("cache", .folder [])] } ⟨.slash, ["cache"]⟩ ["cache"] :=
    ⟨⟨[], locate_eq_ok_iff.mpr ⟨by decide, .enter hname rfl Entry.folder_ne_link (.done rfl)⟩⟩,
      fun name target heq => by cases heq⟩
  obtain ⟨paths, tree, hwrite⟩ : ∃ paths tree, Artifact.write [] ⟨.slash, ["cache"]⟩ .php
      (.ofTargets (targetsOf rootInCache none)) rootInCache.tree (targetsOf rootInCache none) =
        (.ok paths, tree) := by
    refine Artifact.write_succeeds_in Device.sound_nil (checkNames_of_checkTargets hcheck)
      (makeFolders_of_free hlocate) hmade fun target htarget => ?_
    obtain rfl := List.mem_singleton.mp htarget
    exact ⟨by decide, by decide, by decide, fun entries heq => by cases heq⟩
  have hfree := plain_rootInCache.no_link
  have hfills := Artifact.fillsFolder_of_write hfree hclean hnames hwrite
  obtain ⟨entries, hcache⟩ := hfills.above ["cache"] (List.prefix_refl _)
  rw [run_reports (by decide) hcheck gather_rootInCache rfl rfl hwrite]
  exact ⟨_, tree, entries, rfl, rfl, hfills.linkFree hfree, hcache⟩

/-- So the folder that the first run makes is in the way of the second one, although no root is above the cache. -/
theorem no_rediscovery_of_root_in_cache :
    rootInCache.tree.root.Plain ∧ rootInCache.settings.cachePath.Clean ∧
    (∀ root ∈ possibleRoots rootInCache.settings,
      root.Clean ∧ ¬ root.parts <+: rootInCache.settings.cachePath.parts) ∧
    (∀ target ∈ targetsOf rootInCache none, '/' ∉ target.toList) ∧
    CrashFree {} 0 rootInCache none ∧
    ∃ report after fault,
      (run {} 0 rootInCache none).outcome = .ok report ∧ (run {} 0 rootInCache none).state = after ∧
      (run {} 0 after none).outcome = .error fault := by
  have hfree : CrashFree {} 0 rootInCache none := by
    intro files gathered hgather profile settings hprofile hpools file hfile
    cases gather_rootInCache.symm.trans hgather
    contradiction
  obtain ⟨report, tree, entries, hreport, hstate, hlinks, hcache⟩ := run_rootInCache
  obtain ⟨fault, hgather⟩ := gather_of_cache hlinks hcache
  have hsome : targetsOf rootInCache none ≠ [] := by decide
  have hcheck : checkTargets (targetsOf rootInCache none) = .ok () := by decide +kernel
  have hsecond : run {} 0 ⟨rootInCache.settings, tree, {}⟩ none = _ :=
    run_ungathered hsome hcheck hgather
  refine ⟨plain_rootInCache, by decide, ?_, by decide, hfree, report, _, .file fault, hreport, hstate, ?_⟩
  · have hroots : possibleRoots rootInCache.settings =
        [⟨.slash, ["cache", overlongName]⟩, ⟨.slash, ["vendor"]⟩] := rfl
    rw [hroots]
    simp only [List.mem_cons, List.not_mem_nil, or_false, forall_eq_or_imp, forall_eq]
    exact ⟨⟨clean_overlong, by simp [Settings.cachePath, rootInCache]⟩, by decide, by decide⟩
  · rw [hsecond]

end Discovery

end Roster
