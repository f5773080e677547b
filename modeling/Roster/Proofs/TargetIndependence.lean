import Roster.Proofs.DiscoveryRun
import Roster.Proofs.MergeOrder

/-! Targets do not get into each other's way. What is recorded for a target is what a finder that knows no other
target records, tree by tree; so it is in a scan, and in a discovery. -/

namespace Roster

open Roster.Syntax

namespace Finder

theorem nodup_distinct (names : List String) : (distinct names).Nodup := by
  have hfold (kept : List String) (hkept : kept.Nodup) :
      (names.foldl
        (fun kept name => if kept.contains name then kept else kept ++ [name]) kept).Nodup := by
    induction names generalizing kept with
    | nil => exact hkept
    | cons name rest ih =>
        rw [List.foldl_cons]
        apply ih
        split_ifs with hknown
        · exact hkept
        · have hnew : name ∉ kept := fun hmem => hknown (List.contains_iff_mem.mpr hmem)
          refine List.nodup_append.mpr ⟨hkept, by simp, ?_⟩
          intro other hother same hsame heq
          exact hnew (by rwa [← List.mem_singleton.mp hsame, ← heq])
  exact hfold [] List.nodup_nil

variable {targets : List String} {target : String}

/-- Of the targets that a reference names, one is left. -/
theorem filter_named (hnodup : targets.Nodup) (hmem : target ∈ targets) (named : String → Bool)
    (className : String) :
    (targets.flatMap fun other => if named other then [Match.mk other className] else []).filter
        (·.target = target) =
      if named target then [⟨target, className⟩] else [] := by
  have hother (others : List String) (hnew : target ∉ others) :
      (others.flatMap fun other => if named other then [Match.mk other className] else []).filter
        (·.target = target) = [] := by
    rw [List.filter_eq_nil_iff]
    intro found hfound
    obtain ⟨other, hother, hmem⟩ := List.mem_flatMap.mp hfound
    have hfound : found = ⟨other, className⟩ := by
      split_ifs at hmem
      · exact List.mem_singleton.mp hmem
      · contradiction
    have hne : other ≠ target := fun heq => hnew (heq ▸ hother)
    simpa [hfound] using hne
  obtain ⟨before, after, rfl⟩ := List.append_of_mem hmem
  have hsplit := List.nodup_append.mp hnodup
  have hbefore : target ∉ before := fun h => hsplit.2.2 target h target List.mem_cons_self rfl
  have hafter : target ∉ after := (List.nodup_cons.mp hsplit.2.1).1
  rw [List.flatMap_append, List.flatMap_cons, List.filter_append, List.filter_append, hother before hbefore,
    hother after hafter]
  by_cases hnamed : named target = true
  · simp [hnamed]
  · simp [hnamed]

theorem filter_declaredBy (hnodup : targets.Nodup) (hmem : target ∈ targets) (space : String)
    (node : Tree) :
    (declaredBy targets space node).filter (·.target = target) = declaredBy [target] space node := by
  rw [declaredBy, declaredBy]
  cases node.nameChild? with
  | none => rfl
  | some name =>
      dsimp only
      split_ifs with hclass
      · rw [List.filter_flatMap]
        congr 1
        funext clause
        split_ifs with hclause
        · rw [List.filter_flatMap]
          congr 1
          funext reference
          split_ifs with hcomment
          · rfl
          · rw [filter_named hnodup hmem, List.flatMap_singleton]
        · rfl
      · rfl

/-- What a tree declares for one of many targets is what it declares for that target alone. -/
theorem filter_declaredIn (hnodup : targets.Nodup) (hmem : target ∈ targets) (tree : Tree) :
    (declaredIn targets tree).filter (·.target = target) = declaredIn [target] tree := by
  simp only [declaredIn, declaredMatches, List.filter_flatMap, filter_declaredBy hnodup hmem]

/-- The classes recorded for a target among others are those declared for it alone. -/
theorem get_merge_declaredIn (hmem : target ∈ targets) (tree : Tree) :
    (({} : Index).merge (declaredIn (distinct targets) tree)).get target =
      (declaredIn [target] tree).map (·.className) := by
  have hdistinct : target ∈ distinct targets := (mem_distinct targets target).mpr hmem
  rw [Index.get_merge, filter_declaredIn (nodup_distinct targets) hdistinct]
  rfl

/-- The classes that a new finder records for a target when it walks one tree, with an index of its own for them. -/
def recordedFor (targets : List String) (target : String) (tree : Tree) :
    Except Fault (List String) := do
  let finder ← ofTargets targets
  let (index, _) ← finder.findInto {} tree
  return index.get target

theorem recordedFor_eq (hnamed : "" ∉ targets) (hmem : target ∈ targets) (tree : Tree) :
    recordedFor targets target tree = .ok ((declaredIn [target] tree).map (·.className)) := by
  have hsome : distinct targets ≠ [] := distinct_ne_nil (List.ne_nil_of_mem hmem)
  rw [recordedFor, ofTargets_eq_ok hnamed]
  change (findInto ⟨distinct targets, _⟩ {} tree >>= _) = _
  rw [findInto, matchesIn_eq_declaredIn hsome]
  exact congrArg Except.ok (get_merge_declaredIn hmem tree)

end Finder

namespace Scan

variable [Syntax.Parser]

/-- The classes that a file declares for a target. -/
def classesIn (tree : FileTree) (target path : String) : List String :=
  match fileTree tree path with
  | .ok (.ok source) => (Finder.declaredIn [target] source).map (·.className)
  | _ => []

/-- A file contributes to a target what it declares for it, whatever else is looked for. -/
theorem contribution_of_scanFile {targets : List String} {target : String} (hnamed : "" ∉ targets)
    (hmem : target ∈ targets) {tree : FileTree} {path : String} {result : FileResult}
    (hscan : scanFile targets tree path = .ok result) :
    contribution target [result] = classesIn tree target path := by
  rw [classesIn]
  rcases scanFile_cases (List.ne_nil_of_mem hmem) hnamed hscan with
    ⟨failure, hsource, rfl⟩ | ⟨source, hsource, rfl⟩
  · rw [hsource]
    rfl
  · have hempty : ({} : Index).targets.Nodup := List.nodup_nil
    have hnodup := Index.nodup_targets_merge hempty
      (Finder.declaredIn (Finder.distinct targets) source)
    have hfound (found : List Match) : contribution target [⟨path, .ok found⟩] =
        (found.filter (·.target = target)).map (·.className) := by
      simp [contribution, FileResult.found]
    rw [hsource, hfound]
    exact (Index.classes_toMatches hnodup target).trans (Finder.get_merge_declaredIn hmem source)

/-- So do files that are scanned one by one. -/
theorem contribution_of_scanEach {targets : List String} {target : String} (hnamed : "" ∉ targets)
    (hmem : target ∈ targets) {tree : FileTree} {files : List Candidate}
    {results : List FileResult} (hscan : scanEach targets tree files = .ok results) :
    contribution target results =
      files.flatMap fun file => classesIn tree target (toString file.path) := by
  induction files generalizing results with
  | nil =>
      obtain rfl := Except.ok.inj hscan
      rfl
  | cons file files ih =>
      rw [scanEach, List.mapM_cons] at hscan
      cases hfirst : scanFile targets tree (toString file.path) with
      | error fault =>
          rw [hfirst] at hscan
          contradiction
      | ok result =>
          cases hrest : scanEach targets tree files with
          | error fault =>
              rw [scanEach] at hrest
              rw [hfirst, hrest] at hscan
              contradiction
          | ok others =>
              have hlater := ih hrest
              rw [scanEach] at hrest
              rw [hfirst, hrest] at hscan
              obtain rfl := Except.ok.inj hscan
              have hone := contribution_of_scanFile hnamed hmem hfirst
              have hsplit : contribution target (result :: others) =
                  contribution target [result] ++ contribution target others := by
                simp [contribution]
              rw [hsplit, hone, hlater, List.flatMap_cons]

/-- Files scanned one by one are recorded for a target as what they declare for it. -/
theorem get_of_sequentially {targets : List String} {target : String} (hnamed : "" ∉ targets)
    (hmem : target ∈ targets) {index : Index} {tree : FileTree} {files : List Candidate}
    {tally : Tally} (hscan : sequentially targets index tree files = .ok tally) :
    tally.index.get target =
      index.get target ++ files.flatMap fun file => classesIn tree target (toString file.path) := by
  rw [sequentially] at hscan
  cases hresults : scanEach targets tree files with
  | error fault =>
      rw [hresults] at hscan
      contradiction
  | ok results =>
      rw [hresults] at hscan
      have hfinal : indexAfter (index.ensureAll targets) results = tally.index :=
        congrArg Tally.index (Except.ok.inj hscan)
      rw [← hfinal, indexAfter_eq_merge, Index.get_merge, Index.get_ensureAll]
      exact congrArg (index.get target ++ ·) (contribution_of_scanEach hnamed hmem hresults)

end Scan

namespace Discovery

variable {host : Host} {elapsed : Float} {state : State} {targets : List String} {target : String}

theorem lookup_map_self (f : String → List String) (hmem : target ∈ targets) :
    (targets.map fun name => (name, f name)).lookup target = some (f target) := by
  induction targets with
  | nil => contradiction
  | cons name rest ih =>
      rw [List.map_cons, List.lookup_cons]
      by_cases hname : target = name
      · simp [hname]
      · have hrest : target ∈ rest := (List.mem_cons.mp hmem).resolve_left hname
        rw [beq_false_of_ne hname]
        exact ih hrest

variable [Syntax.Parser]

/-- What files of a project declare for a target. -/
def declaredFor (state : State) (files : List Candidate) (target : String) : List String :=
  files.flatMap fun file => Scan.classesIn state.tree target (toString file.path)

/-- A scan that ends records for a target what its files declare for it, as they are taken in. Without a pool that is
the order of the files, whatever order the host has for units. -/
theorem get_of_scanFiles {files : List Candidate} {stats : Scan.Stats} (hnamed : "" ∉ targets)
    (hmem : target ∈ targets) (hfree : ScansCrashFree host elapsed state targets files)
    (hstats : (scanFiles host elapsed state targets files).stats = .ok stats) :
    (scanFiles host elapsed state targets files).index.get target =
        declaredFor state (takenIn host state files) target ∧
      (stats.parallel = false → ∀ order, takenIn { host with order } state files = files) := by
  have hnew : (Index.ofTargets targets).get target = [] := Index.get_ensureAll {} targets target
  by_cases hfiles : files = []
  · subst hfiles
    have hnone (other : Host) : takenIn other state [] = [] := (takenIn_perm other state []).eq_nil
    refine ⟨?_, fun _ order => hnone _⟩
    rw [hnone]
    exact hnew
  obtain ⟨profile, hprofile⟩ := profile_of_scanFiles hfiles hstats
  obtain ⟨tally, notices, hone, rfl, hscan⟩ :=
    counts_of_scanFiles hfiles (List.ne_nil_of_mem hmem) hnamed hprofile hfree hstats
  refine ⟨?_, fun hinline order => ?_⟩
  · have hclasses := Scan.get_of_sequentially hnamed hmem hone
    rw [hscan, hclasses, hnew]
    rfl
  · exact takenIn_of_unpooled { host with order } elapsed hprofile hinline

/-- A discovery that ends reports for each target what the files of the project declare for it, as they are taken
in. -/
theorem report_of_run {interfaces : Option (List String)} {report : Report}
    (hsome : targetsOf state interfaces ≠ []) (hfree : CrashFree host elapsed state interfaces)
    (hrun : (run host elapsed state interfaces).outcome = .ok report) :
    ∃ files gathered, gather state = (.ok files, gathered) ∧
      report.interfaces = targetsOf state interfaces ∧
      report.implementors = (targetsOf state interfaces).map (fun target =>
        (target, declaredFor state (takenIn host gathered files) target)) ∧
      (report.stats.any (·.parallel) = false →
        ∀ order, takenIn { host with order } gathered files = files) := by
  have hcourse := run_course host elapsed state interfaces
  generalize run host elapsed state interfaces = result at hcourse hrun
  cases hcourse with
  | idle hnone => exact absurd hnone hsome
  | @reported files gathered scanned stats paths tree _ hcheck hgather hscan hstats hwrite =>
      subst hscan
      obtain rfl := Except.ok.inj hrun
      have hnamed := not_mem_of_checkTargets hcheck
      have hclasses {target : String} (hmem : target ∈ targetsOf state interfaces) :=
        get_of_scanFiles hnamed hmem (hfree files gathered hgather) hstats
      refine ⟨files, gathered, hgather, rfl, List.map_congr_left fun target hmem => ?_, ?_⟩
      · rw [(hclasses hmem).1, declaredFor, (sameStore_of_gather hgather).tree]
        rfl
      · obtain ⟨target, hmem⟩ := List.exists_mem_of_ne_nil _ hsome
        exact (hclasses hmem).2
  | _ => cases hrun

/-- Two discoveries of one project report the same for a target that both look for, up to the order of classes. If
units are taken in in one order, or if there is no pool, the order of classes is the same too. -/
theorem lookup_of_runs {order : MergeOrder} {later : Float} {first second : Option (List String)}
    {report other : Report} (hfirst : target ∈ first.getD state.settings.interfaces)
    (hsecond : target ∈ second.getD state.settings.interfaces)
    (hfree : CrashFree host elapsed state first)
    (hfreeLater : CrashFree { host with order } later state second)
    (hrun : (run host elapsed state first).outcome = .ok report)
    (hrunLater : (run { host with order } later state second).outcome = .ok other) :
    ∃ classes others, report.implementors.lookup target = some classes ∧
      other.implementors.lookup target = some others ∧ others.Perm classes ∧
      (order = host.order ∨ report.stats.any (·.parallel) = false → others = classes) := by
  have hmem : target ∈ targetsOf state first := (Finder.mem_distinct _ target).mpr hfirst
  have hmemLater : target ∈ targetsOf state second := (Finder.mem_distinct _ target).mpr hsecond
  obtain ⟨files, gathered, hgather, -, hreport, hinline⟩ :=
    report_of_run (List.ne_nil_of_mem hmem) hfree hrun
  obtain ⟨again, gatheredLater, hgatherLater, -, hother, -⟩ :=
    report_of_run (List.ne_nil_of_mem hmemLater) hfreeLater hrunLater
  obtain ⟨hfiles, rfl⟩ := Prod.mk.inj (hgather.symm.trans hgatherLater)
  obtain rfl := Except.ok.inj hfiles
  have htaken := (takenIn_perm { host with order } gathered files).trans
    (takenIn_perm host gathered files).symm
  refine ⟨declaredFor state (takenIn host gathered files) target,
    declaredFor state (takenIn { host with order } gathered files) target, ?_, ?_,
    htaken.flatMap_right _, ?_⟩
  · rw [hreport, lookup_map_self _ hmem]
  · rw [hother, lookup_map_self _ hmemLater]
  · rintro (rfl | hseq)
    · rfl
    · have hplain := hinline hseq
      rw [hplain order, show takenIn host gathered files = files from hplain host.order]

/-- A discovery without targets reports nothing. -/
theorem report_of_no_targets {interfaces : Option (List String)} {report : Report}
    (hnone : targetsOf state interfaces = [])
    (hrun : (run host elapsed state interfaces).outcome = .ok report) :
    report.interfaces = [] ∧ report.implementors = [] := by
  have hempty : (Finder.distinct (interfaces.getD state.settings.interfaces)).isEmpty = true :=
    List.isEmpty_iff.mpr hnone
  unfold run at hrun
  dsimp only at hrun
  rw [if_pos hempty] at hrun
  obtain rfl := Except.ok.inj hrun
  exact ⟨rfl, rfl⟩

/-- A discovery reports what the discoveries of its targets report, one after the other. -/
theorem implementors_eq_flatMap {interfaces : Option (List String)} {report : Report}
    {alone : String → Report} (hfree : CrashFree host elapsed state interfaces)
    (hrun : (run host elapsed state interfaces).outcome = .ok report)
    (halone : ∀ target ∈ report.interfaces, CrashFree host elapsed state (some [target]) ∧
      (run host elapsed state (some [target])).outcome = .ok (alone target)) :
    report.implementors = report.interfaces.flatMap fun target => (alone target).implementors := by
  by_cases hsome : targetsOf state interfaces = []
  · obtain ⟨hinterfaces, himplementors⟩ := report_of_no_targets hsome hrun
    rw [hinterfaces, himplementors, List.flatMap_nil]
  · obtain ⟨files, gathered, hgather, hinterfaces, himplementors, -⟩ :=
      report_of_run hsome hfree hrun
    have hsingle : ∀ target ∈ report.interfaces, (alone target).implementors =
        [(target, declaredFor state (takenIn host gathered files) target)] := by
      intro target hmem
      obtain ⟨hfreeAlone, hrunAlone⟩ := halone target hmem
      have htargets : targetsOf state (some [target]) = [target] := rfl
      obtain ⟨again, gatheredAlone, hgatherAlone, -, himplementorsAlone, -⟩ :=
        report_of_run (by simp [htargets]) hfreeAlone hrunAlone
      obtain ⟨hfiles, rfl⟩ := Prod.mk.inj (hgather.symm.trans hgatherAlone)
      obtain rfl := Except.ok.inj hfiles
      rw [himplementorsAlone, htargets, List.map_singleton]
    rw [himplementors, ← hinterfaces, List.flatMap_congr hsingle, List.map_eq_flatMap]

end Discovery

/-- What is recorded for a target does not depend on the targets that are looked for besides: in a walk over one tree,
and in discoveries of one project that end without the death of a worker. If these take units in in different orders,
the classes may be in another order. One pass over many targets comes to what a pass for each of them comes to. -/
theorem targets_do_not_interfere [Parser] :
    (∀ (target : String) (tree : Tree) (first second : List String), "" ∉ first → "" ∉ second →
      target ∈ first → target ∈ second →
      ∃ classes, Finder.recordedFor first target tree = .ok classes ∧
        Finder.recordedFor second target tree = .ok classes ∧
        Finder.recordedFor [target] target tree = .ok classes) ∧
    (∀ (target : String) (host : Host) (order : MergeOrder) (state : Discovery.State)
      (elapsed later : Float) (first second : Option (List String)) (report other : Discovery.Report),
      target ∈ first.getD state.settings.interfaces →
      target ∈ second.getD state.settings.interfaces →
      Discovery.CrashFree host elapsed state first →
      Discovery.CrashFree { host with order } later state second →
      (Discovery.run host elapsed state first).outcome = .ok report →
      (Discovery.run { host with order } later state second).outcome = .ok other →
      ∃ classes others, report.implementors.lookup target = some classes ∧
        other.implementors.lookup target = some others ∧ others.Perm classes ∧
        (order = host.order ∨ report.stats.any (·.parallel) = false → others = classes)) ∧
    ∀ (host : Host) (state : Discovery.State) (elapsed : Float) (interfaces : Option (List String))
      (report : Discovery.Report) (alone : String → Discovery.Report),
      Discovery.CrashFree host elapsed state interfaces →
      (Discovery.run host elapsed state interfaces).outcome = .ok report →
      (∀ target ∈ report.interfaces, Discovery.CrashFree host elapsed state (some [target]) ∧
        (Discovery.run host elapsed state (some [target])).outcome = .ok (alone target)) →
      report.implementors = report.interfaces.flatMap fun target => (alone target).implementors := by
  refine ⟨?_, ?_, ?_⟩
  · intro target tree first second hnamed hnamedToo hmem hmemToo
    have hne : "" ≠ target := fun heq => hnamed (heq ▸ hmem)
    exact ⟨_, Finder.recordedFor_eq hnamed hmem tree, Finder.recordedFor_eq hnamedToo hmemToo tree,
      Finder.recordedFor_eq (by simpa using hne) (List.mem_singleton.mpr rfl) tree⟩
  · intro target host order state elapsed later first second report other hfirst hsecond hfree
      hfreeLater hrun hrunLater
    exact Discovery.lookup_of_runs hfirst hsecond hfree hfreeLater hrun hrunLater
  · intro host state elapsed interfaces report alone hfree hrun halone
    exact Discovery.implementors_eq_flatMap hfree hrun halone

namespace Discovery

open FileTree

/-- A project with one source and an empty cache. -/
def oneSource : State where
  settings := {
    base := ⟨.slash, []⟩
    cache := some ⟨.slash, ["cache"]⟩
    moduleDirectories := []
    interfaces := ["J", "I"]
    profile := some (Scan.poolHost {}).profile }
  tree := {
    root := .folder [
      ("app", .folder [("A.php", .file "<?php class K implements I \x7b\x7d".toUTF8)]),
      ("cache", .folder [])] }

theorem gather_oneSource :
    ∃ files, gather oneSource = (.ok files, oneSource) ∧
      ∀ file ∈ files, '\x00' ∉ (toString file.path).toList := by
  have happ : Ordinary "app" := by decide
  have hname : Ordinary "A.php" := by decide
  have hfolder : oneSource.tree.locate true ⟨.slash, ["app"]⟩ = .ok (.entry ["app"]
      (.folder [("A.php", .file "<?php class K implements I \x7b\x7d".toUTF8)])) :=
    locate_eq_ok_iff.mpr ⟨by decide, .enter happ rfl nofun (.done rfl)⟩
  have hfile : oneSource.tree.locate true ⟨.slash, ["app", "A.php"]⟩ = .ok (.entry ["app", "A.php"]
      (.file "<?php class K implements I \x7b\x7d".toUTF8)) :=
    locate_eq_ok_iff.mpr
      ⟨by decide, .enter happ rfl nofun (.enter hname rfl nofun (.done rfl))⟩
  have hentry : oneSource.tree.entry? ⟨.slash, ["app"]⟩ =
      .ok (some (.folder [("A.php", .file "<?php class K implements I \x7b\x7d".toUTF8)])) :=
    entry?_of_locate hfolder
  have hpresent : oneSource.tree.isFile ⟨.slash, ["app", "A.php"]⟩ = .ok true :=
    isFile_eq_ok_true_iff.mpr ⟨_, _, hfile⟩
  have hbelow (scope : Collection.Scope) : Collection.sourcesBelow scope ⟨.slash, ["app"]⟩
      (.folder [("A.php", .file "<?php class K implements I \x7b\x7d".toUTF8)]) =
        [⟨.slash, ["app", "A.php"]⟩] := by
    have hlong : isTooLong ⟨.slash, ["app"]⟩ = false := by decide
    have hsource : Collection.isSourceName "A.php" = true := by decide
    simp [Collection.sourcesBelow, Collection.sourcesBelowEach, Collection.ownSources,
      Collection.byName, Collection.inside, Entry.isFolder, hlong, hsource]
  obtain ⟨files, hcollect, hnull⟩ : ∃ files,
      Collection.collectFrom oneSource.tree oneSource.settings.base Exclusion.builtIn
        ⟨.slash, ["app"]⟩ = .ok files ∧ ∀ file ∈ files, '\x00' ∉ (toString file.path).toList := by
    rw [Collection.collectFrom, hentry]
    change ∃ files, Collection.keepEach _ (Collection.sourcesBelow _ ⟨.slash, ["app"]⟩ _) = _ ∧ _
    rw [hbelow, Collection.keepEach, Collection.Scope.keeps, hpresent]
    refine ⟨_, rfl, fun file hmem => ?_⟩
    split_ifs at hmem
    · obtain rfl := List.mem_singleton.mp hmem
      decide
    · contradiction
  refine ⟨files, ?_, hnull⟩
  have hroots : Collection.scanRoots oneSource.tree oneSource.settings =
      .ok ([⟨.slash, ["app"]⟩], oneSource.settings) := rfl
  have hcollectAll : Collection.collect oneSource.tree oneSource.settings.base Exclusion.builtIn
      [⟨.slash, ["app"]⟩] = .ok files := by
    rw [Collection.collect, hcollect]
    exact congrArg Except.ok (List.append_nil files)
  rw [gather, hroots]
  dsimp only
  rw [hcollectAll]

theorem crashFree_oneSource (order : MergeOrder) (elapsed : Float) (interfaces : Option (List String)) :
    CrashFree { order } elapsed oneSource interfaces := by
  intro files gathered hgather profile settings hprofile hpools file hfile
  obtain ⟨again, hagain, -⟩ := gather_oneSource
  cases hagain.symm.trans hgather
  rfl

theorem cacheAt_oneSource : Artifact.CacheAt oneSource.tree ⟨.slash, ["cache"]⟩ ["cache"] where
  leads := by
    have hcache : Ordinary "cache" := by decide
    exact ⟨[], locate_eq_ok_iff.mpr ⟨by decide, .enter hcache rfl nofun (.done rfl)⟩⟩
  no_link name target := nofun

theorem writable_oneSource {target : String} (hmem : target ∈ ["I", "X\\Y", "J"]) :
    Artifact.Writable oneSource.tree ⟨.slash, ["cache"]⟩ ["cache"] target .php := by
  simp only [List.mem_cons, List.not_mem_nil, or_false] at hmem
  rcases hmem with rfl | rfl | rfl
  · exact ⟨by decide, by decide, by decide, nofun⟩
  · exact ⟨by decide, by decide, by decide, nofun⟩
  · exact ⟨by decide, by decide, by decide, nofun⟩

theorem run_oneSource {order : MergeOrder} {elapsed : Float} {interfaces : Option (List String)}
    (hsome : targetsOf oneSource interfaces ≠ [])
    (hcheck : checkTargets (targetsOf oneSource interfaces) = .ok ())
    (hmem : ∀ target ∈ targetsOf oneSource interfaces, target ∈ ["I", "X\\Y", "J"]) :
    ∃ report, (run { order } elapsed oneSource interfaces).outcome = .ok report := by
  obtain ⟨files, hgather, hnull⟩ := gather_oneSource
  exact run_succeeds hsome hcheck hgather hnull rfl (crashFree_oneSource order elapsed interfaces)
    Device.sound_nil cacheAt_oneSource fun target htarget => writable_oneSource (hmem target htarget)

end Discovery

theorem targets_do_not_interfere_oneSource :
    Finder.recordedFor ["J", "I", "I"] "I" Finder.nestedClass = .ok ["A\\B\\K"] ∧
    ∃ report other alone beside,
      (Discovery.run {} 0 Discovery.oneSource (some ["I", "X\\Y"])).outcome = .ok report ∧
      (Discovery.run { order := Scan.latestFirst } 1 Discovery.oneSource none).outcome = .ok other ∧
      (Discovery.run {} 0 Discovery.oneSource (some ["I"])).outcome = .ok alone ∧
      (Discovery.run {} 0 Discovery.oneSource (some ["X\\Y"])).outcome = .ok beside ∧
      (∃ classes others, report.implementors.lookup "I" = some classes ∧
        other.implementors.lookup "I" = some others ∧ others.Perm classes) ∧
      (∃ classes, report.implementors.lookup "I" = some classes ∧
        alone.implementors.lookup "I" = some classes) ∧
      report.implementors = alone.implementors ++ beside.implementors := by
  obtain ⟨hwalks, hruns, hpasses⟩ := targets_do_not_interfere
  have hfree (elapsed : Float) (interfaces : Option (List String)) :
      Discovery.CrashFree {} elapsed Discovery.oneSource interfaces :=
    Discovery.crashFree_oneSource .submission elapsed interfaces
  obtain ⟨report, hreport⟩ : ∃ report,
      (Discovery.run {} 0 Discovery.oneSource (some ["I", "X\\Y"])).outcome = .ok report :=
    Discovery.run_oneSource (by decide) (by decide +kernel) (by decide)
  obtain ⟨other, hother⟩ : ∃ report,
      (Discovery.run { order := Scan.latestFirst } 1 Discovery.oneSource none).outcome = .ok report :=
    Discovery.run_oneSource (by decide) (by decide +kernel) (by decide)
  obtain ⟨alone, halone⟩ : ∃ report,
      (Discovery.run {} 0 Discovery.oneSource (some ["I"])).outcome = .ok report :=
    Discovery.run_oneSource (by decide) (by decide +kernel) (by decide)
  obtain ⟨beside, hbeside⟩ : ∃ report,
      (Discovery.run {} 0 Discovery.oneSource (some ["X\\Y"])).outcome = .ok report :=
    Discovery.run_oneSource (by decide) (by decide +kernel) (by decide)
  refine ⟨?_, report, other, alone, beside, hreport, hother, halone, hbeside, ?_, ?_, ?_⟩
  · obtain ⟨classes, hclasses, hsingle, -⟩ :=
      hwalks "I" Finder.nestedClass ["J", "I", "I"] ["I"] (by decide) (by decide) (by decide)
        (by decide)
    rw [hclasses, ← hsingle, Finder.recordedFor_eq (by decide) (by decide),
      Finder.declaredIn_nestedClass]
    rfl
  · obtain ⟨classes, others, hfirst, hsecond, hperm, -⟩ := hruns "I" {} Scan.latestFirst _ 0 1 _ _ _ _
      (by decide) (by decide) (hfree 0 _) (Discovery.crashFree_oneSource _ 1 _) hreport hother
    exact ⟨classes, others, hfirst, hsecond, hperm⟩
  · obtain ⟨classes, others, hfirst, hsecond, -, hsame⟩ := hruns "I" {} .submission _ 0 0 _ _ _ _
      (by decide) (by decide) (hfree 0 _) (hfree 0 _) hreport halone
    exact ⟨classes, hfirst, hsame (Or.inl rfl) ▸ hsecond⟩
  · obtain ⟨-, -, -, htargets, -⟩ := Discovery.report_of_run (by decide) (hfree 0 _) hreport
    have hinterfaces : report.interfaces = ["I", "X\\Y"] := htargets.trans (by decide)
    have hsingle : ∀ target ∈ report.interfaces,
        Discovery.CrashFree {} 0 Discovery.oneSource (some [target]) ∧
          (Discovery.run {} 0 Discovery.oneSource (some [target])).outcome =
            .ok (if target = "I" then alone else beside) := by
      rw [hinterfaces]
      intro target hmem
      refine ⟨hfree 0 _, ?_⟩
      rcases List.mem_cons.mp hmem with rfl | hmem
      · rw [if_pos rfl]
        exact halone
      · obtain rfl := List.mem_singleton.mp hmem
        rw [if_neg (by decide)]
        exact hbeside
    have hpass := hpasses _ _ _ _ report _ (hfree 0 _) hreport hsingle
    rw [hpass, hinterfaces]
    simp

end Roster
