import Mathlib.Data.List.DropRight
import Roster.Proofs.TargetIndependence

/-! Reading an interface back. Artifacts that are written one after the other are all there in the end, unless two of
them are one file, and what they hold comes from sources; so a discovery leaves behind what it reports. An interface
is stored by its short name without the blanks around it, but looked up by its short name as it is written. -/

namespace Roster

open Roster.Text

namespace Text

theorem dropEndWhile_eq_self {p : Char → Bool} {cs : List Char}
    (hlast : ∀ c, cs.getLast? = some c → p c = false) : dropEndWhile p cs = cs := by
  refine List.rdropWhile_eq_self_iff.mpr fun hsome => ?_
  rw [hlast _ (List.getLast?_eq_some_getLast hsome)]
  exact Bool.false_ne_true

theorem not_mem_lastSegment (sep : Char) (cs : List Char) : sep ∉ lastSegment sep cs := by
  have hne : segments sep cs ≠ [] := segmentsBy_ne_nil _ cs
  intro hmem
  rw [lastSegment, List.getLastD_eq_getLast?, List.getLast?_eq_some_getLast hne] at hmem
  have hsep := not_isSep_of_mem_segmentsBy (List.getLast_mem hne) hmem
  simp at hsep

end Text

namespace Name

theorem separator_not_mem_short (name : String) : separator ∉ (short name).toList := by
  rw [short, String.toList_ofList]
  exact not_mem_lastSegment separator _

/-- A short name is its own. -/
theorem short_short (name : String) : short (short name) = short name := by
  have hsep := separator_not_mem_short name
  generalize short name = word at hsep
  have hkept : dropEndWhile (· == separator) word.toList = word.toList :=
    dropEndWhile_eq_self fun c hc =>
      beq_false_of_ne fun heq => hsep (heq ▸ List.mem_of_getLast? hc)
  rw [short, hkept, lastSegment, segments_of_not_mem hsep]
  exact String.ofList_toList

end Name

namespace Artifact

open FileTree Entry

variable {device : Device} {cache : Path} {format : Format} {index : Index} {tree after : FileTree}
  {interfaces : List String} {paths : List Path}

/-- A file stays what it is while artifacts are written elsewhere. -/
theorem locate_of_writeEach_elsewhere {path : Path} {place : List String} {content : ByteArray}
    (hfile : tree.locate true path = .ok (.entry place (.file content)))
    (hwrite : writeEach device cache format index tree interfaces = (.ok paths, after))
    (helsewhere : ∀ other ∈ interfaces, ¬ after.LeadsTo (location cache other format) place) :
    after.locate true path = .ok (.entry place (.file content)) := by
  induction interfaces generalizing device tree paths with
  | nil =>
      rw [writeEach] at hwrite
      cases hwrite
      exact hfile
  | cons interface rest ih =>
      obtain ⟨written, more, hfirst, hmore, -⟩ := writeEach_cons hwrite
      obtain ⟨target, -, hwritten, hext, hplaced⟩ := put_spec hfirst
      have htarget : ¬ place = target.location := by
        rintro rfl
        exact helsewhere interface List.mem_cons_self (leadsTo_of_writeEach ⟨_, hplaced⟩ hmore)
      have hlater := locate_untouched hfile (by rw [hwritten]) hext htarget
      exact ih hlater hmore fun other hother => helsewhere other (List.mem_cons_of_mem _ hother)

/-- The artifact of an interface is not the file of another one's. -/
def OwnFile (tree : FileTree) (cache : Path) (format : Format) (interfaces : List String)
    (interface : String) : Prop :=
  ∀ other ∈ interfaces, other ≠ interface → ∀ place,
    tree.LeadsTo (location cache interface format) place →
      ¬ tree.LeadsTo (location cache other format) place

/-- An artifact that shares its file with no other is there once all are written. -/
theorem locate_of_writeEach {interface : String} (hmem : interface ∈ interfaces)
    (hwrite : writeEach device cache format index tree interfaces = (.ok paths, after))
    (hown : OwnFile after cache format interfaces interface) :
    ∃ place, after.locate true (location cache interface format) =
      .ok (.entry place (.file (render format (index.get interface)).toUTF8)) := by
  induction interfaces generalizing device tree paths with
  | nil => contradiction
  | cons first rest ih =>
      obtain ⟨written, more, hfirst, hmore, -⟩ := writeEach_cons hwrite
      by_cases hlater : interface ∈ rest
      · exact ih hlater hmore fun other hother => hown other (List.mem_cons_of_mem _ hother)
      · obtain rfl : interface = first := (List.mem_cons.mp hmem).resolve_right hlater
        obtain ⟨target, -, -, -, hplaced⟩ := put_spec hfirst
        refine ⟨_, locate_of_writeEach_elsewhere hplaced hmore fun other hother => ?_⟩
        have hne : other ≠ interface := fun heq => hlater (heq ▸ hother)
        exact hown other (List.mem_cons_of_mem _ hother) hne _ (leadsTo_of_writeEach ⟨_, hplaced⟩ hmore)

/-- What is written for an interface is loaded under every name with its short name. -/
theorem load_of_write {interface name : String} (hmem : interface ∈ interfaces)
    (hwrite : write device cache format index tree interfaces = (.ok paths, after))
    (hown : OwnFile after cache format interfaces interface)
    (hreturn : ∀ className ∈ index.get interface, '\r' ∉ className.toList)
    (hshort : Name.short name = Name.short interface) :
    load after cache name format = .ok (index.get interface) := by
  obtain ⟨made, -, -, heach⟩ := write_eq_ok hwrite
  obtain ⟨place, hplace⟩ := locate_of_writeEach hmem heach hown
  rw [load, location_eq_of_short_eq hshort, read_of_locate hplace]
  exact parse_decode_render fun _ => hreturn

variable {folder : List String}

/-- In a folder without links, artifacts with names of their own have files of their own. -/
theorem Writes.ownFile (hwrites : Writes cache format index folder tree interfaces after)
    (hapart : Apart interfaces) {interface : String} (hmem : interface ∈ interfaces) :
    OwnFile after cache format interfaces interface := by
  rintro other hother hne place ⟨entry, hentry⟩ ⟨otherEntry, hotherEntry⟩
  have hplace : place = folder ++ [fileName interface format] := by
    cases (hwrites.found interface hmem).symm.trans hentry
    rfl
  have hotherPlace : place = folder ++ [fileName other format] := by
    cases (hwrites.found other hother).symm.trans hotherEntry
    rfl
  have hname : fileName other format = fileName interface format := by
    simpa using hotherPlace.symm.trans hplace
  exact hne (hapart other hother interface hmem (fileName_inj hname))

/-- What is loaded under a name of its own was there before the artifacts were written. -/
theorem file_of_load (hwrites : Writes cache format index folder tree interfaces after)
    (hcache : CacheAt tree cache folder) {name : String} (hslash : '/' ∉ name.toList)
    (hother : ∀ interface ∈ interfaces, Name.short interface ≠ Name.short name)
    {classes : List String} (hload : load after cache name format = .ok classes) :
    ∃ content, tree.root.at? (folder ++ [fileName name format]) = some (.file content) := by
  cases hread : after.read (location cache name format) with
  | error fault =>
      rw [load, hread] at hload
      cases hload
  | ok content =>
      unfold FileTree.read at hread
      split at hread
      · next place found hlocate =>
          obtain ⟨entries, hleads⟩ := (hwrites.cacheAt hcache).leads
          rw [location_eq hslash] at hlocate
          have hplace : place = folder ++ [fileName name format] := location_of_locate hleads
            (hwrites.cacheAt hcache).no_link (fileName_ne (by decide) _ _) (fileName_ne (by decide) _ _) hlocate
          have huntouched : ¬ ∃ interface ∈ interfaces, place = folder ++ [fileName interface format] := by
            rintro ⟨interface, hmem, heq⟩
            have hname : fileName interface format = fileName name format := by
              simpa using heq.symm.trans hplace
            exact hother interface hmem (fileName_inj hname)
          subst hplace
          exact ⟨found, (hwrites.grows.leaf huntouched rfl).mp (at?_of_locate hlocate)⟩
      · cases hread
      · cases hread
      · cases hread

end Artifact

namespace Scan

/-- No class that a file declares has a carriage return in its name. -/
theorem return_not_mem_classesIn (tree : FileTree) (target path : String) :
    ∀ className ∈ classesIn tree target path, '\r' ∉ className.toList := by
  intro className hmem
  unfold classesIn at hmem
  split at hmem
  · next source hsource =>
      obtain ⟨found, hfound, rfl⟩ := List.mem_map.mp hmem
      have htargets : (Finder.mk [target] {}).targets ≠ [] := by simp
      have hmatches := Finder.matchesIn_eq_declaredIn htargets source
      unfold fileTree at hsource
      split at hsource
      · next content hread => exact Finder.return_not_mem_matchesIn (Except.ok.inj hsource) hmatches found hfound
      · cases hsource
      · cases hsource
  · contradiction

/-- Whichever files a scan loses, no class that it records has a carriage return in its name. -/
theorem return_not_mem_of_scanUnder {targets : List String} {target : String} (hnamed : "" ∉ targets)
    (hmem : target ∈ targets) {circumstances : Circumstances} {index final : Index}
    {tree : FileTree} {files : List Candidate} {stats : Stats} (hnew : index.get target = [])
    (hscan : scanUnder circumstances targets index tree files = .ok (stats, final)) :
    ∀ className ∈ final.get target, '\r' ∉ className.toList := by
  obtain ⟨pooled, fates, arranged, -, -, -, -, -, htally⟩ :=
    scanUnder_accounts (List.ne_nil_of_mem hmem) hnamed circumstances index tree files
  rw [hscan] at htally
  cases hkept : sequentially targets index tree ((arranged.filter (!·.lost)).map Fate.file) with
  | error fault =>
      rw [hkept] at htally
      cases htally
  | ok tally =>
      rw [hkept] at htally
      have hfinal : final = tally.index := congrArg Tally.index (Except.ok.inj htally)
      have hget := get_of_sequentially hnamed hmem hkept
      rw [hnew, List.nil_append, ← hfinal] at hget
      intro className hclass
      rw [hget] at hclass
      obtain ⟨file, -, hfile⟩ := List.mem_flatMap.mp hclass
      exact return_not_mem_classesIn _ _ _ className hfile

end Scan

namespace Discovery

open FileTree Artifact

variable {host : Host} {elapsed : Float} {state : State} {targets : List String} {target : String}

theorem return_not_mem_of_scanFiles {files : List Candidate} {stats : Scan.Stats}
    (hnamed : "" ∉ targets) (hmem : target ∈ targets)
    (hstats : (scanFiles host elapsed state targets files).stats = .ok stats) :
    ∀ className ∈ (scanFiles host elapsed state targets files).index.get target,
      '\r' ∉ className.toList := by
  have hnew : (Index.ofTargets targets).get target = [] := Index.get_ensureAll {} targets target
  by_cases hsome : files = []
  · subst hsome
    change ∀ className ∈ (Index.ofTargets targets).get target, _
    simp [hnew]
  · obtain ⟨profile, hprofile⟩ := profile_of_scanFiles hsome hstats
    have hunder := scanUnder_of_scanFiles hsome hprofile hstats
    exact Scan.return_not_mem_of_scanUnder hnamed hmem hnew hunder

/-- A discovery that comes to a report leaves behind what it reports for a target. -/
theorem cached_of_course {result : Result} {report : Report}
    (hcourse : Course host elapsed state targets result) (hreport : result.outcome = .ok report)
    (hmem : target ∈ targets)
    (hown : OwnFile result.state.tree result.state.settings.cachePath result.state.settings.format
      targets target) :
    ∃ classes, report.implementors.lookup target = some classes ∧
      ∀ name, Name.short name = Name.short target → cached result.state name = .ok classes := by
  cases hcourse with
  | idle hnone =>
      subst hnone
      contradiction
  | refused => cases hreport
  | uncollected => cases hreport
  | unscanned => cases hreport
  | unwritten => cases hreport
  | @reported files gathered scanned stats paths after hsome hcheck hgather hscan hstats hwrite =>
      cases hreport
      subst hscan
      have hreturn := return_not_mem_of_scanFiles (not_mem_of_checkTargets hcheck) hmem hstats
      exact ⟨_, lookup_map_self _ hmem, fun name hshort => load_of_write hmem hwrite hown hreturn hshort⟩

/-- A project whose settings take up an interface. -/
def State.adding (state : State) (name : String) : State :=
  { state with settings := state.settings.addInterface name }

/-- The name that an added interface is stored by. -/
def storedName (name : String) : String :=
  Name.short (Text.trim name)

theorem mem_targetsOf_adding (state : State) (name : String) :
    storedName name ∈ targetsOf (state.adding name) none := by
  rw [targetsOf, Finder.mem_distinct]
  change storedName name ∈ (state.settings.addInterface name).interfaces
  unfold Settings.addInterface
  dsimp only
  split_ifs with hknown
  · exact List.contains_iff_mem.mp hknown
  · exact List.mem_append_right _ (List.mem_singleton.mpr rfl)

theorem interfaces_of_course {result : Result} {report : Report}
    (hcourse : Course host elapsed state targets result) (hreport : result.outcome = .ok report) :
    report.interfaces = targets := by
  cases hcourse with
  | idle hnone =>
      cases hreport
      exact hnone.symm
  | reported =>
      cases hreport
      rfl
  | _ => cases hreport

/-- An interface that was added is read back as what a discovery then reports for it, be workers lost or not, unless
its artifact and that of another interface are one file. It is read by the name that it is stored by, and by the name
it was added with if the blanks around that are not part of its short name. -/
theorem added_interface_reads_back {host : Host} {elapsed : Float} {state : State} {name : String}
    {report : Report} {after : State}
    (hrun : (run host elapsed (state.adding name) none).outcome = .ok report)
    (hafter : (run host elapsed (state.adding name) none).state = after)
    (hown : OwnFile after.tree after.settings.cachePath after.settings.format report.interfaces
      (storedName name)) :
    ∃ classes, report.implementors.lookup (storedName name) = some classes ∧
      cached after (storedName name) = .ok classes ∧
      (Name.short name = storedName name → cached after name = .ok classes) := by
  have hcourse := run_course host elapsed (state.adding name) none
  rw [interfaces_of_course hcourse hrun, ← hafter] at hown
  obtain ⟨classes, hlookup, hcached⟩ :=
    cached_of_course hcourse hrun (mem_targetsOf_adding state name) hown
  have hstored : Name.short (storedName name) = storedName name := Name.short_short _
  rw [hafter, hstored] at hcached
  exact ⟨classes, hlookup, hcached _ hstored, hcached name⟩

/-- The artifacts of a discovery of the project with one source. -/
theorem writes_oneSource {result : Result} {report : Report}
    (hcourse : Course {} elapsed oneSource ["J", "I"] result) (hreport : result.outcome = .ok report) :
    result.state.settings.cachePath = ⟨.slash, ["cache"]⟩ ∧ result.state.settings.format = .php ∧
      ∃ index, Writes ⟨.slash, ["cache"]⟩ .php index ["cache"] oneSource.tree ["J", "I"]
        result.state.tree := by
  cases hcourse with
  | idle hnone => contradiction
  | @reported files gathered scanned stats paths after hsome hcheck hgather hscan hstats hwrite =>
      obtain ⟨again, hagain, hnull⟩ := gather_oneSource
      cases hagain.symm.trans hgather
      have hfree : CrashFree {} elapsed oneSource (some ["J", "I"]) :=
        crashFree_oneSource _ elapsed _
      obtain ⟨-, -, hstore⟩ := scanFiles_succeeds hsome (not_mem_of_checkTargets hcheck) rfl hnull
        (hfree _ oneSource hagain)
      rw [hscan] at hstore
      have hcache : scanned.state.settings.cachePath = ⟨.slash, ["cache"]⟩ := hstore.cache
      have hformat : scanned.state.settings.format = .php := hstore.format
      rw [hcache, hformat, hstore.tree] at hwrite
      obtain ⟨made, -, hmake, heach⟩ := write_eq_ok hwrite
      obtain ⟨entries, hleads⟩ := cacheAt_oneSource.leads
      rw [makeFolders_of_locate hleads] at hmake
      cases hmake
      obtain ⟨-, hwrites⟩ := writes_of_writeEach cacheAt_oneSource (apart_of_checkNames
        (checkNames_of_checkTargets hcheck)) (by decide) heach
      exact ⟨hcache, hformat, scanned.index, hwrites⟩
  | _ => cases hreport

/-- A blank in front of a qualified name is not part of its short name. -/
theorem added_interface_reads_back_oneSource :
    Name.short " App\\I" = storedName " App\\I" ∧
    ∃ report after classes,
      (run {} 0 (oneSource.adding " App\\I") none).outcome = .ok report ∧
      (run {} 0 (oneSource.adding " App\\I") none).state = after ∧
      OwnFile after.tree after.settings.cachePath after.settings.format report.interfaces "I" ∧
      report.implementors.lookup "I" = some classes ∧
      cached after "I" = .ok classes ∧ cached after " App\\I" = .ok classes := by
  have hstored : storedName " App\\I" = "I" := by decide +kernel
  have hshort : Name.short " App\\I" = storedName " App\\I" := by decide +kernel
  have hadding : oneSource.adding " App\\I" = oneSource := rfl
  obtain ⟨report, hreport⟩ : ∃ report, (run {} 0 oneSource none).outcome = .ok report :=
    run_oneSource (by decide) (by decide +kernel) (by decide)
  have hcourse := run_course {} 0 oneSource none
  obtain ⟨hcache, hformat, index, hwrites⟩ := writes_oneSource hcourse hreport
  have hinterfaces : report.interfaces = ["J", "I"] := interfaces_of_course hcourse hreport
  have hown : OwnFile (run {} 0 oneSource none).state.tree ⟨.slash, ["cache"]⟩ .php ["J", "I"] "I" :=
    hwrites.ownFile (apart_of_checkNames (by decide +kernel)) (by decide)
  rw [← hcache, ← hformat, ← hinterfaces] at hown
  obtain ⟨classes, hlookup, hcached, hname⟩ :=
    added_interface_reads_back (hadding ▸ hreport) rfl (by rwa [hadding, hstored])
  rw [hadding] at hcached hname
  rw [hstored] at hlookup hcached
  exact ⟨hshort, report, _, classes, hreport, rfl, hown, hlookup, hcached, hname hshort⟩

/-- A blank behind a name is part of its short name, and so an interface that was added with one is discovered but not
read back under that name. -/
theorem no_reading_back_with_blank :
    storedName "I " = "I" ∧
    ∃ report classes, (run {} 0 (oneSource.adding "I ") none).outcome = .ok report ∧
      report.implementors.lookup "I" = some classes ∧
      ∃ fault, cached (run {} 0 (oneSource.adding "I ") none).state "I " = .error fault := by
  have hadding : oneSource.adding "I " = oneSource := rfl
  obtain ⟨report, hreport⟩ : ∃ report, (run {} 0 oneSource none).outcome = .ok report :=
    run_oneSource (by decide) (by decide +kernel) (by decide)
  have hcourse := run_course {} 0 oneSource none
  obtain ⟨hcache, hformat, index, hwrites⟩ := writes_oneSource hcourse hreport
  have hown : OwnFile (run {} 0 oneSource none).state.tree ⟨.slash, ["cache"]⟩ .php ["J", "I"] "I" :=
    hwrites.ownFile (apart_of_checkNames (by decide +kernel)) (by decide)
  rw [← hcache, ← hformat] at hown
  obtain ⟨classes, hlookup, -⟩ := cached_of_course hcourse hreport (by decide) hown
  refine ⟨by decide +kernel, report, classes, hreport, hlookup, ?_⟩
  rw [hadding]
  cases hcached : cached (run {} 0 oneSource none).state "I " with
  | error fault => exact ⟨fault, rfl⟩
  | ok found =>
      rw [cached, hcache, hformat] at hcached
      obtain ⟨content, hcontent⟩ :=
        file_of_load hwrites cacheAt_oneSource (by decide) (by decide +kernel) hcached
      cases hcontent

end Discovery

end Roster
