import Roster.Proofs.SameSources

/-! Where exclusion sees a path from. Below a root it sees the way from the base to the root and then the names below,
or only those when the root lies elsewhere: so nothing above the project excludes it. Whether a root lies below the
base is decided by the parts as they are written, though, and the way between them is taken once double dots are
resolved; the two have to agree. -/

namespace Roster

open Roster.Text

namespace Path

/-- The parts with double dots resolved. -/
def resolved (path : Path) : List String :=
  collapse [] path.parts

theorem collapse_append {row : List String} (hrow : ".." ∉ row) (done parts : List String) :
    collapse done (parts ++ row) = collapse done parts ++ row := by
  induction parts generalizing done with
  | nil => rw [List.nil_append, collapse_eq_append hrow, collapse]
  | cons part parts ih =>
      rw [List.cons_append, collapse, collapse]
      split_ifs
      · exact ih _
      · exact ih _

theorem dots_not_mem_collapse {done : List String} (hdone : ".." ∉ done) (parts : List String) :
    ".." ∉ collapse done parts := by
  induction parts generalizing done with
  | nil =>
      rw [collapse, List.mem_reverse]
      exact hdone
  | cons part parts ih =>
      rw [collapse]
      split_ifs with hpart
      · exact ih fun hmem => hdone (List.mem_of_mem_tail hmem)
      · apply ih
        rw [List.mem_cons, not_or]
        exact ⟨Ne.symm hpart, hdone⟩

theorem dots_not_mem_resolved (path : Path) : ".." ∉ path.resolved :=
  dots_not_mem_collapse List.not_mem_nil path.parts

theorem normalParts_eq_resolved {path : Path} (habsolute : path.root ≠ .relative) (directory : Path) :
    directory.normalParts path = path.resolved := by
  unfold normalParts join
  split
  · contradiction
  · rfl

theorem resolved_of_no_dots {path : Path} (hdots : ".." ∉ path.parts) : path.resolved = path.parts :=
  collapse_eq_append hdots []

/-- The path is the base or lies below it, once double dots are resolved. -/
def Inside (path base : Path) : Prop :=
  path.root = base.root ∧ base.resolved <+: path.resolved

instance (path base : Path) : Decidable (path.Inside base) :=
  inferInstanceAs (Decidable (_ ∧ _))

/-- The names from the base to a path inside it; none for a path elsewhere. -/
def wayFrom (base path : Path) : List String :=
  if path.Inside base then path.resolved.drop base.resolved.length else []

theorem dots_not_mem_wayFrom (base path : Path) : ".." ∉ wayFrom base path := by
  unfold wayFrom
  split_ifs
  · exact fun hmem => dots_not_mem_resolved path (List.mem_of_mem_drop hmem)
  · exact List.not_mem_nil

/-- Two paths are spelled so that the parts as written tell whether one is inside the other. A path that comes to the
base itself may be written in any way, for then it does not matter from which of the two its files are seen. -/
structure SpelledAlike (base path : Path) : Prop where
  inside : path.isAtOrBelow base = true → path.Inside base
  written : path.Inside base → path.isAtOrBelow base = true ∨ path.resolved = base.resolved

theorem isAtOrBelow_iff {path base : Path} :
    path.isAtOrBelow base = true ↔ path.root = base.root ∧ base.parts <+: path.parts := by
  rw [isAtOrBelow, Bool.and_eq_true, beq_iff_eq, List.isPrefixOf_iff_prefix]

theorem spelledAlike_of_no_dots {base path : Path} (hbase : ".." ∉ base.parts)
    (hpath : ".." ∉ path.parts) : SpelledAlike base path := by
  have hsame : path.isAtOrBelow base = true ↔ path.Inside base := by
    rw [isAtOrBelow_iff, Inside, resolved_of_no_dots hbase, resolved_of_no_dots hpath]
  exact ⟨hsame.mp, fun hinside => Or.inl (hsame.mpr hinside)⟩

/-- The way to a row below a root, seen from where its files are seen. -/
theorem relativeParts_of_spelledAlike {base root : Path} (hspelled : SpelledAlike base root)
    (row : List String) :
    relativeParts (Collection.anchorFor base root).resolved (root.resolved ++ row) =
      wayFrom base root ++ row := by
  unfold Collection.anchorFor
  by_cases hwritten : root.isAtOrBelow base = true
  · have hinside := hspelled.inside hwritten
    obtain ⟨names, hnames⟩ := hinside.2
    rw [if_pos hwritten, wayFrom, if_pos hinside, ← hnames, List.append_assoc, relativeParts_append,
      List.drop_left]
  · rw [if_neg hwritten, relativeParts_append, wayFrom]
    split_ifs with hinside
    · have hsame := (hspelled.written hinside).resolve_left hwritten
      rw [hsame, List.drop_length, List.nil_append]
    · rfl

theorem sharedParts_le (front parts : List String) : sharedParts front parts ≤ front.length := by
  induction front generalizing parts with
  | nil => simp [sharedParts]
  | cons a front ih =>
      cases parts with
      | nil => simp [sharedParts]
      | cons b parts =>
          rw [sharedParts]
          split_ifs
          · simpa using ih parts
          · exact Nat.zero_le _

theorem prefix_of_sharedParts {front parts : List String}
    (hshared : sharedParts front parts = front.length) : front <+: parts := by
  induction front generalizing parts with
  | nil => exact List.nil_prefix
  | cons a front ih =>
      cases parts with
      | nil => simp [sharedParts] at hshared
      | cons b parts =>
          rw [sharedParts] at hshared
          split_ifs at hshared with hhead
          rw [hhead, List.prefix_cons_inj]
          exact ih (by simpa using hshared)

/-- From an anchor that is not above it, a path is seen through a double dot. -/
theorem relativeParts_eq_dots_cons {anchor parts : List String} (hnotAbove : ¬ anchor <+: parts) :
    ∃ rest, relativeParts anchor parts = ".." :: rest := by
  have hshared : sharedParts anchor parts < anchor.length :=
    lt_of_le_of_ne (sharedParts_le anchor parts) fun heq => hnotAbove (prefix_of_sharedParts heq)
  obtain ⟨count, hcount⟩ : ∃ count, anchor.length - sharedParts anchor parts = count + 1 :=
    Nat.exists_eq_succ_of_ne_zero (by omega)
  rw [relativeParts, hcount, List.replicate_succ, List.cons_append]
  exact ⟨_, rfl⟩

theorem anchored_of_relativeParts {directory anchor path : Path} (hanchor : anchor.root ≠ .relative)
    (hpath : path.root ≠ .relative) {names : List String} (hsome : names ≠ [])
    (hnames : relativeParts anchor.resolved path.resolved = names) :
    anchored directory anchor path = "/" ++ "/".intercalate names := by
  rw [anchored, normalParts_eq_resolved hanchor, normalParts_eq_resolved hpath, hnames]
  split
  · contradiction
  · rfl

end Path

namespace Exclusion

/-- Read with backslashes as slashes, a text has a segment that leads up. -/
def LeadsUp (text : String) : Prop :=
  "..".toList ∈ segments '/' (forward text).toList

/-- Names lead up where they are seen if one of them does. -/
theorem leadsUp_names_iff {names : List String} (hsome : names ≠ []) :
    LeadsUp ("/" ++ "/".intercalate names) ↔ ∃ name ∈ names, LeadsUp name := by
  rw [LeadsUp, segments_forward_anchored hsome]
  simp [LeadsUp]

theorem forward_forward (text : String) : forward (forward text) = forward text := by
  rw [forward, forward, String.toList_ofList, forwardChars_forwardChars]

/-- A name without separators leads up only if it is a double dot. -/
theorem not_leadsUp {name : String} (hdots : name ≠ "..") (hslash : '/' ∉ name.toList)
    (hback : '\\' ∉ name.toList) : ¬ LeadsUp name := by
  rw [LeadsUp, forward, forwardChars_of_not_mem hback, String.ofList_toList, segments_of_not_mem hslash,
    List.mem_singleton]
  exact fun heq => hdots (String.toList_inj.mp heq.symm)

theorem length_forward (text : String) : (forward text).length = text.length := by
  rw [forward, String.length_ofList, forwardChars, List.length_map, String.length_toList]

end Exclusion

namespace Collection

open FileTree Roster.Path Exclusion

variable {tree : FileTree} {base root : Path} {patterns : List String}

/-- What exclusion sees of a row below a root, double dots in the root or not. -/
theorem anchored_of_names {row names : List String} (hrow : ".." ∉ row) (hsome : names ≠ [])
    (hnames : relativeParts (anchorFor (absolute tree base) (absolute tree root)).resolved
      ((absolute tree root).resolved ++ row) = names) :
    (scopeOf tree base patterns root).anchored (below (absolute tree root) row) =
      forward ("/" ++ "/".intercalate names) := by
  have hanchor : (scopeOf tree base patterns root).anchor.root ≠ .relative :=
    anchorFor_root_ne (absolute_root_ne tree base) (absolute_root_ne tree root)
  have hbelow : (below (absolute tree root) row).root ≠ .relative := absolute_root_ne tree root
  have hresolved : (below (absolute tree root) row).resolved = (absolute tree root).resolved ++ row :=
    collapse_append hrow [] _
  rw [Scope.anchored, anchored_of_relativeParts hanchor hbelow hsome (hresolved ▸ hnames)]

/-- What exclusion is to see: the way from the base to the root, and the row. -/
def viewOf (tree : FileTree) (base root : Path) (row : List String) : String :=
  forward ("/" ++ "/".intercalate (wayFrom (absolute tree base) (absolute tree root) ++ row))

theorem anchored_of_spelledAlike (hspelled : SpelledAlike (absolute tree base) (absolute tree root))
    {row : List String} (hsome : row ≠ []) (hrow : ".." ∉ row) :
    (scopeOf tree base patterns root).anchored (below (absolute tree root) row) =
      viewOf tree base root row :=
  anchored_of_names hrow (by simp [hsome]) (relativeParts_of_spelledAlike hspelled row)

theorem exists_new_name (names : List String) : ∃ cs, String.ofList ('a' :: cs) ∉ names := by
  refine ⟨(names.map String.toList).flatten, fun hmem => ?_⟩
  have hpart : 'a' :: (names.map String.toList).flatten ∈ names.map String.toList :=
    List.mem_map.mpr ⟨_, hmem, String.toList_ofList⟩
  have hlength := (List.sublist_flatten_of_mem hpart).length_le
  rw [List.length_cons] at hlength
  omega

/-- Where the names below a root are always seen as they should be, the spellings agree. -/
theorem spelledAlike_of_anchored
    (hseen : ∀ row, row ≠ [] → ".." ∉ row →
      (scopeOf tree base patterns root).anchored (below (absolute tree root) row) =
        viewOf tree base root row) :
    SpelledAlike (absolute tree base) (absolute tree root) where
  inside := by
    intro hwritten
    by_contra hinside
    have hroot := (isAtOrBelow_iff.mp hwritten).1
    have hnotAbove : ¬ (absolute tree base).resolved <+: (absolute tree root).resolved :=
      fun h => hinside ⟨hroot, h⟩
    -- a name that is nowhere above: its path is seen through a double dot
    obtain ⟨cs, hnew⟩ := exists_new_name (absolute tree base).resolved
    have hrow : ".." ∉ [String.ofList ('a' :: cs)] := by
      rw [List.mem_singleton]
      intro heq
      have hchars : "..".toList = 'a' :: cs := (congrArg String.toList heq).trans String.toList_ofList
      exact absurd hchars (by simp)
    have hstill : ¬ (absolute tree base).resolved <+:
        (absolute tree root).resolved ++ [String.ofList ('a' :: cs)] := by
      rw [List.prefix_concat_iff, not_or]
      refine ⟨fun heq => hnew ?_, hnotAbove⟩
      rw [heq]
      exact List.mem_append_right _ (List.mem_singleton.mpr rfl)
    obtain ⟨rest, hrest⟩ := relativeParts_eq_dots_cons hstill
    have hanchor : anchorFor (absolute tree base) (absolute tree root) = absolute tree base :=
      if_pos hwritten
    have hsaw := hseen _ (List.cons_ne_nil _ _) hrow
    rw [anchored_of_names hrow (List.cons_ne_nil _ _) (hanchor ▸ hrest), viewOf, wayFrom,
      if_neg hinside, List.nil_append] at hsaw
    obtain ⟨more, hmore⟩ := exists_toList_intercalate_cons ".." rest
    have hchars := congrArg String.toList hsaw
    simp only [forward, String.toList_ofList, String.toList_append, hmore, String.intercalate_singleton]
      at hchars
    have hsecond := congrArg (·[1]?) hchars
    simp [forwardChars] at hsecond
  written := by
    intro hinside
    by_contra hneither
    rw [not_or] at hneither
    obtain ⟨hwritten, hresolved⟩ := hneither
    obtain ⟨names, hnames⟩ := hinside.2
    have hsome : names ≠ [] := by
      rintro rfl
      exact hresolved (by rw [← hnames, List.append_nil])
    have hway : wayFrom (absolute tree base) (absolute tree root) = names := by
      rw [wayFrom, if_pos hinside, ← hnames, List.drop_left]
    have hanchor : anchorFor (absolute tree base) (absolute tree root) = absolute tree root :=
      if_neg hwritten
    have hlocal : relativeParts (anchorFor (absolute tree base) (absolute tree root)).resolved
        ((absolute tree root).resolved ++ ["a"]) = ["a"] := by
      rw [hanchor, relativeParts_append]
    have hrow : ".." ∉ ["a"] := by decide
    have hsaw := hseen ["a"] (by simp) hrow
    rw [anchored_of_names hrow (by simp) hlocal, viewOf, hway] at hsaw
    -- the way makes the one text longer than the other
    have hlength := congrArg String.length hsaw
    rw [length_forward, length_forward, String.intercalate_append_of_ne_nil hsome (by simp)] at hlength
    have hslash : "/".length = 1 := rfl
    simp only [String.length_append, String.intercalate_singleton, hslash] at hlength
    omega

theorem leadsUp_viewOf_iff {row : List String} (hsome : row ≠ []) :
    LeadsUp (viewOf tree base root row) ↔
      ∃ name ∈ wayFrom (absolute tree base) (absolute tree root) ++ row, LeadsUp name := by
  rw [← leadsUp_names_iff (by simp [hsome]), viewOf, LeadsUp, LeadsUp, forward_forward]

/-- Exclusion sees the names from the base to a file below a root inside it, and from the root on for a root
elsewhere, exactly if the base and the root are spelled alike, as they are without double dots. No name that it sees
leads up but one that holds separators itself. So a project that is moved as it is, below a base or as a root elsewhere,
is collected as before. -/
theorem directories_above_exclude_nothing (tree : FileTree) (base root : Path) (patterns : List String) :
    (SpelledAlike (absolute tree base) (absolute tree root) ↔
      ∀ row, row ≠ [] → ".." ∉ row →
        (scopeOf tree base patterns root).anchored (below (absolute tree root) row) =
          viewOf tree base root row) ∧
    (".." ∉ (absolute tree base).parts → ".." ∉ (absolute tree root).parts →
      SpelledAlike (absolute tree base) (absolute tree root)) ∧
    (∀ row, row ≠ [] →
      (LeadsUp (viewOf tree base root row) ↔
        ∃ name ∈ wayFrom (absolute tree base) (absolute tree root) ++ row, LeadsUp name)) ∧
    (∀ row, ".." ∉ row → ∀ name ∈ wayFrom (absolute tree base) (absolute tree root) ++ row,
      '/' ∉ name.toList → '\\' ∉ name.toList → ¬ LeadsUp name) ∧
    ∀ (other : FileTree) (otherBase moved : Path) (entry : Entry), entry.Proper →
      SameBelow tree other root moved entry →
      SpelledAlike (absolute tree base) (absolute tree root) →
      SpelledAlike (absolute other otherBase) (absolute other moved) →
      wayFrom (absolute other otherBase) (absolute other moved) =
        wayFrom (absolute tree base) (absolute tree root) →
      ∀ files, collectFrom tree base patterns root = .ok files →
        ∃ rows : List (List String), files = rows.map (candidateAt (absolute tree root)) ∧
          collectFrom other otherBase patterns moved =
            .ok (rows.map (candidateAt (absolute other moved))) := by
  refine ⟨⟨?_, spelledAlike_of_anchored⟩, spelledAlike_of_no_dots,
    fun row hsome => leadsUp_viewOf_iff hsome, ?_, ?_⟩
  · exact fun hspelled row hsome hrow => anchored_of_spelledAlike hspelled hsome hrow
  · intro row hrow name hname hslash hback
    refine not_leadsUp ?_ hslash hback
    rintro rfl
    rcases List.mem_append.mp hname with hway | hmem
    · exact dots_not_mem_wayFrom _ _ hway
    · exact hrow hmem
  · intro other otherBase moved entry hproper hsame hspelled hspelledMoved hway files hcollect
    refine collectFrom_moved hsame hproper (fun row hsome hrow => ?_) hcollect
    rw [anchored_of_spelledAlike hspelled hsome hrow, anchored_of_spelledAlike hspelledMoved hsome hrow,
      viewOf, viewOf, hway]

/-- A folder with one source. -/
def library : Entry :=
  .folder [("A.php", .file .empty)]

theorem proper_library : library.Proper := by
  have hleaf : (Entry.file .empty).Proper := .leaf rfl
  exact .folder (by decide) (by decide) (by simp [hleaf])

theorem row_of_library {row : List String} {leaf : Entry} (hthere : library.at? row = some leaf) :
    row = [] ∧ leaf = library ∨ row = ["A.php"] := by
  rcases row with _ | ⟨name, rest⟩
  · cases hthere
    exact Or.inl ⟨rfl, rfl⟩
  · obtain ⟨inner, hchild, hrest⟩ := Option.bind_eq_some_iff.mp hthere
    have hmem := Entry.mem_of_child? hchild
    rw [List.mem_singleton] at hmem
    cases hmem
    cases rest with
    | nil => exact Or.inr rfl
    | cons next rest => cases hrest

/-- What is collected of a library depends on what is seen of its source. -/
theorem collectFrom_library (base : Path) (patterns : List String) (hfound : tree.entry? root = .ok (some library))
    (hlisted : isTooLong (absolute tree root) = false)
    (hfile : tree.isFile (below (absolute tree root) ["A.php"]) = .ok true) :
    collectFrom tree base patterns root =
      .ok (if Exclusion.excludes patterns
          ((scopeOf tree base patterns root).anchored (below (absolute tree root) ["A.php"]))
        then [] else [candidateAt (absolute tree root) ["A.php"]]) := by
  have hsource : isSourceName "A.php" = true := by decide
  have hbelow : sourcesBelow (scopeOf tree base patterns root) (absolute tree root) library =
      [below (absolute tree root) ["A.php"]] := by
    rw [library, sourcesBelow_folder hlisted]
    simp [sourcesBelowEach, ownSources, byName, inside, below, Entry.isFolder, hsource]
  have hkeeps : (scopeOf tree base patterns root).keeps (below (absolute tree root) ["A.php"]) =
      .ok (!Exclusion.excludes patterns
        ((scopeOf tree base patterns root).anchored (below (absolute tree root) ["A.php"]))) := by
    change (tree.isFile _ >>= _) = _
    rw [hfile]
    rfl
  rw [collectFrom_eq hfound, hbelow, keepEach, hkeeps]
  cases Exclusion.excludes patterns
    ((scopeOf tree base patterns root).anchored (below (absolute tree root) ["A.php"])) with
  | true => rfl
  | false => rfl

/-- A project with a library and an empty folder, in a folder of any name. -/
def projectUnder (top : String) : FileTree where
  root := .folder [(top, .folder [("project", .folder [("lib", library), ("src", .folder [])])])]

/-- The library, written with a way around. -/
def roundabout (top : String) : Path :=
  ⟨.slash, [top, "project", "src", "..", "lib"]⟩

theorem leads_roundabout {top : String} (htop : Ordinary top) {rest : List String} {place : Place}
    (hrest : Leads (projectUnder top).root true linkLimit [top, "project", "lib"] rest place) :
    Leads (projectUnder top).root true linkLimit [] ((roundabout top).parts ++ rest) place := by
  have hproject : Ordinary "project" := by decide
  have hsrc : Ordinary "src" := by decide
  have hlib : Ordinary "lib" := by decide
  have hat (names : List String) : (projectUnder top).root.at? (top :: names) =
      (Entry.folder [("project", .folder [("lib", library), ("src", .folder [])])]).at? names := by
    simp [projectUnder, Entry.at?, Entry.child?, Entry.entries]
  refine .enter htop (hat []) Entry.folder_ne_link ?_
  refine .enter hproject (hat ["project"]) Entry.folder_ne_link ?_
  refine .enter hsrc (hat ["project", "src"]) Entry.folder_ne_link (.leave (hat ["project", "src"]) ?_)
  exact .enter hlib (hat ["project", "lib"]) Entry.folder_ne_link hrest

theorem found_roundabout {top : String} (htop : Ordinary top) (hadmissible : Admissible (roundabout top)) :
    FileTree.entry? (projectUnder top) (roundabout top) = .ok (some library) := by
  have hthere : (projectUnder top).root.at? [top, "project", "lib"] = some library := by
    simp [projectUnder, Entry.at?, Entry.child?, Entry.entries]
  exact entry?_of_locate (locate_eq_ok_iff.mpr ⟨hadmissible, leads_roundabout htop (.done hthere)⟩)

theorem isFile_roundabout {top : String} (htop : Ordinary top)
    (hadmissible : Admissible (below (roundabout top) ["A.php"])) :
    (projectUnder top).isFile (below (roundabout top) ["A.php"]) = .ok true := by
  have hname : Ordinary "A.php" := by decide
  have hthere : (projectUnder top).root.at? [top, "project", "lib", "A.php"] = some (.file .empty) := by
    simp [projectUnder, library, Entry.at?, Entry.child?, Entry.entries]
  exact isFile_eq_ok_true_iff.mpr ⟨_, _, locate_eq_ok_iff.mpr
    ⟨hadmissible, leads_roundabout htop (.enter hname hthere Entry.file_ne_link (.done hthere))⟩⟩

theorem sameBelow_roundabout :
    SameBelow (projectUnder "build") (projectUnder "srv") (roundabout "build") (roundabout "srv")
      library := by
  have hbuild : Ordinary "build" := by decide
  have hsrv : Ordinary "srv" := by decide
  refine ⟨found_roundabout hbuild (by decide), found_roundabout hsrv (by decide),
    ?_, ?_⟩
  · intro row leaf hthere
    rcases row_of_library hthere with ⟨rfl, -⟩ | rfl
    · decide
    · decide
  · intro row leaf hthere hleaf present
    obtain rfl : row = ["A.php"] := by
      rcases row_of_library hthere with ⟨-, rfl⟩ | hrow
      · cases hleaf
      · exact hrow
    have hbuildFile := isFile_roundabout hbuild (by decide)
    have hsrvFile := isFile_roundabout hsrv (by decide)
    change (projectUnder "srv").isFile (below (roundabout "srv") ["A.php"]) = _ ↔
      (projectUnder "build").isFile (below (roundabout "build") ["A.php"]) = _
    rw [hbuildFile, hsrvFile]

/-- A folder above a project is renamed, whose old name excludes; the root is written with double dots. -/
theorem directories_above_exclude_nothing_build :
    (scopeOf (projectUnder "build") ⟨.slash, ["build", "project"]⟩ builtIn (roundabout "build")).anchored
        (below (roundabout "build") ["A.php"]) = "/lib/A.php" ∧
    ¬ LeadsUp "/lib/A.php" ∧
    ∃ rows : List (List String), rows ≠ [] ∧
      collectFrom (projectUnder "build") ⟨.slash, ["build", "project"]⟩ builtIn (roundabout "build") =
        .ok (rows.map (candidateAt (roundabout "build"))) ∧
      collectFrom (projectUnder "srv") ⟨.slash, ["srv", "project"]⟩ builtIn (roundabout "srv") =
        .ok (rows.map (candidateAt (roundabout "srv"))) := by
  obtain ⟨hseen, -, hup, hplain, hmoved⟩ := directories_above_exclude_nothing (projectUnder "build")
    ⟨.slash, ["build", "project"]⟩ (roundabout "build") builtIn
  have hspelled : SpelledAlike ⟨.slash, ["build", "project"]⟩ (roundabout "build") :=
    ⟨fun _ => by decide, fun _ => Or.inl (by decide)⟩
  have hspelledMoved : SpelledAlike ⟨.slash, ["srv", "project"]⟩ (roundabout "srv") :=
    ⟨fun _ => by decide, fun _ => Or.inl (by decide)⟩
  have hview : viewOf (projectUnder "build") ⟨.slash, ["build", "project"]⟩ (roundabout "build")
      ["A.php"] = "/lib/A.php" := by decide +kernel
  have hsaw := (hseen.mp hspelled ["A.php"] (by simp) (by simp)).trans hview
  have hfound := sameBelow_roundabout.found
  have hfile : (projectUnder "build").isFile (below (roundabout "build") ["A.php"]) = .ok true :=
    isFile_roundabout (by decide) (by decide)
  have hcollect := collectFrom_library ⟨.slash, ["build", "project"]⟩ builtIn hfound (by decide) hfile
  have hkept : Exclusion.excludes builtIn "/lib/A.php" = false := by decide +kernel
  rw [hsaw, hkept] at hcollect
  obtain ⟨rows, hrows, hsrv⟩ := hmoved (projectUnder "srv") ⟨.slash, ["srv", "project"]⟩
    (roundabout "srv") library proper_library sameBelow_roundabout hspelled hspelledMoved (by decide)
    _ hcollect
  refine ⟨hsaw, ?_, rows, ?_, hcollect.trans (congrArg Except.ok hrows), hsrv⟩
  · rw [← hview, hup ["A.php"] (by simp)]
    rintro ⟨name, hname, hleads⟩
    have hnames : ∀ name ∈ wayFrom ⟨.slash, ["build", "project"]⟩ (roundabout "build") ++ ["A.php"],
        '/' ∉ name.toList ∧ '\\' ∉ name.toList := by decide
    exact hplain ["A.php"] (by simp) name hname (hnames name hname).1 (hnames name hname).2 hleads
  · rintro rfl
    cases hrows

/-- A project with a library beside it, in a folder whose name excludes. -/
def besideProject : FileTree where
  root := .folder [("build", .folder [("lib", library)]), ("project", .folder [])]

/-- A root elsewhere that is written from the base on is seen from the base, and so through what lies above it. -/
theorem no_source_through_base :
    ¬ (⟨.slash, ["project", "..", "build", "lib"]⟩ : Path).Inside ⟨.slash, ["project"]⟩ ∧
    besideProject.isFile ⟨.slash, ["project", "..", "build", "lib", "A.php"]⟩ = .ok true ∧
    Exclusion.excludes builtIn "/A.php" = false ∧
    (scopeOf besideProject ⟨.slash, ["project"]⟩ builtIn
        ⟨.slash, ["project", "..", "build", "lib"]⟩).anchored
      ⟨.slash, ["project", "..", "build", "lib", "A.php"]⟩ = "/../build/lib/A.php" ∧
    collectFrom besideProject ⟨.slash, ["project"]⟩ builtIn ⟨.slash, ["project", "..", "build", "lib"]⟩ =
      .ok [] := by
  have hproject : Ordinary "project" := by decide
  have hbuild : Ordinary "build" := by decide
  have hlib : Ordinary "lib" := by decide
  have hname : Ordinary "A.php" := by decide
  have hfound : besideProject.entry? ⟨.slash, ["project", "..", "build", "lib"]⟩ = .ok (some library) :=
    entry?_of_locate (locate_eq_ok_iff.mpr ⟨by decide, .enter hproject rfl nofun
      (.leave rfl (.enter hbuild rfl nofun (.enter hlib rfl nofun (.done rfl))))⟩)
  have hfile : besideProject.isFile ⟨.slash, ["project", "..", "build", "lib", "A.php"]⟩ = .ok true :=
    isFile_eq_ok_true_iff.mpr ⟨_, _, locate_eq_ok_iff.mpr ⟨by decide,
      .enter hproject rfl nofun (.leave rfl (.enter hbuild rfl nofun (.enter hlib rfl nofun
        (.enter hname rfl nofun (.done rfl)))))⟩⟩
  have hsaw : (scopeOf besideProject ⟨.slash, ["project"]⟩ builtIn
      ⟨.slash, ["project", "..", "build", "lib"]⟩).anchored
        ⟨.slash, ["project", "..", "build", "lib", "A.php"]⟩ = "/../build/lib/A.php" := by
    decide +kernel
  have hexcluded : Exclusion.excludes builtIn "/../build/lib/A.php" = true := by decide +kernel
  have hcollect := collectFrom_library ⟨.slash, ["project"]⟩ builtIn hfound (by decide) hfile
  change collectFrom _ _ _ _ = .ok (if Exclusion.excludes builtIn ((scopeOf _ _ builtIn _).anchored
    ⟨.slash, ["project", "..", "build", "lib", "A.php"]⟩) = true then _ else _) at hcollect
  rw [hsaw, hexcluded] at hcollect
  exact ⟨by decide, hfile, by decide +kernel, hsaw, hcollect⟩

end Collection

end Roster
