import Roster.Proofs.PlainTree
import Roster.Proofs.SameSources
import Roster.Scan.File

/-! What a filled folder changes for the rest of a tree. Folders that are not on the way to it are found as before, with
the same below them, so that the same candidates are collected there, and read the same. -/

namespace Roster

namespace Entry

/-- An entry as systems have them, without links: names stand once in a folder, and paths can be made of them. -/
structure Plain (root : Entry) : Prop where
  proper : root.Proper
  no_link : root.LinkFree
  named : ∀ location name entry, root.at? (location ++ [name]) = some entry → Path.IsName name

theorem Plain.isName {root entry : Entry} (hplain : root.Plain) {location row : List String}
    (hthere : root.at? (location ++ row) = some entry) : ∀ part ∈ row, Path.IsName part := by
  intro part hpart
  obtain ⟨front, back, rfl⟩ := List.append_of_mem hpart
  have hsplit : location ++ (front ++ part :: back) = location ++ front ++ [part] ++ back := by simp
  rw [hsplit, at?_append] at hthere
  obtain ⟨found, hfound, -⟩ := Option.bind_eq_some_iff.mp hthere
  exact hplain.named _ part found hfound

theorem Plain.file (content : ByteArray) : (Entry.file content).Plain where
  proper := .leaf rfl
  no_link location target hlink := by
    cases location with
    | nil => cases hlink
    | cons name location => cases hlink
  named location name entry hentry := by
    cases location with
    | nil => cases hentry
    | cons first location => cases hentry

theorem Plain.folder {entries : List (String × Entry)} (hnodup : (entries.map (·.1)).Nodup)
    (hnames : ∀ found ∈ entries, Path.IsName found.1) (hinner : ∀ found ∈ entries, found.2.Plain) :
    (Entry.folder entries).Plain where
  proper := by
    refine .folder hnodup (fun hdots => ?_) fun found hfound => (hinner found hfound).proper
    obtain ⟨found, hfound, heq⟩ := List.mem_map.mp hdots
    exact (hnames found hfound).not_dots heq
  no_link location target hlink := by
    cases location with
    | nil => cases hlink
    | cons name location =>
        obtain ⟨inner, hchild, hlink⟩ := Option.bind_eq_some_iff.mp hlink
        exact (hinner _ (mem_of_child? hchild)).no_link location target hlink
  named location name entry hentry := by
    cases location with
    | nil =>
        obtain ⟨inner, hchild, -⟩ := Option.bind_eq_some_iff.mp hentry
        exact hnames _ (mem_of_child? hchild)
    | cons first location =>
        obtain ⟨inner, hchild, hentry⟩ := Option.bind_eq_some_iff.mp hentry
        exact (hinner _ (mem_of_child? hchild)).named location name entry hentry

end Entry

namespace FileTree

open Entry

variable {folder names : List String} {tree after : FileTree} {path : Path}

theorem locate_of_not_admissible (hpath : ¬ Admissible path) (first second : FileTree) :
    first.locate true path = second.locate true path := by
  unfold locate
  dsimp only
  by_cases hnull : (toString path).contains '\x00' = true
  · rw [if_pos hnull, if_pos hnull]
  · by_cases hlong : longestPath < (toString path).utf8ByteSize
    · rw [if_neg hnull, if_neg hnull, if_pos hlong, if_pos hlong]
    · exact absurd ⟨by simpa using hnull, hlong⟩ hpath

theorem entry?_of_locate_eq {first second : FileTree} {other : Path}
    (hlocate : first.locate true path = second.locate true other) :
    first.entry? path = second.entry? other := by
  unfold entry?
  rw [hlocate]

theorem locate_of_entry?_error {fault : Fault} (hentry : tree.entry? path = .error fault) :
    ∃ text, tree.locate true path = .error (.system .nameTooLong text) := by
  unfold entry? at hentry
  split at hentry
  · cases hentry
  · cases hentry
  · next text hlocate => exact ⟨text, hlocate⟩
  · cases hentry

/-- A clean path with a name too long in a folder cannot be asked about. -/
theorem entry?_overlong (hfree : tree.root.LinkFree) (hclean : path.Clean) (hadmissible : Admissible path)
    {above rest : List String} {name : String} {entries : List (String × Entry)}
    (hparts : path.parts = above ++ name :: rest)
    (hfolder : tree.root.at? above = some (.folder entries)) (hlong : longestName < name.utf8ByteSize)
    (hordinary : ∀ part ∈ above, Ordinary part) :
    tree.entry? path = .error (.system .nameTooLong (toString path)) := by
  have hleads : Leads tree.root true linkLimit [] above (.entry above (.folder entries)) :=
    leads_of_at? hfree hordinary hfolder
  obtain ⟨left, hleft⟩ := hleads.walk_append
  have hrefused : tree.locate true path = .error (.system .nameTooLong (toString path)) := by
    rw [locate_of_admissible hadmissible, origin_of_clean hclean, hparts, hleft,
      walk_overlong hfolder hlong]
    rfl
  unfold entry?
  rw [hrefused]

/-- A clean path that begins with a missing name leads to nothing. -/
theorem entry?_missing (hfree : tree.root.LinkFree) (hclean : path.Clean) (hadmissible : Admissible path)
    {name : String} {rest : List String} {entries : List (String × Entry)}
    (hparts : path.parts = name :: rest) (hroot : tree.root = .folder entries)
    (hshort : ¬ longestName < name.utf8ByteSize) (hmissing : tree.root.at? [name] = none) :
    tree.entry? path = .ok none := by
  obtain ⟨hdot, hdots⟩ := not_dots_of_clean hclean name (by simp [hparts])
  have hfolder : tree.root.at? [] = some (.folder entries) := congrArg some hroot
  have hwalk : walk tree.root true linkLimit [] (name :: rest) =
      if rest.isEmpty then .ok (.free [] name) else .error .notFound := by
    rw [walk_cons hfree hfolder hdot hdots, if_neg hshort, List.nil_append, hmissing]
    exact if_neg (by simp)
  unfold entry?
  rw [locate_of_admissible hadmissible, origin_of_clean hclean, hparts, hwalk]
  cases rest with
  | nil => rfl
  | cons next rest => rfl

/-- Nothing else is in the way of asking. -/
theorem overlong_of_entry? (hfree : tree.root.LinkFree) (hclean : path.Clean)
    (hadmissible : Admissible path) {fault : Fault} (hentry : tree.entry? path = .error fault) :
    ∃ above name rest entries, path.parts = above ++ name :: rest ∧
      tree.root.at? above = some (.folder entries) ∧ longestName < name.utf8ByteSize ∧
      ∀ part ∈ above, Ordinary part := by
  obtain ⟨text, hlocate⟩ := locate_of_entry?_error hentry
  rw [locate_of_admissible hadmissible, origin_of_clean hclean] at hlocate
  cases hwalk : walk tree.root true linkLimit [] path.parts with
  | ok place =>
      rw [hwalk] at hlocate
      cases hlocate
  | error cause =>
      rw [hwalk] at hlocate
      cases hlocate
      exact overlong_of_walk hfree (not_dots_of_clean hclean) hwalk

theorem isDirectory_eq_any {found : Option Entry} (hentry : tree.entry? path = .ok found) :
    tree.isDirectory path = .ok (found.any Entry.isFolder) := by
  rw [isDirectory, hentry]
  rcases found with _ | content | target | entries
  · rfl
  · rfl
  · rfl
  · rfl

theorem any_isFolder_iff {found : Option Entry} :
    found.any Entry.isFolder = true ↔ ∃ entries, found = some (.folder entries) := by
  rcases found with _ | content | target | entries
  · simp
  · simp [Entry.isFolder]
  · simp [Entry.isFolder]
  · simp [Entry.isFolder]

/-- A path that stays the same when a folder is filled: it is not on the way to the folder, and has no name too long in
a folder that is made on the way. -/
structure Beside (tree : FileTree) (folder : List String) (path : Path) : Prop where
  clean : path.Clean
  apart : ¬ path.parts <+: folder
  short : ∀ above name, above <+: folder → tree.root.at? above = none →
    above ++ [name] <+: path.parts → ¬ longestName < name.utf8ByteSize

section Filled

variable (hfree : tree.root.LinkFree) (hfills : FillsFolder folder names tree after)
  (hbeside : Beside tree folder path)

include hfree hfills hbeside

theorem locate_filled {location : List String} {entries : List (String × Entry)}
    (hlocate : tree.locate true path = .ok (.entry location (.folder entries))) :
    location = path.parts ∧ after.locate true path = .ok (.entry path.parts (.folder entries)) := by
  obtain rfl : location = path.parts := location_of_clean hfree hbeside.clean hlocate
  obtain ⟨later, hlater, -⟩ := locate_grow hlocate hfills.directory hfills.grows
  have hsame := (hfills.folder_iff hbeside.apart).mpr (at?_of_locate hlocate)
  obtain rfl := Option.some.inj ((at?_of_locate hlater).symm.trans hsame)
  exact ⟨rfl, hlater⟩

theorem folder_filled_iff {entries : List (String × Entry)} :
    after.entry? path = .ok (some (.folder entries)) ↔ tree.entry? path = .ok (some (.folder entries)) := by
  have hnames := not_dots_of_clean hbeside.clean
  constructor
  · intro hentry
    obtain ⟨location, hlocate⟩ := locate_of_entry? hentry
    have hfreeAfter := hfills.linkFree hfree
    obtain ⟨hadmissible, hleads⟩ := locate_eq_ok_iff.mp hlocate
    obtain rfl : location = path.parts := location_of_clean hfreeAfter hbeside.clean hlocate
    have hthere := (hfills.folder_iff hbeside.apart).mp (at?_of_locate hlocate)
    have hagain : Leads tree.root true linkLimit [] path.parts (.entry path.parts (.folder entries)) :=
      leads_of_at? hfree (hleads.ordinary hfreeAfter hnames) hthere
    rw [← origin_of_clean hbeside.clean tree] at hagain
    exact entry?_of_locate (locate_eq_ok_iff.mpr ⟨hadmissible, hagain⟩)
  · intro hentry
    obtain ⟨location, hlocate⟩ := locate_of_entry? hentry
    exact entry?_of_locate (locate_filled hfree hfills hbeside hlocate).2

/-- What could be asked about can be asked about afterwards, and is the same folder or none. -/
theorem entry?_filled {found : Option Entry} (hentry : tree.entry? path = .ok found) :
    ∃ later, after.entry? path = .ok later ∧
      ∀ entries, later = some (.folder entries) ↔ found = some (.folder entries) := by
  cases hlater : after.entry? path with
  | ok later =>
      refine ⟨later, rfl, fun entries => ?_⟩
      have hfolder : after.entry? path = .ok (some (.folder entries)) ↔
          tree.entry? path = .ok (some (.folder entries)) := folder_filled_iff hfree hfills hbeside
      rwa [hlater, hentry, Except.ok.injEq, Except.ok.injEq] at hfolder
  | error fault =>
      exfalso
      by_cases hadmissible : Admissible path
      · obtain ⟨above, name, rest, entries, hparts, hfolder, hlong, hordinary⟩ :=
          overlong_of_entry? (hfills.linkFree hfree) hbeside.clean hadmissible hlater
        rcases hfills.folder_before hfolder with ⟨habove, hnone⟩ | ⟨old, hold⟩
        · exact hbeside.short above name habove hnone ⟨rest, by simp [hparts]⟩ hlong
        · have hrefused := entry?_overlong hfree hbeside.clean hadmissible hparts hold hlong hordinary
          cases hentry.symm.trans hrefused
      · rw [entry?_of_locate_eq (locate_of_not_admissible hadmissible after tree), hentry] at hlater
        cases hlater

theorem isDirectory_filled {present : Bool} (hpresent : tree.isDirectory path = .ok present) :
    after.isDirectory path = .ok present := by
  cases hentry : tree.entry? path with
  | error fault =>
      rw [isDirectory, hentry] at hpresent
      cases hpresent
  | ok found =>
      obtain ⟨later, hlater, hsame⟩ := entry?_filled hfree hfills hbeside hentry
      rw [isDirectory_eq_any hentry] at hpresent
      rw [isDirectory_eq_any hlater, ← hpresent]
      refine congrArg Except.ok (Bool.eq_iff_iff.mpr ?_)
      rw [any_isFolder_iff, any_isFolder_iff]
      exact exists_congr hsame

/-- Below such a folder every path leads where it led. -/
theorem locate_below_filled {entries : List (String × Entry)}
    (hentry : tree.entry? path = .ok (some (.folder entries))) {row : List String}
    (hrow : ∀ part ∈ row, Path.IsName part) :
    after.locate true (Collection.below path row) = tree.locate true (Collection.below path row) := by
  by_cases hadmissible : Admissible (Collection.below path row)
  · obtain ⟨location, hlocate⟩ := locate_of_entry? hentry
    obtain ⟨rfl, hafter⟩ := locate_filled hfree hfills hbeside hlocate
    obtain ⟨left, hleft⟩ := (locate_eq_ok_iff.mp hlocate).2.walk_append
    obtain ⟨leftAfter, hleftAfter⟩ := (locate_eq_ok_iff.mp hafter).2.walk_append
    have hwalk : walk after.root true leftAfter path.parts row = walk tree.root true left path.parts row :=
      walk_congr hfree (hfills.linkFree hfree)
        (fun part hpart => ⟨(hrow part hpart).not_dot, (hrow part hpart).not_dots⟩)
        (hfills.below_folder hbeside.apart (at?_of_locate hlocate)) leftAfter
    rw [locate_of_admissible hadmissible, locate_of_admissible hadmissible]
    change Except.mapError _ (walk after.root true linkLimit (after.origin path) (path.parts ++ row)) =
      Except.mapError _ (walk tree.root true linkLimit (tree.origin path) (path.parts ++ row))
    rw [hleft, hleftAfter, hwalk]
  · exact locate_of_not_admissible hadmissible after tree

end Filled

end FileTree

namespace Collection

open FileTree Entry

theorem absolute_of_clean {root : Path} (hclean : root.Clean) (tree : FileTree) :
    absolute tree root = root := by
  unfold absolute Path.join
  split
  · next hroot => exact absurd hroot hclean.absolute
  · rfl

variable {folder names : List String} {tree after : FileTree} {base root : Path}
  {patterns : List String} {files : List Candidate}

/-- The names in a row below a folder. -/
theorem isName_below (hplain : tree.root.Plain) {entries : List (String × Entry)}
    (hentry : tree.entry? root = .ok (some (.folder entries))) {row : List String} {leaf : Entry}
    (hthere : (Entry.folder entries).at? row = some leaf) : ∀ part ∈ row, Path.IsName part := by
  obtain ⟨location, hlocate⟩ := locate_of_entry? hentry
  have hbelow : tree.root.at? (location ++ row) = some leaf := by
    rw [at?_append, at?_of_locate hlocate]
    exact hthere
  exact hplain.isName hbelow

/-- What is collected below a root that is no folder. -/
theorem collectFrom_of_no_folder {found : Option Entry} (hfound : tree.entry? root = .ok found)
    (hnone : ∀ entries, found ≠ some (.folder entries)) :
    collectFrom tree base patterns root = .ok [] := by
  rw [collectFrom, hfound]
  rcases found with _ | content | target | entries
  · rfl
  · rfl
  · rfl
  · exact absurd rfl (hnone entries)

section Filled

variable (hplain : tree.root.Plain) (hfills : FillsFolder folder names tree after)
  (hbeside : Beside tree folder root)

include hplain hfills hbeside

theorem sameBelow_filled {entries : List (String × Entry)}
    (hentry : tree.entry? root = .ok (some (.folder entries))) :
    SameBelow tree after root root (.folder entries) := by
  refine ⟨hentry, (folder_filled_iff hplain.no_link hfills hbeside).mpr hentry, ?_, ?_⟩
  · intro row leaf hthere
    rw [absolute_of_clean hbeside.clean, absolute_of_clean hbeside.clean]
  · intro row leaf hthere hleaf present
    have hnames := isName_below hplain hentry hthere
    have hlocate := locate_below_filled hplain.no_link hfills hbeside hentry hnames
    rw [absolute_of_clean hbeside.clean, absolute_of_clean hbeside.clean, isFile, isFile,
      entry?_of_locate_eq hlocate]

/-- A candidate below a root is read as before. -/
theorem fileTree_filled [Syntax.Parser] {entries : List (String × Entry)}
    (hentry : tree.entry? root = .ok (some (.folder entries))) {row : List String} {leaf : Entry}
    (hthere : (Entry.folder entries).at? row = some leaf) :
    Scan.fileTree after (toString (below root row)) = Scan.fileTree tree (toString (below root row)) := by
  have hnames := isName_below hplain hentry hthere
  have hclean : (below root row).Clean := by
    refine ⟨hbeside.clean.absolute, fun part hpart => ?_⟩
    rcases List.mem_append.mp hpart with hpart | hpart
    · exact hbeside.clean.named part hpart
    · exact hnames part hpart
  have hlocate := locate_below_filled hplain.no_link hfills hbeside hentry hnames
  have hread : after.read (below root row) = tree.read (below root row) := by
    rw [FileTree.read, FileTree.read, hlocate]
  rw [Scan.fileTree, Scan.fileTree, Path.ofString_toString hclean, hread]

/-- The candidates below a root are the same as before, and are read the same. -/
theorem collectFrom_filled [Syntax.Parser] (hcollect : collectFrom tree base patterns root = .ok files) :
    collectFrom after base patterns root = .ok files ∧
      ∀ file ∈ files,
        Scan.fileTree after (toString file.path) = Scan.fileTree tree (toString file.path) := by
  have hdirectory : after.directoryPath = tree.directoryPath := congrArg (Path.mk .slash) hfills.directory
  cases hentry : tree.entry? root with
  | error fault =>
      rw [collectFrom, hentry] at hcollect
      cases hcollect
  | ok found =>
      by_cases hfolder : ∃ entries, found = some (.folder entries)
      · obtain ⟨entries, rfl⟩ := hfolder
        obtain ⟨location, hlocate⟩ := locate_of_entry? hentry
        have hproper := hplain.proper.at? (at?_of_locate hlocate)
        have hview : SameView (scopeOf tree base patterns root) (scopeOf after base patterns root)
            (absolute tree root) (absolute after root) := by
          intro row hsome hdots
          simp only [Scope.anchored, scopeOf, absolute, hdirectory]
        have hsame := sameBelow_filled hplain hfills hbeside hentry
        constructor
        · obtain ⟨rows, rfl, hagain⟩ := collectFrom_moved hsame hproper hview hcollect
          rw [hagain, absolute_of_clean hbeside.clean, absolute_of_clean hbeside.clean]
        · intro file hfile
          rw [collectFrom_eq hentry] at hcollect
          obtain ⟨rows, hrows, -, hvisited⟩ :=
            exists_rows (scopeOf tree base patterns root) hproper (absolute tree root)
          rw [hrows] at hcollect
          obtain ⟨rfl, -⟩ := keepEach_eq_ok hcollect
          obtain ⟨path, hpath, rfl⟩ := List.mem_map.mp hfile
          obtain ⟨row, hrow, rfl⟩ := List.mem_map.mp (List.mem_filter.mp hpath).1
          obtain ⟨leaf, hthere, -⟩ := ((hvisited row).mp hrow).there
          rw [absolute_of_clean hbeside.clean]
          exact fileTree_filled hplain hfills hbeside hentry hthere
      · have hnone : ∀ entries, found ≠ some (.folder entries) := fun entries heq => hfolder ⟨entries, heq⟩
        obtain ⟨later, hlater, hsame⟩ := entry?_filled hplain.no_link hfills hbeside hentry
        have hnoneLater : ∀ entries, later ≠ some (.folder entries) :=
          fun entries heq => hnone entries ((hsame entries).mp heq)
        rw [collectFrom_of_no_folder hentry hnone] at hcollect
        obtain rfl := Except.ok.inj hcollect
        exact ⟨collectFrom_of_no_folder hlater hnoneLater, by simp⟩

end Filled

/-- So are those below many roots. -/
theorem collect_filled [Syntax.Parser] (hplain : tree.root.Plain)
    (hfills : FillsFolder folder names tree after) {roots : List Path} (hbeside : ∀ root ∈ roots, Beside tree folder root)
    (hcollect : collect tree base patterns roots = .ok files) :
    collect after base patterns roots = .ok files ∧
      ∀ file ∈ files,
        Scan.fileTree after (toString file.path) = Scan.fileTree tree (toString file.path) := by
  induction roots generalizing files with
  | nil =>
      cases hcollect
      exact ⟨rfl, by simp⟩
  | cons root roots ih =>
      rw [collect] at hcollect ⊢
      cases hfirst : collectFrom tree base patterns root with
      | error fault =>
          rw [hfirst] at hcollect
          cases hcollect
      | ok found =>
          cases hrest : collect tree base patterns roots with
          | error fault =>
              rw [hfirst, hrest] at hcollect
              cases hcollect
          | ok others =>
              rw [hfirst, hrest] at hcollect
              obtain rfl := Except.ok.inj hcollect
              obtain ⟨hagain, hread⟩ :=
                collectFrom_filled hplain hfills (hbeside root List.mem_cons_self) hfirst
              obtain ⟨hagainRest, hreadRest⟩ :=
                ih (fun other hother => hbeside other (List.mem_cons_of_mem _ hother)) hrest
              rw [hagain, hagainRest]
              refine ⟨rfl, fun file hfile => ?_⟩
              rcases List.mem_append.mp hfile with hfile | hfile
              · exact hread file hfile
              · exact hreadRest file hfile

/-- The module directories that exist are the same as before. -/
theorem moduleRoots_filled (hfree : tree.root.LinkFree) (hfills : FillsFolder folder names tree after)
    {directories : List String} (hbeside : ∀ name ∈ directories, Beside tree folder (base / name))
    {modules : List Path} (hmodules : moduleRoots tree base directories = .ok modules) :
    moduleRoots after base directories = .ok modules ∧
      ∀ root ∈ modules, ∃ name ∈ directories, root = base / name := by
  induction directories generalizing modules with
  | nil =>
      cases hmodules
      exact ⟨rfl, by simp⟩
  | cons name directories ih =>
      rw [moduleRoots] at hmodules ⊢
      cases hpresent : tree.isDirectory (base / name) with
      | error fault =>
          rw [hpresent] at hmodules
          cases hmodules
      | ok present =>
          cases hrest : moduleRoots tree base directories with
          | error fault =>
              rw [hpresent, hrest] at hmodules
              cases hmodules
          | ok others =>
              rw [hpresent, hrest] at hmodules
              obtain rfl := Except.ok.inj hmodules
              obtain ⟨hagain, hmem⟩ :=
                ih (fun other hother => hbeside other (List.mem_cons_of_mem _ hother)) hrest
              rw [isDirectory_filled hfree hfills (hbeside name List.mem_cons_self) hpresent, hagain]
              refine ⟨rfl, fun root hroot => ?_⟩
              have hcases : root = base / name ∨ root ∈ others := by
                split_ifs at hroot
                · exact List.mem_cons.mp hroot
                · exact Or.inr hroot
              rcases hcases with rfl | hroot
              · exact ⟨name, List.mem_cons_self, rfl⟩
              · obtain ⟨other, hother, rfl⟩ := hmem root hroot
                exact ⟨other, List.mem_cons_of_mem _ hother, rfl⟩

end Collection

end Roster
