import Roster.Proofs.Collecting

/-! One folder with two paths, perhaps in two trees. When the same lies below and exclusion sees the same of it, the
same rows are collected. -/

namespace Roster.Collection

open FileTree

/-- The candidate at a row below a folder. -/
def candidateAt (folder : Path) (row : List String) : Candidate :=
  .ofPath (below folder row)

/-- Paths that can all be asked about are picked from. -/
theorem keepEach_of_keeps {scope : Scope} {paths : List Path}
    (hkeeps : ∀ path ∈ paths, ∃ kept, scope.keeps path = .ok kept) :
    keepEach scope paths = .ok ((paths.filter scope.chosen).map Candidate.ofPath) := by
  cases hkeep : keepEach scope paths with
  | ok files => rw [(keepEach_eq_ok hkeep).1]
  | error fault =>
      obtain ⟨path, hpath, hfault⟩ := keepEach_eq_error hkeep
      obtain ⟨kept, hkept⟩ := hkeeps path hpath
      cases hkept.symm.trans hfault

/-- The same entry is found at two paths, and what is asked about the paths below has the same answer. -/
structure SameBelow (tree other : FileTree) (root moved : Path) (entry : Entry) : Prop where
  found : tree.entry? root = .ok (some entry)
  found_moved : other.entry? moved = .ok (some entry)
  listed : ∀ row leaf, entry.at? row = some leaf →
    isTooLong (below (absolute other moved) row) = isTooLong (below (absolute tree root) row)
  regular : ∀ row leaf, entry.at? row = some leaf → leaf.isFolder = false → ∀ present,
    (other.isFile (below (absolute other moved) row) = .ok present ↔
      tree.isFile (below (absolute tree root) row) = .ok present)

variable {tree other : FileTree} {base otherBase root moved : Path} {patterns : List String}
  {entry : Entry}

theorem SameBelow.symm (hsame : SameBelow tree other root moved entry) :
    SameBelow other tree moved root entry where
  found := hsame.found_moved
  found_moved := hsame.found
  listed row leaf hthere := (hsame.listed row leaf hthere).symm
  regular row leaf hthere hleaf present := (hsame.regular row leaf hthere hleaf present).symm

/-- Exclusion sees the same of what lies below two roots. -/
def SameView (scope other : Scope) (folder moved : Path) : Prop :=
  ∀ row, row ≠ [] → ".." ∉ row → other.anchored (below moved row) = scope.anchored (below folder row)

theorem visited_moved (hsame : SameBelow tree other root moved entry) (hproper : entry.Proper)
    (hview : SameView (scopeOf tree base patterns root) (scopeOf other otherBase patterns moved)
      (absolute tree root) (absolute other moved)) {row : List String}
    (hvisited : Visited (scopeOf tree base patterns root) (absolute tree root) entry row) :
    Visited (scopeOf other otherBase patterns moved) (absolute other moved) entry row := by
  obtain ⟨leaf, hthere, hleaf⟩ := hvisited.there
  have hdots := Proper.dots_not_mem hproper hthere
  refine ⟨hvisited.there, hvisited.named, ?_, ?_⟩
  · rintro above rest hrest rfl
    obtain ⟨name, more, rfl⟩ := List.exists_cons_of_ne_nil hrest
    obtain ⟨entries, hfolder⟩ := Entry.folder_of_at?_append hthere
    rw [hsame.listed above _ hfolder]
    exact hvisited.listed above _ hrest rfl
  · rintro above rest habove hrest rfl
    have haboveDots : ".." ∉ above := fun hmem => hdots (List.mem_append_left _ hmem)
    rw [Scope.excludesFolder, hview above habove haboveDots]
    exact hvisited.entered above rest habove hrest rfl

theorem keeps_moved (hsame : SameBelow tree other root moved entry) (hproper : entry.Proper)
    (hview : SameView (scopeOf tree base patterns root) (scopeOf other otherBase patterns moved)
      (absolute tree root) (absolute other moved)) {row : List String}
    (hvisited : Visited (scopeOf tree base patterns root) (absolute tree root) entry row)
    {kept : Bool}
    (hkept : (scopeOf tree base patterns root).keeps (below (absolute tree root) row) = .ok kept) :
    (scopeOf other otherBase patterns moved).keeps (below (absolute other moved) row) = .ok kept := by
  obtain ⟨leaf, hthere, hleaf⟩ := hvisited.there
  obtain ⟨name, hname, -⟩ := hvisited.named
  have hsome : row ≠ [] := by
    rintro rfl
    cases hname
  have hseen := hview row hsome (Proper.dots_not_mem hproper hthere)
  unfold Scope.keeps at hkept ⊢
  rw [hseen]
  cases hfile : tree.isFile (below (absolute tree root) row) with
  | error fault =>
      change (tree.isFile _ >>= _) = _ at hkept
      rw [hfile] at hkept
      cases hkept
  | ok present =>
      have hmoved := (hsame.regular row leaf hthere hleaf present).mpr hfile
      change (tree.isFile _ >>= _) = _ at hkept
      change (other.isFile _ >>= _) = _
      rw [hfile] at hkept
      rw [hmoved]
      exact hkept

/-- Where the same lies below and the same is seen of it, the same rows are collected. -/
theorem collectFrom_moved (hsame : SameBelow tree other root moved entry) (hproper : entry.Proper)
    (hview : SameView (scopeOf tree base patterns root) (scopeOf other otherBase patterns moved)
      (absolute tree root) (absolute other moved)) {files : List Candidate}
    (hcollect : collectFrom tree base patterns root = .ok files) :
    ∃ rows : List (List String), files = rows.map (candidateAt (absolute tree root)) ∧
      collectFrom other otherBase patterns moved =
        .ok (rows.map (candidateAt (absolute other moved))) := by
  obtain ⟨rows, hrows, horder, hvisited⟩ :=
    exists_rows (scopeOf tree base patterns root) hproper (absolute tree root)
  obtain ⟨others, hothers, horderOthers, hvisitedOthers⟩ :=
    exists_rows (scopeOf other otherBase patterns moved) hproper (absolute other moved)
  have hviewBack : SameView (scopeOf other otherBase patterns moved) (scopeOf tree base patterns root)
      (absolute other moved) (absolute tree root) :=
    fun row hsome hdots => (hview row hsome hdots).symm
  obtain rfl : others = rows := by
    refine horderOthers.eq_of_mem_iff horder fun row => ?_
    rw [hvisited, hvisitedOthers]
    exact ⟨visited_moved hsame.symm hproper hviewBack, visited_moved hsame hproper hview⟩
  rw [collectFrom_eq hsame.found, hrows] at hcollect
  obtain ⟨rfl, hkeeps⟩ := keepEach_eq_ok hcollect
  have hkept : ∀ row ∈ others, ∃ kept,
      (scopeOf tree base patterns root).keeps (below (absolute tree root) row) = .ok kept ∧
      (scopeOf other otherBase patterns moved).keeps (below (absolute other moved) row) = .ok kept := by
    intro row hrow
    obtain ⟨kept, hkept⟩ := hkeeps _ (List.mem_map_of_mem hrow)
    exact ⟨kept, hkept, keeps_moved hsame hproper hview ((hvisited row).mp hrow) hkept⟩
  refine ⟨others.filter fun row =>
    (scopeOf tree base patterns root).chosen (below (absolute tree root) row), ?_, ?_⟩
  · rw [List.filter_map, List.map_map]
    rfl
  · rw [collectFrom_eq hsame.found_moved, hothers, keepEach_of_keeps]
    · have hchosen : others.filter ((scopeOf other otherBase patterns moved).chosen ∘
          below (absolute other moved)) = others.filter fun row =>
            (scopeOf tree base patterns root).chosen (below (absolute tree root) row) := by
        refine List.filter_congr fun row hrow => ?_
        obtain ⟨kept, hfirst, hsecond⟩ := hkept row hrow
        rw [Function.comp_apply, Scope.chosen, Scope.chosen, hfirst, hsecond]
      rw [List.filter_map, List.map_map, hchosen]
      rfl
    · intro path hpath
      obtain ⟨row, hrow, rfl⟩ := List.mem_map.mp hpath
      obtain ⟨kept, -, hsecond⟩ := hkept row hrow
      exact ⟨kept, hsecond⟩

end Roster.Collection
