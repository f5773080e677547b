import Mathlib.Data.List.Sort
import Roster.Proofs.Pruning
import Roster.Proofs.SourceOrder
import Roster.Proofs.TreeGrowth

/-! What is collected below a root: exactly the sources there, in order, and whatever the order of listings. Leaving
out excluded folders loses nothing, because the path of a file continues the path of every folder above it. -/

namespace Roster

open FileTree

namespace Path

theorem collapse_eq_append {parts : List String} (hdots : ".." ∉ parts) (done : List String) :
    collapse done parts = done.reverse ++ parts := by
  induction parts generalizing done with
  | nil => rw [collapse, List.append_nil]
  | cons part parts ih =>
      rw [List.mem_cons, not_or] at hdots
      rw [collapse, if_neg (Ne.symm hdots.1), ih hdots.2, List.reverse_cons, List.append_assoc,
        List.singleton_append]

theorem normalParts_eq_parts {path : Path} (habsolute : path.root ≠ .relative)
    (hdots : ".." ∉ path.parts) (directory : Path) : directory.normalParts path = path.parts := by
  have hjoin : directory.join path = path := by
    unfold join
    split
    · contradiction
    · rfl
  rw [normalParts, hjoin, collapse_eq_append hdots]
  rfl

theorem sharedParts_append (front rest : List String) :
    sharedParts front (front ++ rest) = front.length := by
  induction front with
  | nil => simp [sharedParts]
  | cons part front ih => rw [List.cons_append, sharedParts, if_pos rfl, ih, List.length_cons]

theorem relativeParts_append (front rest : List String) :
    relativeParts front (front ++ rest) = rest := by
  rw [relativeParts, sharedParts_append, Nat.sub_self, List.drop_left]
  rfl

/-- A path below an anchor is written as the names from the anchor on. -/
theorem anchored_eq {directory anchor path : Path} (hanchor : anchor.root ≠ .relative)
    (hpath : path.root ≠ .relative) (hdots : ".." ∉ path.parts) {rest : List String}
    (hrest : path.parts = anchor.parts ++ rest) (hsome : rest ≠ []) :
    anchored directory anchor path = "/" ++ "/".intercalate rest := by
  have hanchorDots : ".." ∉ anchor.parts := fun hmem => hdots (hrest ▸ List.mem_append_left _ hmem)
  rw [anchored, normalParts_eq_parts hanchor hanchorDots, normalParts_eq_parts hpath hdots, hrest,
    relativeParts_append]
  split
  · contradiction
  · rfl

end Path

namespace Collection

/-- The absolute path of a root. -/
def absolute (tree : FileTree) (root : Path) : Path :=
  tree.directoryPath.join root

/-- What decides about the files below a root. -/
def scopeOf (tree : FileTree) (base : Path) (patterns : List String) (root : Path) : Scope :=
  ⟨tree, patterns, anchorFor (absolute tree base) (absolute tree root)⟩

theorem absolute_root_ne (tree : FileTree) (root : Path) : (absolute tree root).root ≠ .relative := by
  unfold absolute Path.join
  split
  · exact nofun
  · next hroot => exact hroot

theorem anchorFor_append (base root : Path) : ∃ rest, root.parts = (anchorFor base root).parts ++ rest := by
  unfold anchorFor
  split_ifs with hbelow
  · obtain ⟨-, hprefix⟩ := Bool.and_eq_true_iff.mp hbelow
    obtain ⟨rest, hrest⟩ := List.isPrefixOf_iff_prefix.mp hprefix
    exact ⟨rest, hrest.symm⟩
  · exact ⟨[], (List.append_nil _).symm⟩

theorem anchorFor_root_ne {base root : Path} (hbase : base.root ≠ .relative)
    (hroot : root.root ≠ .relative) : (anchorFor base root).root ≠ .relative := by
  unfold anchorFor
  split_ifs
  · exact hbase
  · exact hroot

variable {tree : FileTree} {base root : Path} {patterns : List String}

/-- What exclusion sees of a row below a root: the names from the anchor to the root, and the row. -/
theorem anchored_below (base : Path) (patterns : List String)
    (hdots : ".." ∉ (absolute tree root).parts) :
    ∃ names, ∀ row, row ≠ [] → ".." ∉ row →
      (scopeOf tree base patterns root).anchored (below (absolute tree root) row) =
        Exclusion.forward ("/" ++ "/".intercalate (names ++ row)) := by
  obtain ⟨names, hnames⟩ := anchorFor_append (absolute tree base) (absolute tree root)
  refine ⟨names, fun row hsome hrow => congrArg Exclusion.forward ?_⟩
  have hbelow : (below (absolute tree root) row).root ≠ .relative := absolute_root_ne tree root
  have hanchor : (scopeOf tree base patterns root).anchor.root ≠ .relative :=
    anchorFor_root_ne (absolute_root_ne tree base) (absolute_root_ne tree root)
  refine Path.anchored_eq hanchor hbelow ?_ ?_ ?_
  · rw [below, List.mem_append, not_or]
    exact ⟨hdots, hrow⟩
  · rw [below, hnames, List.append_assoc]
    rfl
  · simp [hsome]

/-- Below a root, the path that exclusion sees of a row continues that of the rows above it. -/
theorem anchored_below_append (hdots : ".." ∉ (absolute tree root).parts) {above rest : List String}
    (habove : above ≠ []) (hrest : rest ≠ []) (hrow : ".." ∉ above ++ rest) :
    (scopeOf tree base patterns root).anchored (below (absolute tree root) (above ++ rest)) =
      (scopeOf tree base patterns root).anchored (below (absolute tree root) above) ++ "/" ++
        Exclusion.forward ("/".intercalate rest) := by
  obtain ⟨names, hnames⟩ := anchored_below base patterns hdots
  have haboveDots : ".." ∉ above := fun hmem => hrow (List.mem_append_left _ hmem)
  have hslash : Exclusion.forward "/" = "/" := rfl
  rw [hnames _ (by simp [habove]) hrow, hnames _ habove haboveDots, ← List.append_assoc,
    String.intercalate_append_of_ne_nil (by simp [habove]) hrest, ← String.append_assoc,
    ← String.append_assoc, Exclusion.forward_append, Exclusion.forward_append, hslash]

/-- What lies below an excluded folder is excluded. -/
theorem excludes_of_excludesFolder (hdots : ".." ∉ (absolute tree root).parts)
    (hends : ∀ pattern ∈ patterns, Exclusion.EndsInSegment pattern) {above rest : List String}
    (habove : above ≠ []) (hrest : rest ≠ []) (hrow : ".." ∉ above ++ rest)
    (hexcluded : (scopeOf tree base patterns root).excludesFolder
      (below (absolute tree root) above) = true) :
    Exclusion.excludes patterns
      ((scopeOf tree base patterns root).anchored (below (absolute tree root) (above ++ rest))) =
        true := by
  rw [anchored_below_append hdots habove hrest hrow]
  exact Exclusion.excludes_of_excludesDirectory hends hexcluded _

theorem isTooLong_below {folder : Path} (hfolder : folder.root ≠ .relative) {above : List String}
    (hlong : isTooLong (below folder above) = true) (rest : List String) :
    isTooLong (below folder (above ++ rest)) = true := by
  have hsize (parts : List String) : (toString (⟨folder.root, parts⟩ : Path)).utf8ByteSize =
      folder.root.text.utf8ByteSize + ("/".intercalate parts).utf8ByteSize := by
    change (Path.toString ⟨folder.root, parts⟩).utf8ByteSize = _
    unfold Path.toString
    split
    · contradiction
    · exact String.utf8ByteSize_append
  have hgrows (front back : List String) :
      ("/".intercalate front).utf8ByteSize ≤ ("/".intercalate (front ++ back)).utf8ByteSize := by
    by_cases hfront : front = []
    · subst hfront
      exact Nat.zero_le _
    · by_cases hback : back = []
      · simp [hback]
      · rw [String.intercalate_append_of_ne_nil hfront hback, String.utf8ByteSize_append,
          String.utf8ByteSize_append]
        omega
  have hmore := hgrows (folder.parts ++ above) rest
  simp only [isTooLong, below, hsize, decide_eq_true_eq] at hlong ⊢
  rw [← List.append_assoc]
  omega

theorem isTooLong_of_locate {path : Path} {place : Place}
    (hlocate : tree.locate true path = .ok place) : isTooLong path = false := by
  simpa [isTooLong] using (locate_eq_ok_iff.mp hlocate).1.short

/-- The walk below a folder comes by a row: folders lead there, none of them too long to be listed or excluded, and
what is there is no folder and is named like a source. -/
structure Visited (scope : Scope) (folder : Path) (entry : Entry) (row : List String) : Prop where
  there : ∃ leaf, entry.at? row = some leaf ∧ leaf.isFolder = false
  named : ∃ name, row.getLast? = some name ∧ isSourceName name = true
  listed : ∀ above rest, rest ≠ [] → row = above ++ rest → isTooLong (below folder above) = false
  entered : ∀ above rest, above ≠ [] → rest ≠ [] → row = above ++ rest →
    scope.excludesFolder (below folder above) = false

/-- A source below a folder: it is named like one and is no folder, its path leads to a file, links followed, and is
not excluded. -/
structure IsSource (scope : Scope) (folder : Path) (entry : Entry) (row : List String) : Prop where
  there : ∃ leaf, entry.at? row = some leaf ∧ leaf.isFolder = false
  named : ∃ name, row.getLast? = some name ∧ isSourceName name = true
  regular : ∃ location content, scope.tree.locate true (below folder row) =
    .ok (.entry location (.file content))
  kept : Exclusion.excludes scope.patterns (scope.anchored (below folder row)) = false

theorem below_nil (folder : Path) : below folder [] = folder := by
  rw [below, List.append_nil]

theorem visited_of_asked {scope : Scope} {folder : Path} {entry : Entry} {row : List String}
    (hproper : entry.Proper) (hasked : Asked scope folder entry row) :
    Visited scope folder entry row := by
  induction hasked with
  | @own folder entries name leaf hlisted hmem hname hleaf =>
      have hchild := Entry.child?_of_mem hproper.nodup hmem
      refine ⟨⟨leaf, ?_, hleaf⟩, ⟨name, rfl, hname⟩, ?_, ?_⟩
      · rw [Entry.at?, hchild]
        rfl
      · intro above rest hrest hrow
        obtain ⟨rfl, -⟩ | ⟨-, rfl⟩ := List.singleton_eq_append_iff.mp hrow
        · rwa [below_nil]
        · contradiction
      · intro above rest habove hrest hrow
        obtain ⟨rfl, -⟩ | ⟨-, rfl⟩ := List.singleton_eq_append_iff.mp hrow
        · contradiction
        · contradiction
  | @inside folder entries name inner row hlisted hmem hentered hrow ih =>
      have hchild := Entry.child?_of_mem hproper.nodup hmem
      have hinner := ih (hproper.child hchild)
      obtain ⟨leaf, hthere, hleaf⟩ := hinner.there
      obtain ⟨last, hlast, hname⟩ := hinner.named
      refine ⟨⟨leaf, ?_, hleaf⟩, ⟨last, ?_, hname⟩, ?_, ?_⟩
      · rw [Entry.at?, hchild, Option.bind_some, hthere]
      · rw [List.getLast?_cons, hlast]
        rfl
      · intro above rest hrest hsplit
        rcases List.cons_eq_append_iff.mp hsplit with ⟨rfl, -⟩ | ⟨front, rfl, hfront⟩
        · rwa [below_nil]
        · rw [← below_inside]
          exact hinner.listed front rest hrest hfront
      · intro above rest habove hrest hsplit
        rcases List.cons_eq_append_iff.mp hsplit with ⟨rfl, -⟩ | ⟨front, rfl, hfront⟩
        · contradiction
        · by_cases hnil : front = []
          · subst hnil
            exact hentered
          · rw [← below_inside]
            exact hinner.entered front rest hnil hrest hfront

theorem asked_of_visited {scope : Scope} {folder : Path} {entry : Entry} {row : List String}
    (hvisited : Visited scope folder entry row) : Asked scope folder entry row := by
  induction row generalizing folder entry with
  | nil =>
      obtain ⟨name, hname, -⟩ := hvisited.named
      cases hname
  | cons name row ih =>
      obtain ⟨leaf, hthere, hleaf⟩ := hvisited.there
      obtain ⟨last, hlast, hname⟩ := hvisited.named
      obtain ⟨inner, hchild, hinner⟩ := Option.bind_eq_some_iff.mp hthere
      obtain ⟨entries, rfl⟩ := Entry.folder_of_child? hchild
      have hmem := Entry.mem_of_child? hchild
      have hlisted : isTooLong folder = false := by
        have hfirst := hvisited.listed [] (name :: row) (List.cons_ne_nil _ _) rfl
        rwa [below_nil] at hfirst
      cases row with
      | nil =>
          cases hinner
          cases hlast
          exact .own hlisted hmem hname hleaf
      | cons next rest =>
          refine .inside hlisted hmem
            (hvisited.entered [name] (next :: rest) (by simp) (by simp) rfl) (ih ?_)
          refine ⟨⟨leaf, hinner, hleaf⟩, ⟨last, by rwa [List.getLast?_cons_cons] at hlast, hname⟩, ?_, ?_⟩
          · intro above more hmore hsplit
            rw [below_inside]
            exact hvisited.listed (name :: above) more hmore (by rw [hsplit]; rfl)
          · intro above more habove hmore hsplit
            rw [below_inside]
            exact hvisited.entered (name :: above) more (by simp) hmore (by rw [hsplit]; rfl)

theorem Proper.dots_not_mem {entry leaf : Entry} (hproper : entry.Proper) {row : List String}
    (hthere : entry.at? row = some leaf) : ".." ∉ row := by
  induction row generalizing entry with
  | nil => exact List.not_mem_nil
  | cons name row ih =>
      obtain ⟨inner, hchild, hinner⟩ := Option.bind_eq_some_iff.mp hthere
      obtain ⟨entries, rfl⟩ := Entry.folder_of_child? hchild
      rw [List.mem_cons, not_or]
      refine ⟨?_, ih (hproper.child hchild) hinner⟩
      rintro rfl
      exact (hproper [] entries rfl).2 (List.mem_map_of_mem (Entry.mem_of_child? hchild))

theorem keeps_eq_ok_true_iff {scope : Scope} {path : Path} :
    scope.keeps path = .ok true ↔
      (∃ location content, scope.tree.locate true path = .ok (.entry location (.file content))) ∧
        Exclusion.excludes scope.patterns (scope.anchored path) = false := by
  rw [← isFile_eq_ok_true_iff]
  unfold Scope.keeps
  cases scope.tree.isFile path with
  | error fault => exact ⟨nofun, nofun⟩
  | ok present =>
      change Except.ok (present && _) = _ ↔ _
      simp

/-- The sources below a root are the rows that are visited and kept. -/
theorem isSource_iff {entry : Entry} (hproper : entry.Proper)
    (hdots : ".." ∉ (absolute tree root).parts)
    (hends : ∀ pattern ∈ patterns, Exclusion.EndsInSegment pattern) {row : List String} :
    IsSource (scopeOf tree base patterns root) (absolute tree root) entry row ↔
      Visited (scopeOf tree base patterns root) (absolute tree root) entry row ∧
        (scopeOf tree base patterns root).keeps (below (absolute tree root) row) = .ok true := by
  rw [keeps_eq_ok_true_iff]
  constructor
  · intro hsource
    obtain ⟨leaf, hthere, hleaf⟩ := hsource.there
    have hrow := Proper.dots_not_mem hproper hthere
    -- were a folder above too long or excluded, so were the path of the source
    refine ⟨⟨hsource.there, hsource.named, ?_, ?_⟩, hsource.regular, hsource.kept⟩
    · rintro above rest - rfl
      rw [← Bool.not_eq_true]
      intro hlong
      have hwhole := isTooLong_below (absolute_root_ne tree root) hlong rest
      obtain ⟨location, content, hlocate⟩ := hsource.regular
      rw [isTooLong_of_locate hlocate] at hwhole
      cases hwhole
    · rintro above rest habove hrest rfl
      rw [← Bool.not_eq_true]
      intro hexcluded
      have hwhole := excludes_of_excludesFolder hdots hends habove hrest hrow hexcluded
      exact absurd (hsource.kept.symm.trans hwhole) Bool.false_ne_true
  · rintro ⟨hvisited, hregular, hkept⟩
    exact ⟨hvisited.there, hvisited.named, hregular, hkept⟩

/-- What a fault of asking about a path is, and that nothing else is one. -/
theorem keeps_eq_error_iff {scope : Scope} {path : Path} {fault : FileTree.Fault} :
    scope.keeps path = .error fault ↔ scope.tree.isFile path = .error fault := by
  unfold Scope.keeps
  cases scope.tree.isFile path with
  | error other => exact Iff.rfl
  | ok present => exact ⟨nofun, nofun⟩

def Scope.chosen (scope : Scope) (path : Path) : Bool :=
  (scope.keeps path).toOption = some true

theorem Scope.chosen_iff {scope : Scope} {path : Path} :
    scope.chosen path = true ↔ scope.keeps path = .ok true := by
  unfold Scope.chosen
  cases scope.keeps path with
  | error fault => simp [Except.toOption]
  | ok kept => simp [Except.toOption]

theorem keepEach_eq_ok {scope : Scope} {paths : List Path} {files : List Candidate}
    (hkeep : keepEach scope paths = .ok files) :
    files = (paths.filter scope.chosen).map Candidate.ofPath ∧
      ∀ path ∈ paths, ∃ kept, scope.keeps path = .ok kept := by
  induction paths generalizing files with
  | nil =>
      cases hkeep
      exact ⟨rfl, by simp⟩
  | cons path paths ih =>
      rw [keepEach] at hkeep
      cases hkept : scope.keeps path with
      | error fault =>
          rw [hkept] at hkeep
          cases hkeep
      | ok kept =>
          rw [hkept] at hkeep
          cases hrest : keepEach scope paths with
          | error fault =>
              rw [hrest] at hkeep
              cases hkeep
          | ok rest =>
              rw [hrest] at hkeep
              cases hkeep
              obtain ⟨rfl, hall⟩ := ih hrest
              refine ⟨?_, ?_⟩
              · rw [List.filter_cons, Scope.chosen, hkept]
                cases kept with
                | true => rfl
                | false => rfl
              · intro other hother
                rcases List.mem_cons.mp hother with rfl | hother
                · exact ⟨kept, hkept⟩
                · exact hall other hother

theorem keepEach_eq_error {scope : Scope} {paths : List Path} {fault : FileTree.Fault}
    (hkeep : keepEach scope paths = .error fault) :
    ∃ path ∈ paths, scope.keeps path = .error fault := by
  induction paths with
  | nil => cases hkeep
  | cons path paths ih =>
      rw [keepEach] at hkeep
      cases hkept : scope.keeps path with
      | error other =>
          rw [hkept] at hkeep
          cases hkeep
          exact ⟨path, List.mem_cons_self, hkept⟩
      | ok kept =>
          rw [hkept] at hkeep
          cases hrest : keepEach scope paths with
          | error other =>
              rw [hrest] at hkeep
              cases hkeep
              obtain ⟨found, hmem, hfault⟩ := ih hrest
              exact ⟨found, List.mem_cons_of_mem _ hmem, hfault⟩
          | ok rest =>
              rw [hrest] at hkeep
              cases hkeep

theorem keepEach_congr {scope other : Scope} {paths : List Path}
    (hsame : ∀ path, other.keeps path = scope.keeps path) :
    keepEach other paths = keepEach scope paths := by
  induction paths with
  | nil => rfl
  | cons path paths ih => rw [keepEach, keepEach, hsame, ih]

/-- The row that leads to a path below a folder. -/
def rowOf (folder path : Path) : List String :=
  path.parts.drop folder.parts.length

theorem rowOf_below (folder : Path) (row : List String) : rowOf folder (below folder row) = row :=
  List.drop_left

/-- What is asked about, as rows. -/
theorem exists_rows (scope : Scope) {entry : Entry} (hproper : entry.Proper) (folder : Path) :
    ∃ rows : List (List String), sourcesBelow scope folder entry = rows.map (below folder) ∧
      rows.Pairwise Before ∧ ∀ row, row ∈ rows ↔ Visited scope folder entry row := by
  refine ⟨(sourcesBelow scope folder entry).map (rowOf folder), ?_, ?_, ?_⟩
  · have hform : ∀ path ∈ sourcesBelow scope folder entry, below folder (rowOf folder path) = path := by
      intro path hpath
      obtain ⟨row, -, rfl⟩ := mem_sourcesBelow.mp hpath
      rw [rowOf_below]
    rw [List.map_map]
    exact ((List.map_congr_left hform).trans (List.map_id' _)).symm
  · rw [List.pairwise_map]
    refine (pairwise_sourcesBelow hproper).imp ?_
    rintro _ _ ⟨row, other, rfl, rfl, hbefore⟩
    rwa [rowOf_below, rowOf_below]
  · intro row
    rw [List.mem_map]
    constructor
    · rintro ⟨path, hpath, rfl⟩
      obtain ⟨row, hasked, rfl⟩ := mem_sourcesBelow.mp hpath
      rw [rowOf_below]
      exact visited_of_asked hproper hasked
    · intro hvisited
      exact ⟨_, mem_sourcesBelow.mpr ⟨row, asked_of_visited hvisited, rfl⟩, rowOf_below ..⟩

theorem collectFrom_eq {entry : Entry} (hroot : tree.entry? root = .ok (some entry)) :
    collectFrom tree base patterns root =
      keepEach (scopeOf tree base patterns root)
        (sourcesBelow (scopeOf tree base patterns root) (absolute tree root) entry) := by
  rw [collectFrom, hroot]
  cases entry with
  | folder entries => rfl
  | file content =>
      simp only [sourcesBelow, keepEach]
      rfl
  | link target =>
      simp only [sourcesBelow, keepEach]
      rfl

theorem Visited.relisted {scope other : Scope} {folder : Path} {entry second : Entry}
    {row : List String} (hvisited : Visited scope folder entry row)
    (hsame : Entry.Relisted entry second)
    (hscope : ∀ path, other.excludesFolder path = scope.excludesFolder path) :
    Visited other folder second row := by
  obtain ⟨leaf, hthere, hleaf⟩ := hvisited.there
  refine ⟨⟨leaf, hsame.leaf hleaf hthere, hleaf⟩, hvisited.named, hvisited.listed, ?_⟩
  intro above rest habove hrest hrow
  rw [hscope]
  exact hvisited.entered above rest habove hrest hrow

theorem sourcesBelow_relisted {scope other : Scope} {folder : Path} {entry second : Entry}
    (hproper : entry.Proper) (hsecond : second.Proper) (hsame : Entry.Relisted entry second)
    (hscope : ∀ path, other.excludesFolder path = scope.excludesFolder path) :
    sourcesBelow other folder second = sourcesBelow scope folder entry := by
  obtain ⟨rows, hrows, horder, hvisited⟩ := exists_rows scope hproper folder
  obtain ⟨others, hothers, horderOthers, hvisitedOthers⟩ := exists_rows other hsecond folder
  -- two rows of names in one order are equal once they have the same members
  have hmem : ∀ row, row ∈ others ↔ row ∈ rows := by
    intro row
    rw [hvisited, hvisitedOthers]
    constructor
    · exact fun h => h.relisted hsame.symm fun path => (hscope path).symm
    · exact fun h => h.relisted hsame hscope
  rw [hrows, hothers, horderOthers.eq_of_mem_iff horder hmem]

/-- What is found at a root is found there in the other tree, but for the order of listings. -/
theorem entry?_some_relisted {other : FileTree} {location : List String} {entry : Entry}
    (hlocate : tree.locate true root = .ok (.entry location entry))
    (hdirectory : other.directory = tree.directory)
    (hsame : Entry.Relisted tree.root other.root) :
    ∃ second, other.root.at? location = some second ∧ other.entry? root = .ok (some second) ∧
      Entry.Relisted entry second := by
  obtain ⟨second, hsecond, hinner⟩ := hsame.at? (at?_of_locate hlocate)
  refine ⟨second, hsecond, ?_, hinner⟩
  have hsamePlace := locate_relisted hdirectory hsame true root
  rw [hlocate] at hsamePlace
  cases hfound : other.locate true root with
  | error fault =>
      rw [hfound] at hsamePlace
      cases hsamePlace
  | ok place =>
      rw [hfound] at hsamePlace
      cases place with
      | free found name => cases hsamePlace
      | entry found _ =>
          injection hsamePlace with hplace
          injection hplace with hlocation hbare
          subst hlocation
          obtain rfl := Option.some.inj (hsecond.symm.trans (at?_of_locate hfound))
          exact entry?_of_locate hfound

/-- A listing in another order is collected all the same. -/
theorem collectFrom_relisted {other : FileTree} {entry : Entry}
    (hroot : tree.entry? root = .ok (some entry)) (hproper : tree.root.Proper)
    (hother : other.root.Proper) (hdirectory : other.directory = tree.directory)
    (hsame : Entry.Relisted tree.root other.root) :
    collectFrom other base patterns root = collectFrom tree base patterns root := by
  obtain ⟨location, hlocate⟩ := locate_of_entry? hroot
  obtain ⟨second, hsecond, hfound, hinner⟩ := entry?_some_relisted hlocate hdirectory hsame
  have hpath : other.directoryPath = tree.directoryPath := by
    rw [directoryPath, directoryPath, hdirectory]
  have habsolute (path : Path) : absolute other path = absolute tree path := by
    rw [absolute, absolute, hpath]
  have hanchored (path : Path) : (scopeOf other base patterns root).anchored path =
      (scopeOf tree base patterns root).anchored path := by
    simp only [Scope.anchored, scopeOf, hpath, habsolute]
  rw [collectFrom_eq hroot, collectFrom_eq hfound, habsolute,
    sourcesBelow_relisted (hproper.at? (at?_of_locate hlocate)) (hother.at? hsecond) hinner ?_]
  · refine keepEach_congr fun path => ?_
    rw [Scope.keeps, Scope.keeps, hanchored]
    exact congrArg (· >>= _) (isFile_relisted hdirectory hsame path)
  · intro path
    rw [Scope.excludesFolder, Scope.excludesFolder, hanchored]
    rfl

section Outcome

variable {entry : Entry} (hroot : tree.entry? root = .ok (some entry))

include hroot

theorem rows_of_collectFrom (hproper : tree.root.Proper) (hdots : ".." ∉ (absolute tree root).parts)
    (hends : ∀ pattern ∈ patterns, Exclusion.EndsInSegment pattern) {files : List Candidate}
    (hcollect : collectFrom tree base patterns root = .ok files) :
    ∃ rows : List (List String),
      files = rows.map (fun row => Candidate.ofPath (below (absolute tree root) row)) ∧
      rows.Pairwise Before ∧
      ∀ row, row ∈ rows ↔
        IsSource (scopeOf tree base patterns root) (absolute tree root) entry row := by
  obtain ⟨location, hlocate⟩ := locate_of_entry? hroot
  have hentry := hproper.at? (at?_of_locate hlocate)
  obtain ⟨rows, hrows, horder, hvisited⟩ :=
    exists_rows (scopeOf tree base patterns root) hentry (absolute tree root)
  rw [collectFrom_eq hroot, hrows] at hcollect
  obtain ⟨hfiles, -⟩ := keepEach_eq_ok hcollect
  -- what is kept is picked from what is asked about, so it stays in order
  refine ⟨rows.filter fun row =>
    (scopeOf tree base patterns root).chosen (below (absolute tree root) row), ?_, horder.filter _, ?_⟩
  · rw [hfiles, List.filter_map, List.map_map]
    rfl
  · intro row
    rw [List.mem_filter, hvisited, isSource_iff hentry hdots hends, Scope.chosen_iff]

theorem answered_of_collectFrom {files : List Candidate}
    (hcollect : collectFrom tree base patterns root = .ok files) {row : List String}
    (hrow : Visited (scopeOf tree base patterns root) (absolute tree root) entry row) :
    ∃ present, tree.isFile (below (absolute tree root) row) = .ok present := by
  have hasked := mem_sourcesBelow.mpr ⟨row, asked_of_visited hrow, rfl⟩
  rw [collectFrom_eq hroot] at hcollect
  obtain ⟨kept, hkept⟩ := (keepEach_eq_ok hcollect).2 _ hasked
  cases hfile : tree.isFile (below (absolute tree root) row) with
  | ok present => exact ⟨present, rfl⟩
  | error fault => cases hkept.symm.trans (keeps_eq_error_iff.mpr hfile)

theorem fault_of_collectFrom (hproper : tree.root.Proper) {fault : FileTree.Fault}
    (hcollect : collectFrom tree base patterns root = .error fault) :
    ∃ row, Visited (scopeOf tree base patterns root) (absolute tree root) entry row ∧
      tree.isFile (below (absolute tree root) row) = .error fault := by
  obtain ⟨location, hlocate⟩ := locate_of_entry? hroot
  have hentry := hproper.at? (at?_of_locate hlocate)
  rw [collectFrom_eq hroot] at hcollect
  obtain ⟨path, hpath, hkeeps⟩ := keepEach_eq_error hcollect
  obtain ⟨row, hasked, rfl⟩ := mem_sourcesBelow.mp hpath
  exact ⟨row, visited_of_asked hentry hasked, keeps_eq_error_iff.mp hkeeps⟩

end Outcome

/-- The files collected below a root are exactly the sources there, each once and in order. Collecting fails only
where a name is too long to be asked about, and a listing in another order is collected all the same. -/
theorem collectFrom_exact (base : Path) {entry : Entry} (hroot : tree.entry? root = .ok (some entry))
    (hproper : tree.root.Proper) (hdots : ".." ∉ (absolute tree root).parts)
    (hends : ∀ pattern ∈ patterns, Exclusion.EndsInSegment pattern) :
    (∀ files, collectFrom tree base patterns root = .ok files →
      ∃ rows : List (List String),
        files = rows.map (fun row => Candidate.ofPath (below (absolute tree root) row)) ∧
        rows.Pairwise Before ∧
        ∀ row, row ∈ rows ↔
          IsSource (scopeOf tree base patterns root) (absolute tree root) entry row) ∧
    ((∃ files, collectFrom tree base patterns root = .ok files) ↔
      ∀ row, Visited (scopeOf tree base patterns root) (absolute tree root) entry row →
        ∃ present, tree.isFile (below (absolute tree root) row) = .ok present) ∧
    (∀ fault, collectFrom tree base patterns root = .error fault →
      ∃ row, Visited (scopeOf tree base patterns root) (absolute tree root) entry row ∧
        tree.isFile (below (absolute tree root) row) = .error fault ∧
        fault = .system .nameTooLong (toString (below (absolute tree root) row))) ∧
    ∀ other : FileTree, other.root.Proper → other.directory = tree.directory →
      Entry.Relisted tree.root other.root →
      collectFrom other base patterns root = collectFrom tree base patterns root := by
  refine ⟨?_, ⟨?_, ?_⟩, ?_, ?_⟩
  · exact fun files hcollect => rows_of_collectFrom hroot hproper hdots hends hcollect
  · rintro ⟨files, hcollect⟩ row hrow
    exact answered_of_collectFrom hroot hcollect hrow
  · intro hanswered
    cases hcollect : collectFrom tree base patterns root with
    | ok files => exact ⟨files, rfl⟩
    | error fault =>
        obtain ⟨row, hrow, hfile⟩ := fault_of_collectFrom hroot hproper hcollect
        obtain ⟨present, hpresent⟩ := hanswered row hrow
        cases hpresent.symm.trans hfile
  · intro fault hcollect
    obtain ⟨row, hrow, hfile⟩ := fault_of_collectFrom hroot hproper hcollect
    exact ⟨row, hrow, hfile, isFile_eq_error hfile⟩
  · intro other hother hdirectory hsame
    exact collectFrom_relisted hroot hproper hother hdirectory hsame

def linkedSource : FileTree where
  root := .folder [
    ("B.php", .file .empty),
    ("Z.php", .link "sub/K.php"),
    ("sub", .folder [("K.php", .file .empty)]),
    ("tests", .folder [("T.php", .file .empty)])]

theorem proper_linkedSource : linkedSource.root.Proper := by
  have hleaf : (Entry.file .empty).Proper := .leaf rfl
  have hlink : (Entry.link "sub/K.php").Proper := .leaf rfl
  have hsub : (Entry.folder [("K.php", .file .empty)]).Proper :=
    .folder (by decide) (by decide) (by simp [hleaf])
  have htests : (Entry.folder [("T.php", .file .empty)]).Proper :=
    .folder (by decide) (by decide) (by simp [hleaf])
  exact .folder (by decide) (by decide) (by simp [hleaf, hlink, hsub, htests])

theorem sourcesBelow_linkedSource {scope : Scope}
    (hsub : scope.excludesFolder ⟨.slash, ["sub"]⟩ = false)
    (htests : scope.excludesFolder ⟨.slash, ["tests"]⟩ = true) :
    sourcesBelow scope ⟨.slash, []⟩ linkedSource.root =
      [⟨.slash, ["B.php"]⟩, ⟨.slash, ["Z.php"]⟩, ⟨.slash, ["sub", "K.php"]⟩] := by
  have hlisted : isTooLong ⟨.slash, []⟩ = false := by decide
  have hinner : isTooLong ⟨.slash, ["sub"]⟩ = false := by decide
  have hnames : ["B.php", "Z.php", "K.php"].map isSourceName = [true, true, true] := by decide
  have hothers : ["sub", "tests"].map isSourceName = [false, false] := by decide
  simp only [List.map_cons, List.cons.injEq] at hnames hothers
  rw [linkedSource, sourcesBelow_folder hlisted, ownSources, byName, List.mergeSort_of_pairwise (by decide)]
  simp [sourcesBelow, sourcesBelowEach, ownSources, byName, inside, Entry.isFolder, hsub, htests,
    hinner, hnames, hothers]

theorem entry?_linkedSource : linkedSource.entry? ⟨.slash, []⟩ = .ok (some linkedSource.root) :=
  entry?_of_locate (locate_eq_ok_iff.mpr ⟨by decide, .done rfl⟩)

theorem collectFrom_linkedSource :
    collectFrom linkedSource ⟨.slash, []⟩ Exclusion.builtIn ⟨.slash, []⟩ =
      .ok ([["B.php"], ["Z.php"], ["sub", "K.php"]].map fun row =>
        Candidate.ofPath (below ⟨.slash, []⟩ row)) := by
  have hplain : Ordinary "B.php" := by decide
  have hlink : Ordinary "Z.php" := by decide
  have hsub : Ordinary "sub" := by decide
  have hinner : Ordinary "K.php" := by decide
  have htarget (links : Nat) : Leads linkedSource.root true links [] ["sub", "K.php"]
      (.entry ["sub", "K.php"] (.file .empty)) :=
    .enter hsub rfl nofun (.enter hinner rfl nofun (.done rfl))
  have hfirst : (scopeOf linkedSource ⟨.slash, []⟩ Exclusion.builtIn ⟨.slash, []⟩).keeps
      ⟨.slash, ["B.php"]⟩ = .ok true :=
    keeps_eq_ok_true_iff.mpr ⟨⟨_, _, locate_eq_ok_iff.mpr
      ⟨by decide, .enter hplain rfl nofun (.done rfl)⟩⟩, by decide +kernel⟩
  have hsecond : (scopeOf linkedSource ⟨.slash, []⟩ Exclusion.builtIn ⟨.slash, []⟩).keeps
      ⟨.slash, ["Z.php"]⟩ = .ok true :=
    keeps_eq_ok_true_iff.mpr ⟨⟨_, _, locate_eq_ok_iff.mpr
      ⟨by decide, .follow hlink (by simp) rfl (htarget _)⟩⟩, by decide +kernel⟩
  have hthird : (scopeOf linkedSource ⟨.slash, []⟩ Exclusion.builtIn ⟨.slash, []⟩).keeps
      ⟨.slash, ["sub", "K.php"]⟩ = .ok true :=
    keeps_eq_ok_true_iff.mpr ⟨⟨_, _, locate_eq_ok_iff.mpr
      ⟨by decide, htarget _⟩⟩, by decide +kernel⟩
  rw [collectFrom_eq entry?_linkedSource]
  change keepEach _ (sourcesBelow _ ⟨.slash, []⟩ linkedSource.root) = _
  rw [sourcesBelow_linkedSource (by decide +kernel) (by decide +kernel)]
  simp only [keepEach, hfirst, hsecond, hthird]
  rfl

theorem collectFrom_exact_linkedSource :
    linkedSource.root.Proper ∧
    (∀ pattern ∈ Exclusion.builtIn, Exclusion.EndsInSegment pattern) ∧
    (∀ row, row ∈ [["B.php"], ["Z.php"], ["sub", "K.php"]] ↔
      IsSource (scopeOf linkedSource ⟨.slash, []⟩ Exclusion.builtIn ⟨.slash, []⟩) ⟨.slash, []⟩
        linkedSource.root row) ∧
    collectFrom { root := .folder linkedSource.root.entries.reverse } ⟨.slash, []⟩
        Exclusion.builtIn ⟨.slash, []⟩ =
      .ok ([["B.php"], ["Z.php"], ["sub", "K.php"]].map fun row =>
        Candidate.ofPath (below ⟨.slash, []⟩ row)) := by
  have hends : ∀ pattern ∈ Exclusion.builtIn, Exclusion.EndsInSegment pattern := by decide +kernel
  have hproper := proper_linkedSource
  obtain ⟨hfiles, -, -, hlisting⟩ :=
    collectFrom_exact ⟨.slash, []⟩ entry?_linkedSource hproper (by decide) hends
  refine ⟨hproper, hends, ?_, ?_⟩
  · obtain ⟨rows, hrows, -, hsource⟩ := hfiles _ collectFrom_linkedSource
    have hinjective : Function.Injective fun row =>
        Candidate.ofPath (below (absolute linkedSource ⟨.slash, []⟩) row) :=
      fun row other hsame => below_inj (congrArg Candidate.path hsame)
    obtain rfl := List.map_injective_iff.mpr hinjective hrows
    exact hsource
  · have hperm : linkedSource.root.entries.Perm linkedSource.root.entries.reverse :=
      (List.reverse_perm _).symm
    have hsame : Entry.Relisted linkedSource.root (.folder linkedSource.root.entries.reverse) :=
      .of_perm hproper.nodup hperm
    rw [hlisting { root := .folder linkedSource.root.entries.reverse } (hproper.perm hperm) rfl hsame,
      collectFrom_linkedSource]

/-- A source, and a link that is named like one. -/
def sourceBesideLink (target : String) : FileTree where
  root := .folder [("app", .folder [("A.php", .file .empty), ("Z.php", .link target)])]

theorem proper_sourceBesideLink (target : String) : (sourceBesideLink target).root.Proper := by
  have hplain : (Entry.file .empty).Proper := .leaf rfl
  have hlink : (Entry.link target).Proper := .leaf rfl
  have happ : (Entry.folder [("A.php", .file .empty), ("Z.php", .link target)]).Proper :=
    .folder (by simp) (by simp) (by simp [hplain, hlink])
  exact .folder (by simp) (by simp) (by simp [happ])

theorem entry?_app (target : String) : FileTree.entry? (sourceBesideLink target) ⟨.slash, ["app"]⟩ =
    .ok (some (.folder [("A.php", .file .empty), ("Z.php", .link target)])) := by
  have happ : Ordinary "app" := by decide
  exact entry?_of_locate
    (locate_eq_ok_iff.mpr ⟨by decide, .enter happ rfl nofun (.done rfl)⟩)

theorem locate_source (target : String) :
    (sourceBesideLink target).locate true ⟨.slash, ["app", "A.php"]⟩ =
      .ok (.entry ["app", "A.php"] (.file .empty)) := by
  have happ : Ordinary "app" := by decide
  have hplain : Ordinary "A.php" := by decide
  exact locate_eq_ok_iff.mpr
    ⟨by decide, .enter happ rfl nofun (.enter hplain rfl nofun (.done rfl))⟩

section SourceBesideLink

variable {target : String} (hslash : '/' ∉ target.toList) (hlong : longestName < target.utf8ByteSize)

include hslash hlong

theorem isFile_overlong_link : (sourceBesideLink target).isFile ⟨.slash, ["app", "Z.php"]⟩ =
    .error (.system .nameTooLong "/app/Z.php") := by
  have happ : Ordinary "app" := by decide
  have hlink : Ordinary "Z.php" := by decide
  have hfolder : (sourceBesideLink target).root.at? ["app"] =
      some (.folder [("A.php", .file .empty), ("Z.php", .link target)]) := rfl
  have hrelative : isAbsoluteTarget target = false := by
    simpa [isAbsoluteTarget] using fun hhead => hslash (List.mem_of_head? hhead)
  have htarget : targetParts target = [target] := by
    have hsome : target ≠ "" := by
      rintro rfl
      exact absurd hlong (by decide)
    have hlast : target.toList.getLast? ≠ some '/' := fun h => hslash (List.mem_of_getLast? h)
    simp [targetParts, Text.splitAt_of_not_mem hslash, hsome, hlast]
  have hwalk : walk (sourceBesideLink target).root true linkLimit [] ["app", "Z.php"] =
      .error .nameTooLong := by
    refine (walk_enter happ hfolder (by exact nofun) _).trans ((walk_follow hlink (by simp) rfl).trans ?_)
    rw [hrelative, htarget]
    exact walk_overlong hfolder hlong _
  have hlocate : (sourceBesideLink target).locate true ⟨.slash, ["app", "Z.php"]⟩ =
      .error (.system .nameTooLong "/app/Z.php") := by
    rw [locate_of_admissible (by decide)]
    exact congrArg (Except.mapError _) hwalk
  rw [isFile, entry?, hlocate]
  rfl

theorem collectFrom_overlong_link (base : Path) (patterns : List String) :
    collectFrom (sourceBesideLink target) base patterns ⟨.slash, ["app"]⟩ =
      .error (.system .nameTooLong "/app/Z.php") := by
  have hlisted : isTooLong ⟨.slash, ["app"]⟩ = false := by decide
  have hnames : ["A.php", "Z.php"].map isSourceName = [true, true] := by decide
  simp only [List.map_cons, List.cons.injEq] at hnames
  have hbelow : sourcesBelow (scopeOf (sourceBesideLink target) base patterns ⟨.slash, ["app"]⟩)
      ⟨.slash, ["app"]⟩ (.folder [("A.php", .file .empty), ("Z.php", .link target)]) =
        [⟨.slash, ["app", "A.php"]⟩, ⟨.slash, ["app", "Z.php"]⟩] := by
    have horder : [("A.php", Entry.file .empty), ("Z.php", .link target)].Pairwise
        fun first second => (!decide (second.1 < first.1)) = true := by
      rw [List.pairwise_pair]
      change (!decide ("Z.php" < "A.php")) = true
      decide
    rw [sourcesBelow_folder hlisted, ownSources, byName, List.mergeSort_of_pairwise horder]
    simp [sourcesBelowEach, byName, inside, Entry.isFolder, hnames]
  have hplain : (sourceBesideLink target).isFile ⟨.slash, ["app", "A.php"]⟩ = .ok true :=
    isFile_eq_ok_true_iff.mpr ⟨_, _, locate_source target⟩
  have hlink : (scopeOf (sourceBesideLink target) base patterns ⟨.slash, ["app"]⟩).keeps
      ⟨.slash, ["app", "Z.php"]⟩ = .error (.system .nameTooLong "/app/Z.php") :=
    keeps_eq_error_iff.mpr (isFile_overlong_link hslash hlong)
  rw [collectFrom_eq (entry?_app target)]
  change keepEach _ (sourcesBelow _ ⟨.slash, ["app"]⟩ _) = _
  rw [hbelow, keepEach, keepEach, hlink, Scope.keeps]
  change ((sourceBesideLink target).isFile _ >>= _) >>= _ = _
  rw [hplain]
  rfl

end SourceBesideLink

/-- A link to a name that is too long is no file, and still no source beside it is collected. -/
theorem no_source_beside_overlong_link :
    let tree := sourceBesideLink (String.ofList (List.replicate 300 'a'))
    let root : Path := ⟨.slash, ["app"]⟩
    ∃ entry, tree.entry? root = .ok (some entry) ∧ tree.root.Proper ∧
      IsSource (scopeOf tree ⟨.slash, []⟩ Exclusion.builtIn root) root entry ["A.php"] ∧
      collectFrom tree ⟨.slash, []⟩ Exclusion.builtIn root =
        .error (.system .nameTooLong "/app/Z.php") := by
  intro tree root
  have hslash : '/' ∉ (String.ofList (List.replicate 300 'a')).toList := by
    rw [String.toList_ofList]
    exact fun hmem => absurd (List.eq_of_mem_replicate hmem) (by decide)
  have hlong : longestName < (String.ofList (List.replicate 300 'a')).utf8ByteSize := by
    decide +kernel
  have hkept : Exclusion.excludes Exclusion.builtIn
      ((scopeOf tree ⟨.slash, []⟩ Exclusion.builtIn root).anchored (below root ["A.php"])) = false := by
    decide +kernel
  refine ⟨_, entry?_app _, proper_sourceBesideLink _, ?_, collectFrom_overlong_link hslash hlong _ _⟩
  exact ⟨⟨_, rfl, rfl⟩, ⟨_, rfl, by decide⟩, ⟨_, _, locate_source _⟩, hkept⟩

end Collection

end Roster
