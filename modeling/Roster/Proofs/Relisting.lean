import Roster.Proofs.Resolution

/-! The order in which folders list their entries. A tree and one that differs from it in nothing else have the same
entry at every location, up to the listing of a folder, and paths lead to the same places in both. -/

namespace Roster

namespace Entry

/-- Every folder lists each name once, and none by which a folder is left. -/
def Proper (root : Entry) : Prop :=
  ∀ location entries, root.at? location = some (.folder entries) →
    (entries.map (·.1)).Nodup ∧ ".." ∉ entries.map (·.1)

theorem child?_of_mem {entries : List (String × Entry)} (hnodup : (entries.map (·.1)).Nodup)
    {name : String} {entry : Entry} (hmem : (name, entry) ∈ entries) :
    (folder entries).child? name = some entry := by
  induction entries with
  | nil => contradiction
  | cons first entries ih =>
      rw [List.map_cons, List.nodup_cons] at hnodup
      rcases List.mem_cons.mp hmem with rfl | hmem
      · simp [child?, Entry.entries]
      · have hother : first.1 ≠ name := by
          rintro rfl
          exact hnodup.1 (List.mem_map.mpr ⟨_, hmem, rfl⟩)
        rw [← ih hnodup.2 hmem]
        simp [child?, Entry.entries, hother]

theorem mem_of_child? {entries : List (String × Entry)} {name : String} {entry : Entry}
    (hchild : (folder entries).child? name = some entry) : (name, entry) ∈ entries := by
  obtain ⟨⟨key, found⟩, hfind, rfl⟩ := Option.map_eq_some_iff.mp hchild
  obtain rfl : key = name := by simpa using List.find?_some hfind
  exact List.mem_of_find?_eq_some hfind

theorem Proper.nodup {entries : List (String × Entry)} (hproper : (folder entries).Proper) :
    (entries.map (·.1)).Nodup :=
  (hproper [] entries rfl).1

theorem Proper.child {entry inner : Entry} (hproper : entry.Proper) {name : String}
    (hchild : entry.child? name = some inner) : inner.Proper := by
  intro location entries hentries
  refine hproper (name :: location) entries ?_
  rw [at?, hchild, Option.bind_some, hentries]

theorem Proper.at? {root entry : Entry} (hproper : root.Proper) {location : List String}
    (hentry : root.at? location = some entry) : entry.Proper := by
  intro inner entries hentries
  refine hproper (location ++ inner) entries ?_
  rw [at?_append, hentry, Option.bind_some, hentries]

theorem Proper.leaf {entry : Entry} (hleaf : entry.isFolder = false) : entry.Proper := by
  intro location entries hentries
  cases location with
  | nil =>
      cases hentries
      contradiction
  | cons name location =>
      obtain ⟨inner, hchild, -⟩ := Option.bind_eq_some_iff.mp hentries
      obtain ⟨others, rfl⟩ := folder_of_child? hchild
      contradiction

theorem Proper.folder {entries : List (String × Entry)} (hnodup : (entries.map (·.1)).Nodup)
    (hdots : ".." ∉ entries.map (·.1)) (hinner : ∀ found ∈ entries, found.2.Proper) :
    (folder entries).Proper := by
  intro location others hothers
  cases location with
  | nil =>
      cases hothers
      exact ⟨hnodup, hdots⟩
  | cons name location =>
      obtain ⟨inner, hchild, hothers⟩ := Option.bind_eq_some_iff.mp hothers
      exact hinner _ (mem_of_child? hchild) location others hothers

theorem Proper.perm {entries others : List (String × Entry)} (hproper : (Entry.folder entries).Proper)
    (hperm : entries.Perm others) : (Entry.folder others).Proper := by
  have hnames := hperm.map (·.1)
  refine .folder (hnames.nodup_iff.mp hproper.nodup) ?_ ?_
  · exact fun hmem => (hproper [] entries rfl).2 (hnames.mem_iff.mpr hmem)
  · exact fun found hmem => hproper.child (child?_of_mem hproper.nodup (hperm.mem_iff.mpr hmem))

/-- An entry without what a folder lists. -/
def bare : Entry → Entry
  | .folder _ => .folder []
  | entry => entry

/-- Two trees with the same at every location, whatever the order of their listings. -/
def Relisted (first second : Entry) : Prop :=
  ∀ location, (first.at? location).map bare = (second.at? location).map bare

namespace Relisted

variable {first second : Entry}

theorem symm (hsame : Relisted first second) : Relisted second first :=
  fun location => (hsame location).symm

theorem at? (hsame : Relisted first second) {location : List String} {entry : Entry}
    (hentry : first.at? location = some entry) :
    ∃ other, second.at? location = some other ∧ Relisted entry other := by
  have hhere := hsame location
  rw [hentry] at hhere
  obtain ⟨other, hother, -⟩ := Option.map_eq_some_iff.mp hhere.symm
  refine ⟨other, hother, fun inner => ?_⟩
  have hinner := hsame (location ++ inner)
  rwa [at?_append, at?_append, hentry, hother] at hinner

theorem none (hsame : Relisted first second) {location : List String}
    (hnone : first.at? location = none) : second.at? location = none := by
  have hhere := hsame location
  rw [hnone] at hhere
  exact Option.map_eq_none_iff.mp hhere.symm

theorem folder (hsame : Relisted first second) {location : List String}
    {entries : List (String × Entry)} (hfolder : first.at? location = some (.folder entries)) :
    ∃ others, second.at? location = some (.folder others) ∧
      Relisted (.folder entries) (.folder others) := by
  obtain ⟨other, hother, hinner⟩ := hsame.at? hfolder
  cases other with
  | folder others => exact ⟨others, hother, hinner⟩
  | file content => cases hinner []
  | link target => cases hinner []

theorem leaf (hsame : Relisted first second) {location : List String} {entry : Entry}
    (hleaf : entry.isFolder = false) (hentry : first.at? location = some entry) :
    second.at? location = some entry := by
  obtain ⟨other, hother, hinner⟩ := hsame.at? hentry
  have hbare := Option.some.inj (hinner [])
  cases entry with
  | folder entries => contradiction
  | file content =>
      cases other with
      | file found =>
          cases hbare
          exact hother
      | link target => cases hbare
      | folder others => cases hbare
  | link target =>
      cases other with
      | link found =>
          cases hbare
          exact hother
      | file content => cases hbare
      | folder others => cases hbare

/-- A folder that lists the same in another order. -/
theorem of_perm {entries others : List (String × Entry)} (hnodup : (entries.map (·.1)).Nodup)
    (hperm : entries.Perm others) : Relisted (.folder entries) (.folder others) := by
  intro location
  cases location with
  | nil => rfl
  | cons name location =>
      have hchild : (Entry.folder others).child? name = (Entry.folder entries).child? name := by
        apply Option.ext
        intro entry
        constructor
        · exact fun h => child?_of_mem hnodup (hperm.mem_iff.mpr (mem_of_child? h))
        · exact fun h => child?_of_mem ((hperm.map _).nodup_iff.mp hnodup)
            (hperm.mem_iff.mp (mem_of_child? h))
      rw [Entry.at?, Entry.at?, hchild]

end Relisted

end Entry

namespace FileTree

open Entry

def Place.bare : Place → Place
  | .entry location found => .entry location found.bare
  | .free location name => .free location name

/-- Parts lead to the same place, or fail for the same cause. -/
theorem walk_relisted {first second : Entry} (hsame : Relisted first second) (follow : Bool)
    (links : Nat) (location parts : List String) :
    (walk second follow links location parts).map Place.bare =
      (walk first follow links location parts).map Place.bare := by
  -- by the cases of the walk in the first tree: what it finds there sends the other walk the same way
  fun_induction walk first follow links location parts with
  | case1 links location entry hentry =>
      obtain ⟨other, hother, hinner⟩ := hsame.at? hentry
      rw [walk, hother]
      exact congrArg (fun found => Except.ok (Place.entry location found))
        (Option.some.inj (hinner [])).symm
  | case2 links location hnone =>
      rw [walk, hsame.none hnone]
  | case3 links location part rest hnone =>
      rw [walk, hsame.none hnone]
  | case4 links location rest entries hfolder ih =>
      obtain ⟨others, hothers, -⟩ := hsame.folder hfolder
      rw [walk_stay hothers, ih]
  | case5 links location rest entries hfolder hdot ih =>
      obtain ⟨others, hothers, -⟩ := hsame.folder hfolder
      rw [walk_leave hothers, ih]
  | case6 links location part rest entries hfolder hdot hdots hlong =>
      obtain ⟨others, hothers, -⟩ := hsame.folder hfolder
      rw [walk_overlong hothers hlong]
  | case7 links location part rest entries hfolder hdot hdots hshort hnone hlast =>
      obtain ⟨others, hothers, -⟩ := hsame.folder hfolder
      have hfree := hsame.none ((at?_concat hfolder part).trans hnone)
      rw [at?_concat hothers] at hfree
      rw [walk, hothers]
      simp [hdot, hdots, hshort, hfree, hlast]
  | case8 links location part rest entries hfolder hdot hdots hshort hnone hmore =>
      obtain ⟨others, hothers, -⟩ := hsame.folder hfolder
      have hfree := hsame.none ((at?_concat hfolder part).trans hnone)
      rw [at?_concat hothers] at hfree
      rw [walk, hothers]
      simp [hdot, hdots, hshort, hfree, hmore]
  | case9 links location part rest entries hfolder hdot hdots hshort target hlink hlast =>
      obtain ⟨others, hothers, -⟩ := hsame.folder hfolder
      have hother := hsame.leaf rfl ((at?_concat hfolder part).trans hlink)
      rw [at?_concat hothers] at hother
      rw [walk, hothers]
      simp [hdot, hdots, hshort, hother, hlast]
  | case10 location part rest entries hfolder hdot hdots hshort target hlink hgo =>
      obtain ⟨others, hothers, -⟩ := hsame.folder hfolder
      have hother := hsame.leaf rfl ((at?_concat hfolder part).trans hlink)
      rw [at?_concat hothers] at hother
      rw [walk, hothers]
      simp [hdot, hdots, hshort, hother, hgo]
  | case11 location part rest entries hfolder hdot hdots hshort target hlink hgo links ih =>
      have hother := hsame.leaf rfl ((at?_concat hfolder part).trans hlink)
      rw [walk_follow ⟨hdot, hdots, hshort⟩ (by simpa using hgo) hother]
      exact ih
  | case12 links location part rest entries hfolder hdot hdots hshort entry hlink hentry ih =>
      obtain ⟨other, hother, hinner⟩ := hsame.at? ((at?_concat hfolder part).trans hentry)
      have hotherLink : ∀ target, other ≠ .link target := by
        rintro target rfl
        have hback : entry.at? [] = some (.link target) := hinner.symm.leaf rfl rfl
        exact hlink target (Option.some.inj hback)
      rw [walk_enter ⟨hdot, hdots, hshort⟩ hother hotherLink, ih]
  | case13 links location part rest entry hfolder hentry =>
      obtain ⟨other, hother, -⟩ := hsame.at? hentry
      rw [walk, hother]
      cases other with
      | file content => rfl
      | link target => rfl
      | folder others =>
          obtain ⟨entries, hback, -⟩ := hsame.symm.folder hother
          exact absurd (Option.some.inj (hentry.symm.trans hback)) (hfolder entries)

variable {tree other : FileTree}

theorem locate_relisted (hdirectory : other.directory = tree.directory)
    (hsame : Relisted tree.root other.root) (follow : Bool) (path : Path) :
    (other.locate follow path).map Place.bare = (tree.locate follow path).map Place.bare := by
  have hwalk := walk_relisted hsame follow linkLimit
    (if path.isAbsolute then [] else tree.directory) path.parts
  unfold locate
  dsimp only
  rw [hdirectory]
  generalize walk other.root _ _ _ _ = found at hwalk ⊢
  generalize walk tree.root _ _ _ _ = known at hwalk ⊢
  split_ifs
  · rfl
  · rfl
  · cases found with
    | error cause =>
        cases known with
        | error cause =>
            cases hwalk
            rfl
        | ok place => cases hwalk
    | ok place =>
        cases known with
        | error cause => cases hwalk
        | ok place => exact congrArg Except.ok (Except.ok.inj hwalk)

theorem entry?_relisted (hdirectory : other.directory = tree.directory)
    (hsame : Relisted tree.root other.root) (path : Path) :
    Except.map (·.map bare) ( other.entry? path) = Except.map (·.map bare) ( tree.entry? path) := by
  have hlocate := locate_relisted hdirectory hsame true path
  unfold entry?
  generalize other.locate true path = found at hlocate ⊢
  generalize tree.locate true path = known at hlocate ⊢
  cases found with
  | error fault =>
      cases known with
      | error fault =>
          cases hlocate
          rfl
      | ok place => cases hlocate
  | ok place =>
      cases known with
      | error fault => cases hlocate
      | ok known =>
          have hplace := Except.ok.inj hlocate
          cases place with
          | free location name =>
              cases known with
              | free location name => rfl
              | entry location entry => cases hplace
          | entry location entry =>
              cases known with
              | free location name => cases hplace
              | entry location entry =>
                  injection hplace with hlocation hentry
                  exact congrArg (fun entry => Except.ok (some entry)) hentry

theorem isFile_bare (tree : FileTree) (path : Path) :
    tree.isFile path = (Except.map (·.map bare) ( tree.entry? path)).map fun found =>
      match found with
      | some (.file _) => true
      | _ => false := by
  unfold isFile
  rcases tree.entry? path with fault | _ | content | target | entries <;> rfl

/-- Whether a path is a file does not depend on the order of listings. -/
theorem isFile_relisted (hdirectory : other.directory = tree.directory)
    (hsame : Relisted tree.root other.root) (path : Path) :
    other.isFile path = tree.isFile path := by
  rw [isFile_bare, isFile_bare, entry?_relisted hdirectory hsame]

end FileTree

end Roster
