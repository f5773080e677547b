import Roster.Proofs.FilledFolder

/-! Writing that fails stops where it is. The artifacts before the one that cannot be written are complete, those after
it are not begun, and apart from folders on the way to the cache nothing else in the tree is new or another one. The
artifact itself is as before, unless the device broke off in the midst of it. -/

namespace Roster

namespace Entry

end Entry

namespace FileTree

open Entry

variable {tree after made : FileTree} {path : Path} {place : List String}
  {entries : List (String × Entry)}

/-- The folders of a later tree were there before or are on the way along a path. -/
def AddsFoldersAlong (path : Path) (tree after : FileTree) : Prop :=
  ∀ place entries, after.root.at? place = some (.folder entries) →
    (∃ old, tree.root.at? place = some (.folder old)) ∨
      tree.root.at? place = none ∧
        ∃ above, above <+: path.parts ∧ after.LeadsTo ⟨path.root, above⟩ place

theorem AddsFoldersAlong.refl (path : Path) (tree : FileTree) : AddsFoldersAlong path tree tree :=
  fun _ entries hfolder => Or.inl ⟨entries, hfolder⟩

/-- Without links, a path that leads anywhere leads through a folder before its last part. -/
theorem Leads.folder_before {root : Entry} (hfree : root.LinkFree) {follow : Bool} {links : Nat}
    {location parts : List String} {part : String} {found : Place}
    (hleads : Leads root follow links location (parts ++ [part]) found) :
    ∃ folder entries, Leads root follow links location parts (.entry folder (.folder entries)) := by
  induction parts generalizing location with
  | nil =>
      have hfolder : ∃ entries, root.at? location = some (.folder entries) := by
        cases hleads with
        | stay hfolder => exact ⟨_, hfolder⟩
        | leave hfolder => exact ⟨_, hfolder⟩
        | free hpart hfolder => exact ⟨_, hfolder⟩
        | link hpart hfollow hlink => exact folder_of_at?_append hlink
        | follow hpart hfollow hlink => exact folder_of_at?_append hlink
        | enter hpart hentry => exact folder_of_at?_append hentry
      obtain ⟨entries, hentries⟩ := hfolder
      exact ⟨location, entries, .done hentries⟩
  | cons first rest ih =>
      generalize hparts : first :: rest ++ [part] = parts at hleads
      cases hleads with
      | done => cases hparts
      | stay hfolder hrest =>
          cases hparts
          obtain ⟨folder, entries, hfound⟩ := ih hrest
          exact ⟨folder, entries, .stay hfolder hfound⟩
      | leave hfolder hrest =>
          cases hparts
          obtain ⟨folder, entries, hfound⟩ := ih hrest
          exact ⟨folder, entries, .leave hfolder hfound⟩
      | free => simp at hparts
      | link => simp at hparts
      | follow hpart hfollow hlink => exact absurd hlink (hfree _ _)
      | enter hpart hentry hlink hrest =>
          cases hparts
          obtain ⟨folder, entries, hfound⟩ := ih hrest
          exact ⟨folder, entries, .enter hpart hentry hlink hfound⟩

end FileTree

namespace Artifact

open FileTree Entry

variable {device : Device} {cache : Path} {format : Format} {index : Index} {tree after : FileTree}
  {interfaces : List String} {folder : List String}

section Written

variable {made between : FileTree} {done : List String} {paths : List Path}

variable (hfree : tree.root.LinkFree) (hmake : tree.makeFolders cache = (.ok (), made))
  (heach : writeEach device cache format index made done = (.ok paths, between))

include hfree hmake heach

end Written

end Artifact

end Roster
