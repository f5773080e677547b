import Roster.Proofs.ArtifactText
import Roster.Proofs.DeclaredNames
import Roster.Proofs.TreeGrowth

/-! What is written is what is loaded. Interfaces that pass the check share an artifact only if they are the same, so
no artifact is written over by a later one, and nothing else in the tree is another file than before. -/

namespace Roster

open Roster.Text

namespace Text

theorem mem_of_mem_lastSegment {sep c : Char} {cs : List Char} (hc : c ∈ lastSegment sep cs) :
    c ∈ cs := by
  have hmem : lastSegment sep cs ∈ segments sep cs := by
    have hne : segments sep cs ≠ [] := segmentsBy_ne_nil _ cs
    rw [lastSegment, List.getLastD_eq_getLast?, List.getLast?_eq_some_getLast hne]
    exact List.getLast_mem hne
  exact mem_of_mem_segmentsBy hmem hc

theorem mem_of_mem_dropEndWhile {p : Char → Bool} {c : Char} {cs : List Char}
    (hc : c ∈ dropEndWhile p cs) : c ∈ cs := by
  rw [dropEndWhile, List.mem_reverse] at hc
  exact List.mem_reverse.mp ((List.dropWhile_sublist p).mem hc)

end Text

theorem Name.mem_of_mem_short {name : String} {c : Char} (hc : c ∈ (short name).toList) :
    c ∈ name.toList := by
  rw [short, String.toList_ofList] at hc
  exact mem_of_mem_dropEndWhile (mem_of_mem_lastSegment hc)

namespace Path

/-- A relative path as it is printed, without empty parts and single dots. -/
def Canonical (text : String) : Prop :=
  ∀ part ∈ splitAt '/' text, part ≠ "" ∧ part ≠ "."

theorem rootOf_of_canonical {text : String} (htext : Canonical text) :
    rootOf text.toList = .relative := by
  cases hchars : text.toList with
  | nil => rfl
  | cons c cs =>
      by_cases hc : c = '/'
      · -- a slash in front leaves an empty part before it
        have hempty : "" ∈ splitAt '/' text := by
          rw [splitAt, hchars, hc]
          exact List.mem_cons_self
        exact absurd rfl (htext "" hempty).1
      · rw [rootOf, List.takeWhile_cons_of_neg (by simpa using hc)]
        rfl

theorem ofString_of_canonical {text : String} (htext : Canonical text) :
    ofString text = ⟨.relative, splitAt '/' text⟩ := by
  have hparts : (splitAt '/' text).filter (fun part => part != "" && part != ".") = splitAt '/' text := by
    rw [List.filter_eq_self]
    intro part hpart
    simp [htext part hpart]
  rw [ofString, rootOf_of_canonical htext, hparts]

theorem canonical_of_not_mem {name : String} (hslash : '/' ∉ name.toList) (hempty : name ≠ "")
    (hdot : name ≠ ".") : Canonical name := by
  intro part hpart
  rw [splitAt_of_not_mem hslash, List.mem_singleton] at hpart
  rw [hpart]
  exact ⟨hempty, hdot⟩

end Path

namespace Artifact

/-- The name of the file that holds the artifact of an interface. -/
def fileName (interface : String) (format : Format) : String :=
  Name.short interface ++ "." ++ format.name

theorem slash_not_mem_fileName {interface : String} (hslash : '/' ∉ interface.toList)
    (format : Format) : '/' ∉ (fileName interface format).toList := by
  have hshort : '/' ∉ (Name.short interface).toList := fun h => hslash (Name.mem_of_mem_short h)
  cases format <;> simp [fileName, Format.name, hshort]

theorem three_lt_length_fileName (interface : String) (format : Format) :
    3 < (fileName interface format).length := by
  have hname : 3 ≤ format.name.length := by cases format <;> decide
  have hdot : ".".length = 1 := rfl
  rw [fileName, String.length_append, String.length_append, hdot]
  omega

theorem fileName_ne {short : String} (hshort : short.length ≤ 3) (interface : String)
    (format : Format) : fileName interface format ≠ short := by
  rintro rfl
  exact absurd (three_lt_length_fileName interface format) (Nat.not_lt.mpr hshort)

theorem ofString_of_not_mem {name : String} (hslash : '/' ∉ name.toList) (hempty : name ≠ "")
    (hdot : name ≠ ".") : Path.ofString name = ⟨.relative, [name]⟩ := by
  rw [Path.ofString_of_canonical (Path.canonical_of_not_mem hslash hempty hdot), splitAt_of_not_mem hslash]

theorem location_of_canonical {interface : String} {format : Format}
    (hname : Path.Canonical (fileName interface format)) (directory : Path) :
    location directory interface format =
      ⟨directory.root, directory.parts ++ splitAt '/' (fileName interface format)⟩ := by
  change directory.join (Path.ofString (fileName interface format)) = _
  rw [Path.ofString_of_canonical hname, Path.join]

theorem location_eq {interface : String} (hslash : '/' ∉ interface.toList) (directory : Path)
    (format : Format) :
    location directory interface format =
      ⟨directory.root, directory.parts ++ [fileName interface format]⟩ := by
  have hname := slash_not_mem_fileName hslash format
  have hcanonical : Path.Canonical (fileName interface format) :=
    Path.canonical_of_not_mem hname (fileName_ne (by decide) interface format)
      (fileName_ne (by decide) interface format)
  rw [location_of_canonical hcanonical, splitAt_of_not_mem hname]

theorem location_eq_of_short_eq {name interface : String}
    (hshort : Name.short name = Name.short interface) (directory : Path) (format : Format) :
    location directory name format = location directory interface format := by
  rw [location, location, hshort]

/-- Interfaces with a short name in common are the same. -/
def Apart (interfaces : List String) : Prop :=
  ∀ first ∈ interfaces, ∀ second ∈ interfaces, Name.short first = Name.short second → first = second

theorem Apart.subset {interfaces more : List String} (hapart : Apart more)
    (hsub : ∀ interface ∈ interfaces, interface ∈ more) : Apart interfaces :=
  fun first hfirst second hsecond => hapart first (hsub first hfirst) second (hsub second hsecond)

theorem Apart.concat {interfaces : List String} {interface : String} (hapart : Apart interfaces)
    (hnew : ∀ other ∈ interfaces, Name.short other ≠ Name.short interface) :
    Apart (interfaces ++ [interface]) := by
  intro first hfirst second hsecond hshort
  rw [List.mem_append, List.mem_singleton] at hfirst hsecond
  rcases hfirst with hfirst | rfl
  · rcases hsecond with hsecond | rfl
    · exact hapart first hfirst second hsecond hshort
    · exact absurd hshort (hnew first hfirst)
  · rcases hsecond with hsecond | rfl
    · exact absurd hshort.symm (hnew second hsecond)
    · rfl

/-- The interfaces that passed are kept apart along with the owners so far. -/
theorem apart_of_conflictAmong {owners : List (String × String)} {interfaces : List String}
    (howners : ∀ owner ∈ owners, owner.1 = Name.short owner.2) (hapart : Apart (owners.map (·.2)))
    (hnone : conflictAmong owners interfaces = none) :
    Apart (owners.map (·.2) ++ interfaces) := by
  induction interfaces generalizing owners with
  | nil => rwa [List.append_nil]
  | cons interface rest ih =>
      rw [conflictAmong] at hnone
      cases hfind : owners.find? (·.1 = Name.short interface) with
      | some owner =>
          rw [hfind] at hnone
          dsimp only at hnone
          split_ifs at hnone with hsame
          have hmem : interface ∈ owners.map (·.2) :=
            List.mem_map.mpr ⟨owner, List.mem_of_find?_eq_some hfind, hsame⟩
          refine (ih howners hapart hnone).subset fun name hname => ?_
          rw [List.mem_append, List.mem_cons] at hname
          rcases hname with hname | rfl | hname
          · exact List.mem_append_left _ hname
          · exact List.mem_append_left _ hmem
          · exact List.mem_append_right _ hname
      | none =>
          rw [hfind] at hnone
          have hnew : ∀ name ∈ owners.map (·.2), Name.short name ≠ Name.short interface := by
            intro name hname
            obtain ⟨owner, howner, rfl⟩ := List.mem_map.mp hname
            rw [← howners owner howner]
            simpa using List.find?_eq_none.mp hfind owner howner
          have howned : ∀ owner ∈ owners ++ [(Name.short interface, interface)],
              owner.1 = Name.short owner.2 := by
            intro owner howner
            rcases List.mem_append.mp howner with howner | howner
            · exact howners owner howner
            · rw [List.mem_singleton.mp howner]
          have hmore : Apart ((owners ++ [(Name.short interface, interface)]).map (·.2)) := by
            rw [List.map_append]
            exact hapart.concat hnew
          have hrest := ih howned hmore hnone
          rwa [List.map_append, List.append_assoc] at hrest

theorem apart_of_checkNames {interfaces : List String} (hcheck : checkNames interfaces = .ok ()) :
    Apart interfaces := by
  unfold checkNames at hcheck
  split at hcheck
  · contradiction
  · next hnone =>
      have hempty : Apart (([] : List (String × String)).map (·.2)) := by simp [Apart]
      exact apart_of_conflictAmong (by simp) hempty hnone

variable {device : FileTree.Device} {cache : Path} {format : Format} {index : Index}
  {tree after : FileTree}

open FileTree Entry

/-- No link lies directly in the folder at the location. -/
def NoLinkIn (root : Entry) (location : List String) : Prop :=
  ∀ name target, root.at? (location ++ [name]) ≠ some (.link target)

/-- A file in a folder without links is found in that folder. -/
theorem location_of_locate {folder : List String} {entries : List (String × Entry)} {place : Place}
    {name : String} (hcache : tree.locate true cache = .ok (.entry folder (.folder entries)))
    (hlinks : NoLinkIn tree.root folder) (hdot : name ≠ ".") (hdots : name ≠ "..")
    (hlocate : tree.locate true ⟨cache.root, cache.parts ++ [name]⟩ = .ok place) :
    place.location = folder ++ [name] := by
  obtain ⟨left, hleft⟩ := (locate_eq_ok_iff.mp hcache).2.walk_append
  have hwalk : walk tree.root true linkLimit (tree.origin cache) (cache.parts ++ [name]) = .ok place :=
    walk_of_leads (locate_eq_ok_iff.mp hlocate).2
  rw [hleft] at hwalk
  cases leads_of_walk hwalk with
  | stay => exact absurd rfl hdot
  | leave => exact absurd rfl hdots
  | free => rfl
  | link hpart hfollow => contradiction
  | follow hpart hfollow hlink => exact absurd hlink (hlinks name _)
  | enter hpart hentry hlink hrest =>
      cases hrest
      rfl

theorem fileName_inj {first second : String} (heq : fileName first format = fileName second format) :
    Name.short first = Name.short second := by
  rw [fileName, fileName, String.append_assoc, String.append_assoc] at heq
  exact (String.append_left_inj _).mp heq

theorem writeEach_cons {interface : String} {rest : List String} {paths : List Path}
    (hwrite : writeEach device cache format index tree (interface :: rest) = (.ok paths, after)) :
    ∃ written more,
      tree.put (location cache interface format) (render format (index.get interface)).toUTF8 =
        .ok written ∧
      writeEach device.tail cache format index written rest = (.ok more, after) ∧
      paths = location cache interface format :: more := by
  rw [writeEach] at hwrite
  split at hwrite
  · cases hwrite
  · next written hwritten =>
      split at hwrite
      · next more last hmore =>
          cases hwrite
          exact ⟨written, more, (write_eq_ok_iff.mp hwritten).2, hmore, rfl⟩
      · next hfailed =>
          exact absurd hwrite (hfailed paths after)

/-- The folder of the cache, without links in it. -/
structure CacheAt (tree : FileTree) (cache : Path) (folder : List String) : Prop where
  leads : ∃ entries, tree.locate true cache = .ok (.entry folder (.folder entries))
  no_link : NoLinkIn tree.root folder

/-- One artifact is written into the folder of the cache, which stays one. -/
theorem put_artifact {folder : List String} {interface : String} {content : ByteArray}
    (hcache : CacheAt tree cache folder) (hslash : '/' ∉ interface.toList)
    (hput : tree.put (location cache interface format) content = .ok after) :
    after = { tree with
        root := tree.root.insert (folder ++ [fileName interface format]) (.file content) } ∧
      Extends (· = folder ++ [fileName interface format]) tree.root after.root ∧
      after.locate true (location cache interface format) =
        .ok (.entry (folder ++ [fileName interface format]) (.file content)) ∧
      CacheAt after cache folder := by
  obtain ⟨entries, hleads⟩ := hcache.leads
  obtain ⟨place, hplace, hafter, hext, hfile⟩ := put_spec hput
  have hlocation : place.location = folder ++ [fileName interface format] :=
    location_of_locate hleads hcache.no_link (fileName_ne (by decide) _ _)
      (fileName_ne (by decide) _ _) (location_eq hslash cache format ▸ hplace)
  rw [hlocation] at hafter hext hfile
  refine ⟨hafter, hext, hfile, ?_, ?_⟩
  · obtain ⟨later, hlater, hkind⟩ := locate_grow hleads (by rw [hafter]) hext
    cases hkind
    exact ⟨_, hlater⟩
  · intro name target hlink
    by_cases hname : folder ++ [name] = folder ++ [fileName interface format]
    · rw [hname, at?_of_locate hfile] at hlink
      cases hlink
    · exact hcache.no_link name target ((hext.leaf hname rfl).mp hlink)

/-- What writing the artifacts of some interfaces into a folder comes to. -/
structure Writes (cache : Path) (format : Format) (index : Index) (folder : List String)
    (tree : FileTree) (interfaces : List String) (after : FileTree) : Prop where
  directory : after.directory = tree.directory
  grows : Extends
    (fun location => ∃ interface ∈ interfaces, location = folder ++ [fileName interface format])
    tree.root after.root
  found : ∀ interface ∈ interfaces, after.locate true (location cache interface format) =
    .ok (.entry (folder ++ [fileName interface format])
      (.file (render format (index.get interface)).toUTF8))

theorem Writes.cacheAt {folder interfaces : List String}
    (hwrites : Writes cache format index folder tree interfaces after)
    (hcache : CacheAt tree cache folder) : CacheAt after cache folder where
  leads := by
    obtain ⟨entries, hleads⟩ := hcache.leads
    obtain ⟨later, hlater, hkind⟩ := locate_grow hleads hwrites.directory hwrites.grows
    cases hkind
    exact ⟨_, hlater⟩
  no_link := by
    intro name target hlink
    by_cases htouched : ∃ interface ∈ interfaces, folder ++ [name] = folder ++ [fileName interface format]
    · obtain ⟨interface, hmem, heq⟩ := htouched
      rw [heq, at?_of_locate (hwrites.found interface hmem)] at hlink
      cases hlink
    · exact hcache.no_link name target ((hwrites.grows.leaf htouched rfl).mp hlink)

/-- Later artifacts leave an earlier one as it is, unless they are the same. -/
theorem Writes.cons {folder : List String} {interface : String} {rest : List String}
    {written : FileTree} (hapart : Apart (interface :: rest))
    (hdirectory : written.directory = tree.directory)
    (hext : Extends (· = folder ++ [fileName interface format]) tree.root written.root)
    (hfile : written.locate true (location cache interface format) =
      .ok (.entry (folder ++ [fileName interface format])
        (.file (render format (index.get interface)).toUTF8)))
    (hrest : Writes cache format index folder written rest after) :
    Writes cache format index folder tree (interface :: rest) after where
  directory := hrest.directory.trans hdirectory
  grows := by
    refine (hext.mono ?_).trans (hrest.grows.mono ?_)
    · rintro location rfl
      exact ⟨interface, List.mem_cons_self, rfl⟩
    · rintro location ⟨other, hother, rfl⟩
      exact ⟨other, List.mem_cons_of_mem _ hother, rfl⟩
  found := by
    intro other hother
    by_cases hlater : other ∈ rest
    · exact hrest.found other hlater
    · obtain rfl : other = interface := (List.mem_cons.mp hother).resolve_right hlater
      have huntouched : ¬ ∃ later ∈ rest,
          folder ++ [fileName other format] = folder ++ [fileName later format] := by
        rintro ⟨later, hmem, heq⟩
        have hname : fileName other format = fileName later format := by simpa using heq
        have hsame := hapart other hother later (List.mem_cons_of_mem _ hmem) (fileName_inj hname)
        exact hlater (hsame ▸ hmem)
      exact locate_untouched hfile hrest.directory hrest.grows huntouched

theorem writes_of_writeEach {folder : List String} {interfaces : List String} {paths : List Path}
    (hcache : CacheAt tree cache folder) (hapart : Apart interfaces)
    (hnames : ∀ interface ∈ interfaces, '/' ∉ interface.toList)
    (hwrite : writeEach device cache format index tree interfaces = (.ok paths, after)) :
    paths = interfaces.map (location cache · format) ∧
      Writes cache format index folder tree interfaces after := by
  induction interfaces generalizing device tree paths with
  | nil =>
      rw [writeEach] at hwrite
      cases hwrite
      exact ⟨rfl, rfl, .refl _ _, by simp⟩
  | cons interface rest ih =>
      obtain ⟨written, more, hfirst, hmore, rfl⟩ := writeEach_cons hwrite
      obtain ⟨hwritten, hext, hfile, hstill⟩ :=
        put_artifact hcache (hnames interface List.mem_cons_self) hfirst
      have hlater : ∀ other ∈ rest, other ∈ interface :: rest :=
        fun other hother => List.mem_cons_of_mem _ hother
      obtain ⟨rfl, hrest⟩ :=
        ih hstill (hapart.subset hlater) (fun other hother => hnames other (hlater other hother)) hmore
      exact ⟨rfl, .cons hapart (by rw [hwritten]) hext hfile hrest⟩

/-- Paths lead where they led before, wherever the artifacts end up. -/
theorem leadsTo_of_writeEach {interfaces : List String} {paths : List Path} {path : Path}
    {target : List String} (hleads : tree.LeadsTo path target)
    (hwrite : writeEach device cache format index tree interfaces = (.ok paths, after)) :
    after.LeadsTo path target := by
  induction interfaces generalizing device tree paths with
  | nil =>
      rw [writeEach] at hwrite
      cases hwrite
      exact hleads
  | cons interface rest ih =>
      obtain ⟨written, more, hfirst, hmore, -⟩ := writeEach_cons hwrite
      obtain ⟨place, -, hwritten, hext, -⟩ := put_spec hfirst
      exact ih (leadsTo_grow hleads (by rw [hwritten]) hext) hmore

theorem read_of_locate {path : Path} {location : List String} {content : ByteArray}
    (hlocate : tree.locate true path = .ok (.entry location (.file content))) :
    tree.read path = .ok content := by
  rw [FileTree.read, hlocate]

theorem write_eq_ok {interfaces : List String} {paths : List Path}
    (hwrite : write device cache format index tree interfaces = (.ok paths, after)) :
    ∃ made, checkNames interfaces = .ok () ∧ tree.makeFolders cache = (.ok (), made) ∧
      writeEach device cache format index made interfaces = (.ok paths, after) := by
  rw [write] at hwrite
  cases hcheck : checkNames interfaces with
  | error conflict =>
      rw [hcheck] at hwrite
      cases hwrite
  | ok value =>
      rw [hcheck] at hwrite
      cases hmade : tree.makeFolders cache with
      | mk outcome made =>
          rw [hmade] at hwrite
          cases outcome with
          | error fault => cases hwrite
          | ok value => exact ⟨made, rfl, rfl, hwrite⟩

/-- An artifact that can be written: its path is one that the system takes, and no folder is in the way. -/
structure Writable (tree : FileTree) (cache : Path) (folder : List String) (interface : String)
    (format : Format) : Prop where
  no_slash : '/' ∉ interface.toList
  admissible : Admissible (location cache interface format)
  short : ¬ longestName < (fileName interface format).utf8ByteSize
  no_folder : ∀ entries, tree.root.at? (folder ++ [fileName interface format]) ≠
    some (.folder entries)

theorem put_succeeds {folder : List String} {interface : String}
    (hcache : CacheAt tree cache folder) (hwritable : Writable tree cache folder interface format)
    (content : ByteArray) :
    ∃ written, tree.put (location cache interface format) content = .ok written := by
  obtain ⟨entries, hleads⟩ := hcache.leads
  obtain ⟨left, hleft⟩ := (locate_eq_ok_iff.mp hleads).2.walk_append
  have hpart : Ordinary (fileName interface format) :=
    ⟨fileName_ne (by decide) _ _, fileName_ne (by decide) _ _, hwritable.short⟩
  have hlocate {place : Place}
      (hplace : Leads tree.root true left folder [fileName interface format] place) :
      tree.locate true (location cache interface format) = .ok place := by
    refine locate_eq_ok_iff.mpr ⟨hwritable.admissible, leads_of_walk ?_⟩
    rw [location_eq hwritable.no_slash]
    exact (hleft _).trans (walk_of_leads hplace)
  have hfolder := at?_of_locate hleads
  cases hentry : tree.root.at? (folder ++ [fileName interface format]) with
  | none =>
      rw [FileTree.put, hlocate (.free hpart hfolder hentry)]
      exact ⟨_, rfl⟩
  | some entry =>
      cases entry with
      | file old =>
          rw [FileTree.put, hlocate (.enter hpart hentry (by simp) (.done hentry))]
          exact ⟨_, rfl⟩
      | link target => exact absurd hentry (hcache.no_link _ _)
      | folder entries => exact absurd hentry (hwritable.no_folder _)

theorem Writable.insert {folder : List String} {interface other : String} {content : ByteArray}
    (hwritable : Writable tree cache folder other format) :
    Writable { tree with
        root := tree.root.insert (folder ++ [fileName interface format]) (.file content) }
      cache folder other format where
  no_slash := hwritable.no_slash
  admissible := hwritable.admissible
  short := hwritable.short
  no_folder entries hentries := by
    -- two names in one folder: neither lies below the other
    rcases at?_insert_cases tree.root (folder ++ [fileName interface format]) (.file content)
        (folder ++ [fileName other format]) with
      ⟨-, hfile⟩ | ⟨name, rest, hnames, -⟩ | ⟨name, rest, inner, hnames, -⟩ | hsame
    · rw [hfile] at hentries
      cases hentries
    · simp at hnames
    · simp at hnames
    · exact hwritable.no_folder entries (hsame.symm.trans hentries)

theorem writeEach_succeeds {folder : List String} {interfaces : List String} (hsound : device.Sound)
    (hcache : CacheAt tree cache folder)
    (hwritable : ∀ interface ∈ interfaces, Writable tree cache folder interface format) :
    ∃ paths after, writeEach device cache format index tree interfaces = (.ok paths, after) := by
  induction interfaces generalizing device tree with
  | nil => exact ⟨[], tree, rfl⟩
  | cons interface rest ih =>
      have hfirst := hwritable interface List.mem_cons_self
      obtain ⟨written, hwritten⟩ := put_succeeds hcache hfirst
        (render format (index.get interface)).toUTF8
      obtain ⟨rfl, -, -, hstill⟩ := put_artifact hcache hfirst.no_slash hwritten
      obtain ⟨paths, after, hrest⟩ := ih hsound.tail hstill
        fun other hother => (hwritable other (List.mem_cons_of_mem _ hother)).insert
      refine ⟨location cache interface format :: paths, after, ?_⟩
      rw [writeEach, write_eq_ok_iff.mpr ⟨hsound.next, hwritten⟩]
      dsimp only
      rw [hrest]

/-- Where the folder can be had and nothing is in the way, the artifacts are written. -/
theorem write_succeeds_in {made : FileTree} {folder : List String} {interfaces : List String}
    (hsound : device.Sound) (hcheck : checkNames interfaces = .ok ())
    (hmake : tree.makeFolders cache = (.ok (), made)) (hcache : CacheAt made cache folder)
    (hwritable : ∀ interface ∈ interfaces, Writable made cache folder interface format) :
    ∃ paths after, write device cache format index tree interfaces = (.ok paths, after) := by
  obtain ⟨paths, after, heach⟩ := writeEach_succeeds hsound hcache hwritable
  refine ⟨paths, after, ?_⟩
  rw [write, hcheck]
  dsimp only
  rw [hmake]
  exact heach

theorem write_succeeds {folder : List String} {interfaces : List String} (hsound : device.Sound)
    (hcheck : checkNames interfaces = .ok ()) (hcache : CacheAt tree cache folder)
    (hwritable : ∀ interface ∈ interfaces, Writable tree cache folder interface format) :
    ∃ paths after, write device cache format index tree interfaces = (.ok paths, after) := by
  obtain ⟨entries, hleads⟩ := hcache.leads
  exact write_succeeds_in hsound hcheck (makeFolders_of_locate hleads) hcache hwritable

/-- Artifacts that were written are in the order of their interfaces and are loaded as the classes they were written
for, under every name with the same short name. A carriage return, which is not loaded as such from an array, is in
no name that a source declares. The artifacts hold nothing else, and whatever no artifact's path leads to is the file,
the link or the folder that it was. -/
theorem loads_what_was_written {device : FileTree.Device} {cache : Path} {format : Format}
    {index : Index} {tree after : FileTree} {interfaces : List String} {paths : List Path}
    (hnames : ∀ interface ∈ interfaces, '/' ∉ interface.toList)
    (hwrite : write device cache format index tree interfaces = (.ok paths, after))
    (hlinks : ∀ folder, after.LeadsTo cache folder → NoLinkIn tree.root folder) :
    paths = interfaces.map (location cache · format) ∧
    (∀ interface ∈ interfaces, ∀ name, Name.short name = Name.short interface →
      (format = .php → ∀ className ∈ index.get interface, '\r' ∉ className.toList) →
      load after cache name format = .ok (index.get interface)) ∧
    (∀ dialect content tree finder found, Php.readDialect dialect content = .ok tree →
      Finder.matchesIn finder tree = .ok found → ∀ m ∈ found, '\r' ∉ m.className.toList) ∧
    (∀ interface ∈ interfaces, after.read (location cache interface format) =
      .ok (render format (index.get interface)).toUTF8) ∧
    after.directory = tree.directory ∧
    ∀ location, (∀ path ∈ paths, ¬ after.LeadsTo path location) →
      (∀ entry, entry.isFolder = false →
        (after.root.at? location = some entry ↔ tree.root.at? location = some entry)) ∧
      ∀ entries, tree.root.at? location = some (.folder entries) →
        ∃ later, after.root.at? location = some (.folder later) := by
  obtain ⟨made, hcheck, hmake, heach⟩ := write_eq_ok hwrite
  have hmade := makeFolders_spec tree cache
  rw [hmake] at hmade
  obtain ⟨folder, entries, hleads⟩ := hmade.leads rfl
  have hcache : CacheAt made cache folder := by
    have hnone := hlinks folder (leadsTo_of_writeEach ⟨_, hleads⟩ heach)
    exact ⟨⟨entries, hleads⟩, fun name target hlink =>
      hnone name target ((hmade.grows.leaf not_false rfl).mp hlink)⟩
  obtain ⟨hpaths, hwrites⟩ := writes_of_writeEach hcache (apart_of_checkNames hcheck) hnames heach
  have hread : ∀ interface ∈ interfaces, after.read (location cache interface format) =
      .ok (render format (index.get interface)).toUTF8 :=
    fun interface hmem => read_of_locate (hwrites.found interface hmem)
  refine ⟨hpaths, ?_, fun _ _ _ _ _ hsource => Finder.return_not_mem_matchesIn hsource, hread,
    hwrites.directory.trans hmade.directory, ?_⟩
  · intro interface hmem name hshort hreturn
    rw [load, location_eq_of_short_eq hshort, hread interface hmem]
    exact parse_decode_render hreturn
  · intro location hlocation
    have huntouched : ¬ ∃ interface ∈ interfaces, location = folder ++ [fileName interface format] := by
      rintro ⟨interface, hmem, rfl⟩
      have hpath : Artifact.location cache interface format ∈ paths :=
        hpaths ▸ List.mem_map_of_mem hmem
      exact hlocation _ hpath ⟨_, hwrites.found interface hmem⟩
    refine ⟨fun entry hentry => ?_, fun entries hfolder => ?_⟩
    · exact (hwrites.grows.leaf huntouched hentry).trans (hmade.grows.leaf not_false hentry)
    · obtain ⟨between, hbetween⟩ := hmade.grows.folder hfolder
      exact hwrites.grows.folder hbetween

/-- A cache that is reached through a link and holds an artifact already. -/
def linkedCache : FileTree :=
  { root := .folder [("var", .folder [("cache", .folder [("I.php", .file "old".toUTF8)])]),
      ("alias", .link "var")] }

def aliasCache : Path := ⟨.slash, ["alias", "cache"]⟩

def twoInterfaces : Index := ⟨[("App\\I", ["A\\K", "it's"]), ("J", [])]⟩

theorem cacheAt_linkedCache : CacheAt linkedCache aliasCache ["var", "cache"] where
  leads := by
    have hvar : Ordinary "var" := by decide
    have hcache : Ordinary "cache" := by decide
    have halias : Ordinary "alias" := by decide
    have htarget : Leads linkedCache.root true 39 [] ["var", "cache"]
        (.entry ["var", "cache"] (.folder [("I.php", .file "old".toUTF8)])) :=
      .enter hvar rfl nofun (.enter hcache rfl nofun (.done rfl))
    exact ⟨_, locate_eq_ok_iff.mpr ⟨by decide, .follow halias (by simp) rfl htarget⟩⟩
  no_link := by
    intro name target
    change ((Entry.folder [("I.php", .file "old".toUTF8)]).child? name).bind some ≠ _
    by_cases hname : "I.php" = name <;> simp [Entry.child?, Entry.entries, hname]

theorem writable_linkedCache {interface : String} (hmem : interface ∈ ["App\\I", "J", "App\\I"]) :
    Writable linkedCache aliasCache ["var", "cache"] interface .php := by
  simp only [List.mem_cons, List.not_mem_nil, or_false] at hmem
  rcases hmem with rfl | rfl | rfl
  · exact ⟨by decide, by decide, by decide, nofun⟩
  · exact ⟨by decide, by decide, by decide, nofun⟩
  · exact ⟨by decide, by decide, by decide, nofun⟩

theorem loads_from_linkedCache :
    (∀ interface ∈ ["App\\I", "J", "App\\I"], '/' ∉ interface.toList) ∧
    ∃ paths after,
      write [] aliasCache .php twoInterfaces linkedCache ["App\\I", "J", "App\\I"] =
        (.ok paths, after) ∧
      (∀ folder, after.LeadsTo aliasCache folder → NoLinkIn linkedCache.root folder) ∧
      load after aliasCache "Other\\I" .php = .ok ["A\\K", "it's"] ∧
      load after aliasCache "J" .php = .ok [] := by
  have hnames : ∀ interface ∈ ["App\\I", "J", "App\\I"], '/' ∉ interface.toList := by decide
  have hcheck : checkNames ["App\\I", "J", "App\\I"] = .ok () := by decide +kernel
  obtain ⟨paths, after, hwrite⟩ :
      ∃ paths after, write [] aliasCache .php twoInterfaces linkedCache ["App\\I", "J", "App\\I"] =
        (.ok paths, after) :=
    write_succeeds Device.sound_nil hcheck cacheAt_linkedCache fun interface hmem => writable_linkedCache hmem
  have hlinks : ∀ folder, after.LeadsTo aliasCache folder → NoLinkIn linkedCache.root folder := by
    rintro folder ⟨entry, hentry⟩
    obtain ⟨entries, hleads⟩ := cacheAt_linkedCache.leads
    obtain ⟨made, -, hmake, heach⟩ := write_eq_ok hwrite
    rw [makeFolders_of_locate hleads] at hmake
    cases hmake
    obtain ⟨later, hlater⟩ := leadsTo_of_writeEach ⟨_, hleads⟩ heach
    cases hlater.symm.trans hentry
    exact cacheAt_linkedCache.no_link
  obtain ⟨-, hload, -⟩ := loads_what_was_written hnames hwrite hlinks
  exact ⟨hnames, paths, after, hwrite, hlinks,
    hload "App\\I" (by decide) "Other\\I" (by decide) (by decide),
    hload "J" (by decide) "J" rfl (by decide)⟩

end Artifact

end Roster
