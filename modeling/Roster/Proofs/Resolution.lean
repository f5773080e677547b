import Mathlib.Data.List.Basic
import Roster.FileTree.Access

/-! Where paths lead. The walk along a path is given a second time as a relation with one rule for each kind of part,
so that what holds of every walk is proved rule by rule. -/

namespace Roster

namespace Entry

theorem at?_append (first second : List String) (entry : Entry) :
    entry.at? (first ++ second) = (entry.at? first).bind (·.at? second) := by
  induction first generalizing entry with
  | nil => rfl
  | cons name first ih =>
      rw [List.cons_append, at?, at?, Option.bind_assoc]
      exact Option.bind_congr fun inner _ => ih inner

theorem at?_concat {root entry : Entry} {location : List String}
    (hentry : root.at? location = some entry) (name : String) :
    root.at? (location ++ [name]) = entry.child? name := by
  rw [at?_append, hentry, Option.bind_some, at?]
  exact Option.bind_fun_some _

theorem folder_ne_link {entries : List (String × Entry)} (target : String) :
    folder entries ≠ link target := by
  intro heq
  cases heq

theorem file_ne_link {content : ByteArray} (target : String) : file content ≠ link target := by
  intro heq
  cases heq

theorem folder_of_child? {entry inner : Entry} {name : String}
    (hchild : entry.child? name = some inner) : ∃ entries, entry = .folder entries := by
  cases entry with
  | folder entries => exact ⟨entries, rfl⟩
  | file content => contradiction
  | link target => contradiction

/-- Everything that has something below it is a folder. -/
theorem folder_of_at?_append {root entry : Entry} {location : List String} {name : String}
    {names : List String} (hentry : root.at? (location ++ name :: names) = some entry) :
    ∃ entries, root.at? location = some (.folder entries) := by
  rw [at?_append] at hentry
  obtain ⟨above, habove, hbelow⟩ := Option.bind_eq_some_iff.mp hentry
  obtain ⟨inner, hchild, -⟩ := Option.bind_eq_some_iff.mp hbelow
  obtain ⟨entries, rfl⟩ := folder_of_child? hchild
  exact ⟨entries, habove⟩

end Entry

namespace FileTree

/-- A part that names an entry. -/
structure Ordinary (part : String) : Prop where
  not_dot : part ≠ "."
  not_dots : part ≠ ".."
  short : ¬ longestName < part.utf8ByteSize

instance (part : String) : Decidable (Ordinary part) :=
  decidable_of_iff (part ≠ "." ∧ part ≠ ".." ∧ ¬ longestName < part.utf8ByteSize)
    ⟨fun h => ⟨h.1, h.2.1, h.2.2⟩, fun h => ⟨h.not_dot, h.not_dots, h.short⟩⟩

/-- Where parts lead from a location when so many links may be followed. -/
inductive Leads (root : Entry) (follow : Bool) :
    Nat → List String → List String → Place → Prop
  | done {links location entry} (hentry : root.at? location = some entry) :
      Leads root follow links location [] (.entry location entry)
  | stay {links location entries rest place}
      (hfolder : root.at? location = some (.folder entries))
      (hrest : Leads root follow links location rest place) :
      Leads root follow links location ("." :: rest) place
  | leave {links location entries rest place}
      (hfolder : root.at? location = some (.folder entries))
      (hrest : Leads root follow links location.dropLast rest place) :
      Leads root follow links location (".." :: rest) place
  | free {links location entries part} (hpart : Ordinary part)
      (hfolder : root.at? location = some (.folder entries))
      (hnone : root.at? (location ++ [part]) = none) :
      Leads root follow links location [part] (.free location part)
  | link {links location part target} (hpart : Ordinary part) (hfollow : follow = false)
      (hlink : root.at? (location ++ [part]) = some (.link target)) :
      Leads root follow links location [part] (.entry (location ++ [part]) (.link target))
  | follow {links location part rest target place} (hpart : Ordinary part)
      (hfollow : ¬ (rest = [] ∧ follow = false))
      (hlink : root.at? (location ++ [part]) = some (.link target))
      (hrest : Leads root follow links (if isAbsoluteTarget target then [] else location)
        (targetParts target ++ rest) place) :
      Leads root follow (links + 1) location (part :: rest) place
  | enter {links location part rest entry place} (hpart : Ordinary part)
      (hentry : root.at? (location ++ [part]) = some entry) (hlink : ∀ target, entry ≠ .link target)
      (hrest : Leads root follow links (location ++ [part]) rest place) :
      Leads root follow links location (part :: rest) place

variable {root : Entry} {follow : Bool} {links : Nat} {location parts : List String} {place : Place}

theorem walk_stay {entries : List (String × Entry)}
    (hfolder : root.at? location = some (.folder entries)) (rest : List String) :
    walk root follow links location ("." :: rest) = walk root follow links location rest := by
  rw [walk, hfolder]
  simp

theorem walk_leave {entries : List (String × Entry)}
    (hfolder : root.at? location = some (.folder entries)) (rest : List String) :
    walk root follow links location (".." :: rest) =
      walk root follow links location.dropLast rest := by
  rw [walk, hfolder]
  simp

theorem walk_follow {part target : String} {rest : List String} (hpart : Ordinary part)
    (hfollow : ¬ (rest = [] ∧ follow = false))
    (hlink : root.at? (location ++ [part]) = some (.link target)) :
    walk root follow (links + 1) location (part :: rest) =
      walk root follow links (if isAbsoluteTarget target then [] else location)
        (targetParts target ++ rest) := by
  obtain ⟨entries, hfolder⟩ := Entry.folder_of_at?_append hlink
  rw [Entry.at?_concat hfolder] at hlink
  have hgo : (rest.isEmpty && !follow) = false := by
    rw [← Bool.not_eq_true]
    simpa using hfollow
  rw [walk, hfolder]
  simp [hpart.not_dot, hpart.not_dots, hpart.short, hlink, hgo]

theorem walk_enter {part : String} {entry : Entry} (hpart : Ordinary part)
    (hentry : root.at? (location ++ [part]) = some entry) (hlink : ∀ target, entry ≠ .link target)
    (rest : List String) :
    walk root follow links location (part :: rest) =
      walk root follow links (location ++ [part]) rest := by
  obtain ⟨entries, hfolder⟩ := Entry.folder_of_at?_append hentry
  rw [Entry.at?_concat hfolder] at hentry
  rw [walk, hfolder]
  simp [hpart.not_dot, hpart.not_dots, hpart.short, hentry]

theorem walk_overlong {entries : List (String × Entry)}
    (hfolder : root.at? location = some (.folder entries)) {part : String}
    (hlong : longestName < part.utf8ByteSize) (rest : List String) :
    walk root follow links location (part :: rest) = .error .nameTooLong := by
  have hdot : part ≠ "." := by
    rintro rfl
    exact absurd hlong (by decide)
  have hdots : part ≠ ".." := by
    rintro rfl
    exact absurd hlong (by decide)
  rw [walk, hfolder]
  simp [hdot, hdots, hlong]

theorem walk_of_leads (hleads : Leads root follow links location parts place) :
    walk root follow links location parts = .ok place := by
  induction hleads with
  | done hentry => rw [walk, hentry]
  | stay hfolder hrest ih => rw [walk_stay hfolder, ih]
  | leave hfolder hrest ih => rw [walk_leave hfolder, ih]
  | free hpart hfolder hnone =>
      rw [Entry.at?_concat hfolder] at hnone
      rw [walk, hfolder]
      simp [hpart.not_dot, hpart.not_dots, hpart.short, hnone]
  | link hpart hfollow hlink =>
      obtain ⟨entries, hfolder⟩ := Entry.folder_of_at?_append hlink
      rw [Entry.at?_concat hfolder] at hlink
      rw [walk, hfolder]
      simp [hpart.not_dot, hpart.not_dots, hpart.short, hlink, hfollow]
  | follow hpart hfollow hlink hrest ih => rw [walk_follow hpart hfollow hlink, ih]
  | enter hpart hentry hlink hrest ih => rw [walk_enter hpart hentry hlink, ih]

theorem leads_of_walk (hwalk : walk root follow links location parts = .ok place) :
    Leads root follow links location parts place := by
  fun_induction walk root follow links location parts with
  | case1 links location entry hentry =>
      cases hwalk
      exact .done hentry
  | case2 => contradiction
  | case3 => contradiction
  | case4 links location rest entries hfolder ih => exact .stay hfolder (ih hwalk)
  | case5 links location rest entries hfolder hdot ih => exact .leave hfolder (ih hwalk)
  | case6 => contradiction
  | case7 links location part rest entries hfolder hdot hdots hshort hnone hlast =>
      cases hwalk
      obtain rfl := List.isEmpty_iff.mp hlast
      exact .free ⟨hdot, hdots, hshort⟩ hfolder ((Entry.at?_concat hfolder part).trans hnone)
  | case8 => contradiction
  | case9 links location part rest entries hfolder hdot hdots hshort target hlink hlast =>
      cases hwalk
      obtain ⟨hrest, hfollow⟩ := Bool.and_eq_true_iff.mp hlast
      obtain rfl := List.isEmpty_iff.mp hrest
      exact .link ⟨hdot, hdots, hshort⟩ (by simpa using hfollow)
        ((Entry.at?_concat hfolder part).trans hlink)
  | case10 => contradiction
  | case11 location part rest entries hfolder hdot hdots hshort target hlink hgo links ih =>
      exact .follow ⟨hdot, hdots, hshort⟩ (by simpa using hgo)
        ((Entry.at?_concat hfolder part).trans hlink) (ih hwalk)
  | case12 links location part rest entries hfolder hdot hdots hshort entry hlink hentry ih =>
      exact .enter ⟨hdot, hdots, hshort⟩ ((Entry.at?_concat hfolder part).trans hentry) hlink
        (ih hwalk)
  | case13 => contradiction

theorem walk_eq_ok_iff :
    walk root follow links location parts = .ok place ↔
      Leads root follow links location parts place :=
  ⟨leads_of_walk, walk_of_leads⟩

namespace Leads

theorem at?_entry {target : List String} {entry : Entry}
    (hleads : Leads root follow links location parts (.entry target entry)) :
    root.at? target = some entry := by
  generalize hplace : Place.entry target entry = place at hleads
  induction hleads with
  | done hentry =>
      cases hplace
      exact hentry
  | stay hfolder hrest ih => exact ih hplace
  | leave hfolder hrest ih => exact ih hplace
  | free hpart hfolder hnone => cases hplace
  | link hpart hfollow hlink =>
      cases hplace
      exact hlink
  | follow hpart hfollow hlink hrest ih => exact ih hplace
  | enter hpart hentry hlink hrest ih => exact ih hplace

theorem at?_free {target : List String} {name : String}
    (hleads : Leads root follow links location parts (.free target name)) :
    (∃ entries, root.at? target = some (.folder entries)) ∧ root.at? (target ++ [name]) = none := by
  generalize hplace : Place.free target name = place at hleads
  induction hleads with
  | done hentry => cases hplace
  | stay hfolder hrest ih => exact ih hplace
  | leave hfolder hrest ih => exact ih hplace
  | free hpart hfolder hnone =>
      cases hplace
      exact ⟨⟨_, hfolder⟩, hnone⟩
  | link hpart hfollow hlink => cases hplace
  | follow hpart hfollow hlink hrest ih => exact ih hplace
  | enter hpart hentry hlink hrest ih => exact ih hplace

/-- A free name is found whether or not links at the end are followed. -/
theorem follow_free {target : List String} {name : String}
    (hleads : Leads root false links location parts (.free target name)) :
    Leads root true links location parts (.free target name) := by
  generalize hplace : Place.free target name = place at hleads
  induction hleads with
  | done hentry => cases hplace
  | stay hfolder hrest ih => exact .stay hfolder (ih hplace)
  | leave hfolder hrest ih => exact .leave hfolder (ih hplace)
  | free hpart hfolder hnone =>
      cases hplace
      exact .free hpart hfolder hnone
  | link hpart hfollow hlink => cases hplace
  | follow hpart hfollow hlink hrest ih => exact .follow hpart (by simp) hlink (ih hplace)
  | enter hpart hentry hlink hrest ih => exact .enter hpart hentry hlink (ih hplace)

/-- What is found with links followed is there without following the last one. -/
theorem unfollow {target : List String} {entry : Entry}
    (hleads : Leads root true links location parts (.entry target entry)) :
    ∃ first found, Leads root false links location parts (.entry first found) := by
  generalize hplace : Place.entry target entry = place at hleads
  induction hleads with
  | done hentry => exact ⟨_, _, .done hentry⟩
  | stay hfolder hrest ih =>
      obtain ⟨first, found, hfirst⟩ := ih hplace
      exact ⟨first, found, .stay hfolder hfirst⟩
  | leave hfolder hrest ih =>
      obtain ⟨first, found, hfirst⟩ := ih hplace
      exact ⟨first, found, .leave hfolder hfirst⟩
  | free hpart hfolder hnone => cases hplace
  | link hpart hfollow hlink => contradiction
  | @follow links location part rest target place hpart hfollow hlink hrest ih =>
      by_cases hlast : rest = []
      · subst hlast
        exact ⟨_, _, .link hpart rfl hlink⟩
      · obtain ⟨first, found, hfirst⟩ := ih hplace
        exact ⟨first, found, .follow hpart (fun h => hlast h.1) hlink hfirst⟩
  | enter hpart hentry hlink hrest ih =>
      obtain ⟨first, found, hfirst⟩ := ih hplace
      exact ⟨first, found, .enter hpart hentry hlink hfirst⟩

/-- Parts behind those that lead to an entry are followed from there. -/
theorem walk_append {target : List String} {entry : Entry}
    (hleads : Leads root true links location parts (.entry target entry)) :
    ∃ left, ∀ more, walk root true links location (parts ++ more) =
      walk root true left target more := by
  generalize hfollow : true = follow at hleads
  generalize hplace : Place.entry target entry = place at hleads
  induction hleads with
  | done hentry =>
      cases hplace
      exact ⟨_, fun more => rfl⟩
  | stay hfolder hrest ih =>
      obtain ⟨left, hleft⟩ := ih hplace
      exact ⟨left, fun more => (walk_stay hfolder _).trans (hleft more)⟩
  | leave hfolder hrest ih =>
      obtain ⟨left, hleft⟩ := ih hplace
      exact ⟨left, fun more => (walk_leave hfolder _).trans (hleft more)⟩
  | free hpart hfolder hnone => cases hplace
  | link hpart hlast hlink => exact absurd (hfollow.trans hlast) (by simp)
  | follow hpart hgo hlink hrest ih =>
      obtain ⟨left, hleft⟩ := ih hplace
      refine ⟨left, fun more => ?_⟩
      rw [List.cons_append, walk_follow hpart (by simp [← hfollow]) hlink, ← List.append_assoc,
        hleft more]
  | enter hpart hentry hlink hrest ih =>
      obtain ⟨left, hleft⟩ := ih hplace
      exact ⟨left, fun more => (walk_enter hpart hentry hlink _).trans (hleft more)⟩

end Leads

end FileTree

end Roster
