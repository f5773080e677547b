import Roster.Finder.Session
import Roster.Proofs.FileScan

/-! When a finder's calls fail, and what they leave behind. To look for classes fails on the first named class that is
met without targets, and nothing is recorded before the whole tree was walked; to set targets fails on an empty name,
which is looked for before anything is replaced. -/

namespace Roster

open Roster.Syntax

theorem Index.toMatches_ensureAll (index : Index) (targets : List String) :
    (index.ensureAll targets).toMatches = index.toMatches := by
  have hstep (entries : List (String × List String)) (target : String) :
      toMatches ⟨appendTo target [] entries⟩ = toMatches ⟨entries⟩ := by
    induction entries with
    | nil => rfl
    | cons entry rest ih =>
        obtain ⟨key, known⟩ := entry
        simp only [toMatches] at ih ⊢
        rw [appendTo]
        split_ifs
        · rw [List.append_nil]
        · rw [List.flatMap_cons, ih, List.flatMap_cons]
  induction targets generalizing index with
  | nil => rfl
  | cons first rest ih => exact (ih (index.ensure first)).trans (hstep index.entries first)

namespace Finder

/-- A declaration of a class that has a name. -/
def DeclaresClass (node : Tree) : Prop :=
  node.kind = .classDeclaration ∧ node.nameChild?.isSome

theorem nodeMatches_of_declaresClass {node : Tree} (hclass : DeclaresClass node) (space : String) :
    nodeMatches [] space node = .error .noTargets := by
  obtain ⟨hkind, hname⟩ := hclass
  obtain ⟨name, hname⟩ := Option.isSome_iff_exists.mp hname
  rw [nodeMatches, className?, if_pos hkind, hname]
  rfl

theorem nodeMatches_of_not_declaresClass {node : Tree} (hclass : ¬ DeclaresClass node)
    (targets : List String) (space : String) : nodeMatches targets space node = .ok [] := by
  have hnone : className? space node = none := by
    rw [className?]
    split_ifs with hkind
    · have hname : node.nameChild?.isSome = false := by
        apply Bool.eq_false_iff.mpr
        intro hname
        exact hclass ⟨hkind, hname⟩
      rw [Option.not_isSome_iff_eq_none.mp (Bool.eq_false_iff.mp hname), Option.map_none]
    · rfl
  rw [nodeMatches, hnone]

/-- Without targets the walk ends at the first named class of those that are left, and finds nothing otherwise. -/
theorem walk_eq_error_iff {space : String} {found : List Match} {stack : List Tree} {fault : Fault} :
    walk [] space found stack = .error fault ↔
      fault = .noTargets ∧
        ∃ node ∈ stack.flatMap (Tree.preorder (·.label.named)), DeclaresClass node := by
  fun_induction walk [] space found stack with
  | case1 space found => simp
  | case2 space found node stack inner other hnode =>
      by_cases hclass : DeclaresClass node
      · rw [nodeMatches_of_declaresClass hclass] at hnode
        obtain rfl := Except.error.inj hnode
        rw [rest_after_push, Except.error.injEq, eq_comm]
        constructor
        · rintro rfl
          exact ⟨rfl, node, List.mem_cons_self, hclass⟩
        · exact And.left
      · rw [nodeMatches_of_not_declaresClass hclass] at hnode
        contradiction
  | case3 space found node stack inner more hnode ih =>
      have hclass : ¬ DeclaresClass node := by
        intro hclass
        rw [nodeMatches_of_declaresClass hclass] at hnode
        contradiction
      rw [ih, rest_after_push]
      simp [hclass]

theorem matchesIn_eq_error_iff {finder : Finder} {tree : Tree} {fault : Fault} :
    finder.matchesIn tree = .error fault ↔
      fault = .noTargets ∧ finder.targets = [] ∧
        ∃ position node, Tree.At (·.label.named) tree position node ∧ DeclaresClass node := by
  by_cases htargets : finder.targets = []
  · rw [matchesIn, htargets, walk_eq_error_iff, List.flatMap_singleton]
    simp only [Tree.mem_preorder_iff, true_and]
    constructor
    · rintro ⟨rfl, node, ⟨position, hat⟩, hclass⟩
      exact ⟨rfl, position, node, hat, hclass⟩
    · rintro ⟨rfl, position, node, hat, hclass⟩
      exact ⟨rfl, node, ⟨position, hat⟩, hclass⟩
  · rw [matchesIn_eq_declaredIn htargets]
    simp [htargets]

namespace Session

/-- The index at a place. -/
def recorded (session : Session) : Destination → Index
  | .own => session.finder.index
  | .other number => session.others number

theorem recorded_update (session : Session) (into place : Destination) (change : Index → Index) :
    (session.update into change).recorded place =
      if place = into then change (session.recorded place) else session.recorded place := by
  cases into with
  | own =>
      cases place with
      | own => rfl
      | other number => rfl
  | other number =>
      cases place with
      | own => rfl
      | other place =>
          by_cases hplace : place = number
          · simp [recorded, update, hplace]
          · simp [recorded, update, hplace]

theorem runOn_bind_of_ok {α β : Type} {action : Action α} {session later : Session} {value : α}
    (haction : action.runOn session = (.ok value, later)) (next : α → Action β) :
    (action >>= next).runOn session = (next value).runOn later := by
  rw [Action.runOn] at haction ⊢
  rw [ExceptT.run_bind, StateT.run_bind, Id.run_bind, haction]
  rfl

theorem runOn_bind_of_error {α β : Type} {action : Action α} {session later : Session}
    {fault : Fault} (haction : action.runOn session = (.error fault, later)) (next : α → Action β) :
    (action >>= next).runOn session = (.error fault, later) := by
  rw [Action.runOn] at haction ⊢
  rw [ExceptT.run_bind, StateT.run_bind, Id.run_bind, haction]
  rfl

/-- One target after the other is given a list. -/
theorem runOn_ensureEach (session : Session) (targets : List String) :
    Action.runOn (targets.forM fun target => modify (·.update .own (·.ensure target))) session =
      (.ok (), session.update .own (·.ensureAll targets)) := by
  induction targets generalizing session with
  | nil => rfl
  | cons first rest ih => exact ih (session.update .own (·.ensure first))

theorem runOn_takeTargets_of_ok {session : Session} {names : List String} {finder : Finder}
    (hset : session.finder.setTargets names = .ok finder) :
    (takeTargets names).runOn session = (.ok (), { session with finder }) := by
  rw [setTargets] at hset
  rw [takeTargets]
  split_ifs at hset ⊢
  obtain rfl := Except.ok.inj hset
  exact runOn_ensureEach { session with finder := { session.finder with targets := distinct names } } _

theorem runOn_takeTargets_of_error {session : Session} {names : List String} {fault : Fault}
    (hset : session.finder.setTargets names = .error fault) :
    (takeTargets names).runOn session = (.error fault, session) := by
  rw [setTargets] at hset
  rw [takeTargets]
  split_ifs at hset ⊢
  obtain rfl := Except.error.inj hset
  rfl

theorem perform_setTargets_of_named (session : Session) {names : List String} (hnamed : "" ∉ names) :
    session.perform (.setTargets names) =
      (.ok .nothing,
        { session with
          finder := ⟨distinct names, session.finder.index.ensureAll (distinct names)⟩ }) :=
  runOn_bind_of_ok (runOn_takeTargets_of_ok (setTargets_of_named _ hnamed)) _

theorem perform_setTargets_of_unnamed (session : Session) {names : List String} (hempty : "" ∈ names) :
    session.perform (.setTargets names) = (.error .emptyTargetName, session) :=
  runOn_bind_of_error (runOn_takeTargets_of_error (setTargets_of_unnamed _ hempty)) _

/-- The older call warns and does the same. -/
theorem perform_setTarget (session : Session) (name : String) :
    session.perform (.setTarget name) = (session.warn deprecation).perform (.setTargets [name]) :=
  rfl

theorem perform_find_of_ok {session : Session} {tree : Tree} {found : List Match}
    (hfound : session.finder.matchesIn tree = .ok found) (into : Destination) :
    session.perform (.find tree into) =
      (.ok (.count found.length), session.update into (·.merge found)) := by
  have hlift : Action.runOn (session.finder.matchesIn tree) session = (.ok found, session) := by
    rw [hfound]
    rfl
  have hrecord : (recordMatches tree into).runOn session =
      (.ok found.length, session.update into (·.merge found)) :=
    runOn_bind_of_ok hlift _
  exact runOn_bind_of_ok hrecord _

theorem perform_find_of_error {session : Session} {tree : Tree} {fault : Fault}
    (hfound : session.finder.matchesIn tree = .error fault) (into : Destination) :
    session.perform (.find tree into) = (.error fault, session) := by
  have hlift : Action.runOn (session.finder.matchesIn tree) session = (.error fault, session) := by
    rw [hfound]
    rfl
  have hrecord : (recordMatches tree into).runOn session = (.error fault, session) :=
    runOn_bind_of_error hlift _
  exact runOn_bind_of_error hrecord _

theorem perform_setTargets_eq_error_iff {session : Session} {names : List String} {fault : Fault} :
    (session.perform (.setTargets names)).1 = .error fault ↔
      fault = .emptyTargetName ∧ "" ∈ names := by
  by_cases hempty : "" ∈ names
  · rw [perform_setTargets_of_unnamed _ hempty]
    simp [hempty, eq_comm]
  · rw [perform_setTargets_of_named _ hempty]
    simp [hempty]

theorem perform_find_eq_error_iff {session : Session} {tree : Tree} {into : Destination}
    {fault : Fault} :
    (session.perform (.find tree into)).1 = .error fault ↔
      session.finder.matchesIn tree = .error fault := by
  cases hfound : session.finder.matchesIn tree with
  | error other => rw [perform_find_of_error hfound]; simp
  | ok found => rw [perform_find_of_ok hfound]; simp

/-- A call that fails leaves the finder and every index alone. -/
theorem kept_of_error {session : Session} {call : Call} {fault : Fault}
    (herror : (session.perform call).1 = .error fault) :
    (session.perform call).2.finder = session.finder ∧
      (session.perform call).2.others = session.others := by
  have hset (earlier : Session) (names : List String)
      (herror : (earlier.perform (.setTargets names)).1 = .error fault) :
      (earlier.perform (.setTargets names)).2 = earlier := by
    obtain ⟨-, hempty⟩ := perform_setTargets_eq_error_iff.mp herror
    rw [perform_setTargets_of_unnamed _ hempty]
  cases call with
  | setTargets names =>
      rw [hset session names herror]
      exact ⟨rfl, rfl⟩
  | setTarget name =>
      rw [perform_setTarget] at herror ⊢
      rw [hset _ _ herror]
      exact ⟨rfl, rfl⟩
  | find tree into =>
      rw [perform_find_of_error (perform_find_eq_error_iff.mp herror)]
      exact ⟨rfl, rfl⟩

/-- Whatever a call does, recorded classes stay where they are and new ones come behind them. -/
theorem get_perform (session : Session) (call : Call) (place : Destination) (target : String) :
    (session.recorded place).get target <+: ((session.perform call).2.recorded place).get target := by
  have hset (earlier : Session) (names : List String) :
      (earlier.recorded place).get target <+:
        ((earlier.perform (.setTargets names)).2.recorded place).get target := by
    by_cases hempty : "" ∈ names
    · simp only [perform_setTargets_of_unnamed _ hempty, List.prefix_rfl]
    · rw [perform_setTargets_of_named _ hempty]
      cases place with
      | own =>
          have hkept := Index.get_ensureAll earlier.finder.index (distinct names) target
          simp only [recorded, hkept, List.prefix_rfl]
      | other number => exact List.prefix_rfl
  cases call with
  | setTargets names => exact hset session names
  | setTarget name => exact hset (session.warn deprecation) [name]
  | find tree into =>
      cases hfound : session.finder.matchesIn tree with
      | error fault => simp only [perform_find_of_error hfound, List.prefix_rfl]
      | ok found =>
          rw [perform_find_of_ok hfound, recorded_update]
          split_ifs
          · rw [Index.get_merge]
            exact List.prefix_append ..
          · exact List.prefix_rfl

theorem get_after (session : Session) (calls : List Call) (place : Destination) (target : String) :
    (session.recorded place).get target <+: ((session.after calls).recorded place).get target := by
  induction calls generalizing session with
  | nil => exact List.prefix_rfl
  | cons call rest ih => exact (session.get_perform call place target).trans (ih _)

/-- In every state that calls lead to, a search fails just when there are no targets and the tree has a named class on
named nodes only, and new targets are refused just when one of them is empty. A call that fails leaves the targets, the
finder's own index and all others as they were. New targets are kept at their first occurrence, each with a list, and
take nothing away from what was recorded; nor does any other call. -/
theorem failed_calls_change_nothing (start : Session) (calls : List Call) :
    let session := start.after calls
    (∀ tree into fault, (session.perform (.find tree into)).1 = .error fault ↔
      fault = .noTargets ∧ session.finder.targets = [] ∧
        ∃ position node, Tree.At (·.label.named) tree position node ∧ DeclaresClass node) ∧
    (∀ names fault, (session.perform (.setTargets names)).1 = .error fault ↔
      fault = .emptyTargetName ∧ "" ∈ names) ∧
    (∀ name fault, (session.perform (.setTarget name)).1 = .error fault ↔
      fault = .emptyTargetName ∧ name = "") ∧
    (∀ call fault, (session.perform call).1 = .error fault →
      (session.perform call).2.finder = session.finder ∧
        (session.perform call).2.others = session.others) ∧
    (∀ names reply, (session.perform (.setTargets names)).1 = .ok reply →
      let next := (session.perform (.setTargets names)).2
      next.finder.targets = names.eraseDups ∧
      next.finder.index.toMatches = session.finder.index.toMatches ∧
      (∀ target, next.finder.index.get target = session.finder.index.get target) ∧
      next.others = session.others) ∧
    ∀ place target, (start.recorded place).get target <+: (session.recorded place).get target := by
  intro session
  refine ⟨?_, ?_, ?_, ?_, ?_, ?_⟩
  · intro tree into fault
    rw [perform_find_eq_error_iff, matchesIn_eq_error_iff]
  · intro names fault
    exact perform_setTargets_eq_error_iff
  · intro name fault
    rw [perform_setTarget, perform_setTargets_eq_error_iff, List.mem_singleton, eq_comm (a := "")]
  · intro call fault herror
    exact kept_of_error herror
  · intro names reply hreply
    have hnamed : "" ∉ names := by
      intro hempty
      rw [perform_setTargets_of_unnamed _ hempty] at hreply
      contradiction
    rw [perform_setTargets_of_named _ hnamed]
    exact ⟨distinct_eq_eraseDups names, Index.toMatches_ensureAll _ _, Index.get_ensureAll _ _, rfl⟩
  · exact start.get_after calls

end Session

end Finder

end Roster
