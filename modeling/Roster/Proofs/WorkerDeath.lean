import Mathlib.Data.List.Basic
import Roster.Scan.Pool

/-! Which units a pool loses. A unit ends only if none of its paths is fatal at that moment; from the first fatal path
on everything is lost. Faults only wear off: what kills a worker always stays, what kills one once goes away. -/

namespace Roster.Scan

namespace WorkerFaults

/-- A worker dies on the path, now and whenever it comes again. -/
def alwaysFatal (faults : WorkerFaults) (path : String) : Bool :=
  faults.always.any (hasEnding path)

/-- A worker dies on the path now. -/
def isFatal (faults : WorkerFaults) (path : String) : Bool :=
  faults.alwaysFatal path || faults.once.any (hasEnding path)

/-- What may be left of faults. -/
structure Within (left faults : WorkerFaults) : Prop where
  always_eq : left.always = faults.always
  once_sublist : left.once.Sublist faults.once

theorem Within.refl (faults : WorkerFaults) : Within faults faults :=
  ⟨rfl, List.Sublist.refl _⟩

theorem Within.trans {first middle last : WorkerFaults} (hfirst : Within first middle)
    (hlast : Within middle last) : Within first last :=
  ⟨hfirst.always_eq.trans hlast.always_eq, hfirst.once_sublist.trans hlast.once_sublist⟩

theorem Within.alwaysFatal_eq {left faults : WorkerFaults} (hwithin : Within left faults)
    (path : String) : left.alwaysFatal path = faults.alwaysFatal path := by
  rw [alwaysFatal, hwithin.always_eq, alwaysFatal]

theorem Within.isFatal {left faults : WorkerFaults} (hwithin : Within left faults) {path : String}
    (hfatal : left.isFatal path = true) : faults.isFatal path = true := by
  rw [WorkerFaults.isFatal, hwithin.alwaysFatal_eq, Bool.or_eq_true] at hfatal
  rw [WorkerFaults.isFatal, Bool.or_eq_true]
  rcases hfatal with halways | honce
  · exact Or.inl halways
  · obtain ⟨ending, hmem, hending⟩ := List.any_eq_true.mp honce
    exact Or.inr (List.any_eq_true.mpr ⟨ending, hwithin.once_sublist.subset hmem, hending⟩)

theorem isFatal_of_alwaysFatal {faults : WorkerFaults} {path : String}
    (halways : faults.alwaysFatal path = true) : faults.isFatal path = true := by
  rw [isFatal, halways, Bool.true_or]

/-- One path: it is fatal or it is not, and only a fatal one wears faults off. -/
theorem strikePath_spec (faults : WorkerFaults) (path : String) :
    (faults.strikePath path).1 = faults.isFatal path ∧
    Within (faults.strikePath path).2 faults ∧
    (faults.isFatal path = false → (faults.strikePath path).2 = faults) := by
  rw [strikePath, isFatal, alwaysFatal]
  cases halways : faults.always.any (hasEnding path) with
  | true => exact ⟨rfl, Within.refl _, fun h => absurd h (by simp)⟩
  | false =>
      rw [if_neg Bool.false_ne_true, Bool.false_or]
      cases hfind : faults.once.find? (hasEnding path) with
      | none =>
          have hnone : faults.once.any (hasEnding path) = false := by
            rw [List.any_eq_false]
            exact List.find?_eq_none.mp hfind
          exact ⟨hnone.symm, Within.refl _, fun _ => rfl⟩
      | some ending =>
          have hany : faults.once.any (hasEnding path) = true :=
            List.any_eq_true.mpr ⟨ending, List.mem_of_find?_eq_some hfind, List.find?_some hfind⟩
          refine ⟨hany.symm, ⟨rfl, List.erase_sublist⟩, fun h => ?_⟩
          rw [hany] at h
          contradiction

/-- A unit: it is lost when one of its paths is fatal, and otherwise nothing wears off. -/
theorem strike_spec (faults : WorkerFaults) (paths : List String) :
    (faults.strike paths).1 = paths.any faults.isFatal ∧
    Within (faults.strike paths).2 faults ∧
    (paths.any faults.isFatal = false → (faults.strike paths).2 = faults) := by
  induction paths with
  | nil => exact ⟨rfl, Within.refl _, fun _ => rfl⟩
  | cons path paths ih =>
      obtain ⟨hfatal, hwithin, hkept⟩ := strikePath_spec faults path
      rw [strike, List.any_cons]
      generalize faults.strikePath path = struck at hfatal hwithin hkept ⊢
      obtain ⟨fatal, left⟩ := struck
      dsimp only at hfatal hwithin hkept
      rw [← hfatal] at hkept ⊢
      cases fatal with
      | true => exact ⟨rfl, hwithin, fun h => absurd h (by simp)⟩
      | false =>
          rw [hkept rfl, Bool.false_or]
          exact ih

end WorkerFaults

/-- A file is fatal if its path is. -/
def WorkerFaults.isFatalFile (faults : WorkerFaults) (file : Candidate) : Bool :=
  faults.isFatal (toString file.path)

theorem any_paths (faults : WorkerFaults) (chunk : Chunk) :
    (Chunk.paths chunk).any faults.isFatal = chunk.any faults.isFatalFile := by
  rw [Chunk.paths, List.any_map]
  rfl

theorem submit_broken (scan : List String → Except Fault (List FileResult)) (faults : WorkerFaults)
    (chunks : List Chunk) :
    submit scan true faults chunks = (chunks.map fun chunk => (chunk, .lost), faults) := by
  induction chunks with
  | nil => rfl
  | cons chunk chunks ih =>
      rw [submit, if_pos rfl, ih]
      rfl

/-- How a pool that works takes units: some end, the rest is lost from the first with a fatal file on. -/
theorem submit_spec (scan : List String → Except Fault (List FileResult)) (faults : WorkerFaults)
    (chunks : List Chunk) :
    ∃ done lost : List Chunk, chunks = done ++ lost ∧
      (submit scan false faults chunks).1 =
        (done.map fun chunk => (chunk, .ended (scan (Chunk.paths chunk)))) ++
          (lost.map fun chunk => (chunk, .lost)) ∧
      (∀ chunk ∈ done, chunk.any faults.isFatalFile = false) ∧
      (∀ chunk ∈ lost.head?, chunk.any faults.isFatalFile = true) ∧
      WorkerFaults.Within (submit scan false faults chunks).2 faults := by
  induction chunks with
  | nil => exact ⟨[], [], rfl, rfl, nofun, nofun, .refl _⟩
  | cons chunk chunks ih =>
      obtain ⟨hfatal, hwithin, hkept⟩ := faults.strike_spec (Chunk.paths chunk)
      rw [any_paths] at hfatal hkept
      rw [submit, if_neg Bool.false_ne_true]
      generalize faults.strike (Chunk.paths chunk) = struck at hfatal hwithin hkept ⊢
      obtain ⟨fatal, left⟩ := struck
      dsimp only at hfatal hwithin hkept
      rw [← hfatal] at hkept
      cases fatal with
      | true =>
          refine ⟨[], chunk :: chunks, rfl, ?_, nofun, ?_, ?_⟩
          · dsimp only
            rw [submit_broken]
            rfl
          · intro first hfirst
            obtain rfl := Option.some.inj hfirst
            exact hfatal.symm
          · dsimp only
            rw [submit_broken]
            exact hwithin
      | false =>
          obtain ⟨done, lost, hchunks, hends, hdone, hlost, hleft⟩ := ih
          dsimp only
          rw [hkept rfl]
          refine ⟨chunk :: done, lost, ?_, ?_, ?_, hlost, hleft⟩
          · rw [hchunks]
            rfl
          · rw [hends]
            rfl
          · intro other hother
            rcases List.mem_cons.mp hother with rfl | hrest
            · exact hfatal.symm
            · exact hdone other hrest

/-- The units of a submission that ended. -/
def endedUnits (ends : List (Chunk × UnitEnd)) : List Chunk :=
  ends.filterMap fun unit =>
    match unit.2 with
    | .lost => none
    | .ended _ => some unit.1

section Units

variable (outcome : Chunk → Except Fault (List FileResult)) (done lost : List Chunk)

theorem lostUnits_split :
    lostUnits ((done.map fun chunk => (chunk, .ended (outcome chunk))) ++
      (lost.map fun chunk => (chunk, .lost))) = lost := by
  simp [lostUnits, List.filterMap_map]

theorem endedUnits_split :
    endedUnits ((done.map fun chunk => (chunk, .ended (outcome chunk))) ++
      (lost.map fun chunk => (chunk, .lost))) = done := by
  simp [endedUnits, List.filterMap_map]

end Units

end Roster.Scan
