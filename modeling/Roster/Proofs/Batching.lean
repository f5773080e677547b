import Mathlib.Algebra.Order.Floor.Div
import Mathlib.Data.List.Basic
import Roster.Scan.Plan

/-! Batches and chunks hold the files they are cut from: every file once, in order. All but the last are of one size, so
that there are as many of them as it takes. The size of chunks is a rounded quotient, which leaves files over: there is
a chunk for each unit that may run at a time, if the files suffice, and there are fewer than two for each. -/

namespace Roster.Scan

theorem flatten_cut {α : Type} (size : Nat) (xs : List α) : (cut size xs).flatten = xs := by
  fun_induction cut size xs with
  | case1 => rfl
  | case2 x xs ih =>
      rw [List.flatten_cons, ih, List.cons_append, List.take_append_drop]

/-- Pieces of a list, in order: none is empty or larger than the size, all but the last have the size, and there are
as many as it takes. -/
structure Pieces {α : Type} (size : Nat) (xs : List α) (pieces : List (List α)) : Prop where
  flatten : pieces.flatten = xs
  nonempty : ∀ piece ∈ pieces, piece ≠ []
  bounded : ∀ piece ∈ pieces, piece.length ≤ size
  full : ∀ piece ∈ pieces.dropLast, piece.length = size
  count : pieces.length = xs.length ⌈/⌉ size

section Cut

variable {α : Type} {size : Nat} (hsize : 0 < size)

theorem ne_nil_of_mem_cut (size : Nat) (xs : List α) : ∀ piece ∈ cut size xs, piece ≠ [] := by
  fun_induction cut size xs with
  | case1 => simp
  | case2 x xs ih =>
      intro piece hpiece
      rcases List.mem_cons.mp hpiece with rfl | hlater
      · simp
      · exact ih piece hlater

include hsize

theorem length_le_of_mem_cut (xs : List α) : ∀ piece ∈ cut size xs, piece.length ≤ size := by
  fun_induction cut size xs with
  | case1 => simp
  | case2 x xs ih =>
      intro piece hpiece
      rcases List.mem_cons.mp hpiece with rfl | hlater
      · simp only [List.length_cons, List.length_take]
        omega
      · exact ih piece hlater

/-- A piece that is not the last is full, because files are left behind it. -/
theorem length_of_mem_dropLast_cut (xs : List α) :
    ∀ piece ∈ (cut size xs).dropLast, piece.length = size := by
  fun_induction cut size xs with
  | case1 => simp
  | case2 x xs ih =>
      intro piece hpiece
      cases hrest : xs.drop (size - 1) with
      | nil =>
          rw [hrest, cut] at hpiece
          simp at hpiece
      | cons next rest =>
          have hlater : cut size (next :: rest) ≠ [] := by
            rw [cut]
            simp
          rw [hrest] at ih hpiece
          rw [List.dropLast_cons_of_ne_nil hlater] at hpiece
          rcases List.mem_cons.mp hpiece with rfl | hmem
          · have hleft : (xs.drop (size - 1)).length = rest.length + 1 := by rw [hrest, List.length_cons]
            simp only [List.length_drop] at hleft
            simp only [List.length_cons, List.length_take]
            omega
          · exact ih piece hmem

/-- So many pieces are enough exactly when so many full ones would hold the list. -/
theorem length_cut_le_iff (xs : List α) (count : Nat) :
    (cut size xs).length ≤ count ↔ xs.length ≤ size * count := by
  fun_induction cut size xs generalizing count with
  | case1 => simp
  | case2 x xs ih =>
      cases count with
      | zero => simp
      | succ count =>
          have hstep : (cut size (xs.drop (size - 1))).length ≤ count ↔
              xs.length - (size - 1) ≤ size * count := by
            rw [ih, List.length_drop]
          rw [List.length_cons, List.length_cons, Nat.mul_succ]
          omega

theorem length_cut (xs : List α) : (cut size xs).length = xs.length ⌈/⌉ size := by
  apply eq_of_forall_ge_iff
  intro count
  rw [length_cut_le_iff hsize, ceilDiv_le_iff_le_mul hsize]

theorem pieces_cut (xs : List α) : Pieces size xs (cut size xs) where
  flatten := flatten_cut size xs
  nonempty := ne_nil_of_mem_cut size xs
  bounded := length_le_of_mem_cut hsize xs
  full := length_of_mem_dropLast_cut hsize xs
  count := length_cut hsize xs

end Cut

namespace Plan

theorem flatten_batches {α : Type} (plan : Plan) (files : List α) :
    (plan.batches files).flatten = files :=
  flatten_cut _ files

theorem flatten_chunks {α : Type} (plan : Plan) (batch : List α) :
    (plan.chunks batch).flatten = batch :=
  flatten_cut _ batch

variable {α : Type} (plan : Plan)

/-- The size of chunks is rounded down, so no unit goes without one unless the files run out. -/
theorem min_le_length_chunks (batch : List α) :
    min batch.length plan.concurrency ≤ (plan.chunks batch).length := by
  have hsize : 0 < max 1 (batch.length / plan.concurrency) := by omega
  have henough : batch.length ≤
      max 1 (batch.length / plan.concurrency) * (plan.chunks batch).length :=
    (length_cut_le_iff hsize batch _).mp (Nat.le_refl _)
  generalize (plan.chunks batch).length = count at henough ⊢
  by_cases hfew : batch.length / plan.concurrency = 0
  · rw [hfew, Nat.max_eq_left (Nat.zero_le 1), Nat.one_mul] at henough
    omega
  · rw [Nat.max_eq_right (Nat.one_le_iff_ne_zero.mpr hfew)] at henough
    have hunits : batch.length / plan.concurrency * plan.concurrency ≤
        batch.length / plan.concurrency * count :=
      (Nat.div_mul_le_self _ _).trans henough
    have hcount : plan.concurrency ≤ count :=
      Nat.le_of_mul_le_mul_left hunits (Nat.pos_of_ne_zero hfew)
    omega

/-- The division leaves over fewer files than there are units, and these are at most as many chunks more. -/
theorem length_chunks_le (hunits : 1 ≤ plan.concurrency) (batch : List α) :
    (plan.chunks batch).length ≤ 2 * plan.concurrency - 1 := by
  have hsize : 0 < max 1 (batch.length / plan.concurrency) := by omega
  apply (length_cut_le_iff hsize batch _).mpr
  have hover : batch.length % plan.concurrency ≤ plan.concurrency - 1 := by
    have hlt := Nat.mod_lt batch.length hunits
    omega
  calc batch.length
    _ = plan.concurrency * (batch.length / plan.concurrency) + batch.length % plan.concurrency :=
      (Nat.div_add_mod _ _).symm
    _ ≤ plan.concurrency * max 1 (batch.length / plan.concurrency) +
        (plan.concurrency - 1) * max 1 (batch.length / plan.concurrency) := by
      apply Nat.add_le_add
      · exact Nat.mul_le_mul_left _ (Nat.le_max_right ..)
      · exact hover.trans (Nat.le_mul_of_pos_right _ hsize)
    _ = max 1 (batch.length / plan.concurrency) * (2 * plan.concurrency - 1) := by
      rw [← Nat.add_mul, Nat.mul_comm]
      congr 1
      omega

/-- One file less than two for each unit: every file is a chunk of its own. -/
theorem length_chunks_eq (hunits : 1 ≤ plan.concurrency) {batch : List α}
    (hbatch : batch.length = 2 * plan.concurrency - 1) :
    (plan.chunks batch).length = 2 * plan.concurrency - 1 := by
  have hone : batch.length / plan.concurrency ≤ 1 := by
    rw [← Nat.lt_succ_iff, Nat.div_lt_iff_lt_mul hunits]
    omega
  rw [chunks, Nat.max_eq_left hone, length_cut Nat.one_pos, hbatch, Nat.ceilDiv_eq_add_pred_div,
    Nat.add_sub_cancel, Nat.div_one]

/-- The batch size that is asked for; zero asks for none, and then the profile tells it. -/
def batchSizeFor (profile : Profile) : Option Int → Int
  | none => profile.batchSize
  | some size => if size = 0 then profile.batchSize else size

/-- A plan can be made for any targets, and it is sized as the profile and the override say. -/
theorem make_eq_ok {targets : List String} (hsome : targets ≠ []) (profile : Profile)
    (batchSize : Option Int) (progressive : Option Bool) :
    ∃ plan, make targets profile batchSize progressive = .ok plan ∧ plan.targets = targets ∧
      plan.batchSize = batchSizeFor profile batchSize ∧ plan.concurrency = profile.concurrency := by
  have hempty : ¬ targets.isEmpty = true := by simpa using hsome
  rw [make, if_neg hempty]
  refine ⟨_, rfl, rfl, ?_, rfl⟩
  cases batchSize with
  | none => rfl
  | some size =>
      by_cases hzero : size = 0 <;> simp [batchSizeFor, Option.filter, hzero]

theorem sizes_of_make {targets : List String} {profile : Profile} {batchSize : Option Int}
    {progressive : Option Bool} {plan : Plan}
    (hplan : make targets profile batchSize progressive = .ok plan) :
    targets ≠ [] ∧ plan.targets = targets ∧ plan.batchSize = batchSizeFor profile batchSize := by
  by_cases hsome : targets = []
  · subst hsome
    cases hplan
  · obtain ⟨made, hmade, htargets, hsize, -⟩ := make_eq_ok hsome profile batchSize progressive
    obtain rfl := Except.ok.inj (hmade.symm.trans hplan)
    exact ⟨hsome, htargets, hsize⟩

/-- Whatever the host and the batch size asked for, batches are cut from the files and chunks from a batch without loss
or change of order, and none is empty. All batches but the last have the size asked for, or one if that is less, and
there are as many as it takes. At least one unit may run at a time; all chunks but the last have one size, and there is
a chunk for each unit unless the files run out, and fewer than two for each, a bound that is reached. -/
theorem work_is_cut_into_bounded_pieces (α : Type) {targets : List String} (hsome : targets ≠ [])
    (profile : Profile) (batchSize : Option Int) (progressive : Option Bool) :
    ∃ plan, make targets profile batchSize progressive = .ok plan ∧
      (∃ size : Nat, size = max 1 (batchSizeFor profile batchSize) ∧
        ∀ files : List α, Pieces size files (plan.batches files)) ∧
      plan.concurrency = profile.concurrency ∧ 1 ≤ plan.concurrency ∧
      (∀ batch : List α, (∃ size, 0 < size ∧ Pieces size batch (plan.chunks batch)) ∧
        min batch.length plan.concurrency ≤ (plan.chunks batch).length ∧
        (plan.chunks batch).length ≤ 2 * plan.concurrency - 1) ∧
      ∀ batch : List α, batch.length = 2 * plan.concurrency - 1 →
        (plan.chunks batch).length = 2 * plan.concurrency - 1 := by
  obtain ⟨plan, hplan, -, hsize, hunits⟩ := make_eq_ok hsome profile batchSize progressive
  have hone : 1 ≤ plan.concurrency := hunits ▸ profile.one_le_concurrency
  refine ⟨plan, hplan, ⟨(max 1 plan.batchSize).toNat, ?_, ?_⟩, hunits, hone, ?_, ?_⟩
  · rw [← hsize]
    omega
  · intro files
    apply pieces_cut
    omega
  · intro batch
    refine ⟨⟨max 1 (batch.length / plan.concurrency), by omega, ?_⟩, ?_, ?_⟩
    · apply pieces_cut
      omega
    · exact plan.min_le_length_chunks batch
    · exact plan.length_chunks_le hone batch
  · intro batch hbatch
    exact plan.length_chunks_eq hone hbatch

/-- A host with one core, which is left to the rest of it. -/
def loneCore : Profile :=
  { cpuCores := 1, cpuScore := 1, memoryAvailable := 1, memoryScore := 1, diskScore := 1 }

theorem five_files_are_cut_in_twos :
    ["I"] ≠ [] ∧ ∃ plan, make ["I"] loneCore (some 2) none = .ok plan ∧
      (plan.batches [1, 2, 3, 4, 5]).flatten = [1, 2, 3, 4, 5] ∧
      (plan.batches [1, 2, 3, 4, 5]).length = 3 ∧
      (∀ batch ∈ (plan.batches [1, 2, 3, 4, 5]).dropLast, batch.length = 2) ∧
      (plan.chunks [1, 2]).length ≤ 2 * plan.concurrency - 1 := by
  obtain ⟨plan, hplan, ⟨size, hsize, hbatches⟩, -, -, hchunks, -⟩ :=
    work_is_cut_into_bounded_pieces Nat (by decide : ["I"] ≠ []) loneCore (some 2) none
  obtain rfl : size = 2 := by
    have htwo : max 1 (batchSizeFor loneCore (some 2)) = 2 := by simp [batchSizeFor]
    omega
  have hfive := hbatches [1, 2, 3, 4, 5]
  exact ⟨by decide, plan, hplan, hfive.flatten, hfive.count.trans (by decide), hfive.full,
    (hchunks [1, 2]).2.2⟩

end Plan

end Roster.Scan
