import Roster.Artifact.Store
import Roster.Proofs.FileScan
import Roster.Proofs.JsonRoundTrip
import Roster.Proofs.PhpRoundTrip

/-! The bytes of an artifact and its name. Neither format writes a carriage return unless a class name of a PHP
artifact holds one, so reading the bytes with any kind of line end changes nothing. -/

namespace Roster.Artifact

open Roster.Text

namespace PhpArray

theorem return_not_mem_escape {cs : List Char} (hcs : '\r' ∉ cs) : '\r' ∉ escape cs := by
  rw [escape_eq_flatMap, List.mem_flatMap]
  rintro ⟨c, hmem, hc⟩
  rw [escapeChar] at hc
  split_ifs at hc
  · simp only [List.mem_cons, List.not_mem_nil, or_false] at hc
    rcases hc with hc | rfl
    · contradiction
    · exact hcs hmem
  · rw [List.mem_singleton] at hc
    exact hcs (hc ▸ hmem)

theorem return_not_mem_repr (position : Nat) : '\r' ∉ (Nat.repr position).toList := by
  intro hmem
  rw [Nat.toList_repr] at hmem
  have hdigit := Nat.isDigit_of_mem_toDigits (by decide) (by decide) hmem
  contradiction

theorem return_not_mem_items {values : List String} (hvalues : ∀ value ∈ values, '\r' ∉ value.toList)
    (position : Nat) : '\r' ∉ items position values := by
  induction values generalizing position with
  | nil => exact List.not_mem_nil
  | cons value values ih =>
      have hvalue := return_not_mem_escape (hvalues value List.mem_cons_self)
      have hrest := ih (fun other hother => hvalues other (List.mem_cons_of_mem _ hother)) (position + 1)
      rw [items, item]
      simp only [List.mem_append, not_or]
      exact ⟨⟨⟨⟨⟨by decide, return_not_mem_repr position⟩, by decide⟩, hvalue⟩, by decide⟩, hrest⟩

theorem return_not_mem_render {values : List String}
    (hvalues : ∀ value ∈ values, '\r' ∉ value.toList) : '\r' ∉ (render values).toList := by
  rw [toList_render]
  simp only [List.mem_append, not_or]
  exact ⟨by decide, return_not_mem_items hvalues 0, by decide⟩

theorem parse_of_render (values : List String) : parse (render values) = values := by
  rw [parse, strings_render, List.map_map]
  exact List.map_id'' (fun value => String.ofList_toList) values

end PhpArray

namespace JsonArray

open Roster.Json

theorem hexDigit_ne_return : ∀ digit < 16, hexDigit digit ≠ '\r' := by
  decide

theorem return_not_mem_unitEscape (n : Nat) : '\r' ∉ unitEscape n := by
  have hdigit : ∀ k, '\r' ≠ hexDigit (k % 16) :=
    fun k => (hexDigit_ne_return _ (Nat.mod_lt _ (by decide))).symm
  rw [unitEscape, hexDigits_four]
  simp [hdigit]

theorem return_not_mem_escapeChar (c : Char) : '\r' ∉ escapeChar c := by
  unfold escapeChar
  split
  · decide
  · decide
  · decide
  · decide
  · decide
  · decide
  · decide
  · next hreturn _ _ _ =>
      dsimp only
      split_ifs
      · rw [List.mem_singleton]
        exact Ne.symm hreturn
      · exact return_not_mem_unitEscape _
      · rw [List.mem_append, not_or]
        exact ⟨return_not_mem_unitEscape _, return_not_mem_unitEscape _⟩

theorem return_not_mem_quoteChars (cs : List Char) : '\r' ∉ quoteChars cs := by
  have hescaped : '\r' ∉ cs.flatMap escapeChar := by
    rw [List.mem_flatMap]
    rintro ⟨c, -, hc⟩
    exact return_not_mem_escapeChar c hc
  rw [quoteChars]
  simp [hescaped]

theorem return_not_mem_items (values : List String) : '\r' ∉ items values := by
  fun_induction items values with
  | case1 => exact List.not_mem_nil
  | case2 value => simp [return_not_mem_quoteChars]
  | case3 value rest hrest ih => simp [return_not_mem_quoteChars, ih]

theorem return_not_mem_render (values : List String) : '\r' ∉ (render values).toList := by
  rw [render, String.toList_ofList]
  simp [return_not_mem_items]

end JsonArray

/-- The bytes of an artifact are read as what they were written for. -/
theorem parse_decode_render {format : Format} {classNames : List String}
    (hreturn : format = .php → ∀ className ∈ classNames, '\r' ∉ className.toList) :
    (do
      let text ← (Utf8.decode (render format classNames).toUTF8).mapError LoadFault.undecodable
      (parse format text).mapError LoadFault.content) = .ok classNames := by
  cases format with
  | php =>
      have hdecode := Utf8.decode_toUTF8 (PhpArray.return_not_mem_render (hreturn rfl))
      change ((Utf8.decode (PhpArray.render classNames).toUTF8).mapError _ >>= _) = _
      rw [hdecode]
      exact congrArg Except.ok (PhpArray.parse_of_render classNames)
  | json =>
      have hdecode := Utf8.decode_toUTF8 (JsonArray.return_not_mem_render classNames)
      change ((Utf8.decode (JsonArray.render classNames).toUTF8).mapError _ >>= _) = _
      rw [hdecode]
      change (JsonArray.parse (JsonArray.render classNames)).mapError LoadFault.content = _
      rw [JsonArray.parse_render]
      rfl

end Roster.Artifact
