import Mathlib.Data.List.Basic
import Roster.Artifact.Format

/-! Reading an artifact of JSON gives back the class names it was written for, whatever characters they hold. A
character is written as one of three things, a character, a 16-bit unit or a pair of units, and each is read as pieces
that join to the character again, whatever pieces follow. -/

namespace Roster.Json

open Roster.Text

theorem hexValue?_hexDigit : ∀ digit < 16, hexValue? (hexDigit digit) = some digit := by
  decide

theorem hexDigits_four (n : Nat) :
    hexDigits 4 n =
      [hexDigit (n / 4096 % 16), hexDigit (n / 256 % 16), hexDigit (n / 16 % 16),
        hexDigit (n % 16)] := by
  have h256 : n / 16 / 16 = n / 256 := Nat.div_div_eq_div_mul ..
  have h4096 : n / 256 / 16 = n / 4096 := Nat.div_div_eq_div_mul ..
  simp only [hexDigits, List.nil_append, List.cons_append, h256, h4096]

theorem hexUnit?_digits {n : Nat} (hn : n < 0x10000) :
    hexUnit? (hexDigit (n / 4096 % 16)) (hexDigit (n / 256 % 16)) (hexDigit (n / 16 % 16))
      (hexDigit (n % 16)) = some n := by
  have hvalue : ∀ k, hexValue? (hexDigit (k % 16)) = some (k % 16) :=
    fun k => hexValue?_hexDigit _ (Nat.mod_lt _ (by decide))
  have hsum : ((n / 4096 % 16 * 16 + n / 256 % 16) * 16 + n / 16 % 16) * 16 + n % 16 = n := by
    omega
  simp only [hexUnit?, hvalue, Option.bind_eq_bind, Option.bind_some, Option.pure_def, hsum]

theorem readPieces_unitEscape {n : Nat} (hn : n < 0x10000) (opened : Nat) (c : Char)
    (rest : List Char) :
    readPieces opened (unitEscape n ++ c :: rest) =
      (readPieces opened (c :: rest)).map fun read => (.unit n :: read.1, read.2) := by
  rw [unitEscape, hexDigits_four]
  simp only [List.cons_append, List.nil_append]
  rw [readPieces]
  simp only [hexUnit?_digits hn]
  cases readPieces opened (c :: rest) with
  | error stop => rfl
  | ok read => rfl

theorem readPieces_shortEscape {letter c : Char} (hletter : letter ≠ 'u')
    (hescape : escape? letter = some c) (opened : Nat) (rest : List Char) :
    readPieces opened ('\\' :: letter :: rest) =
      (readPieces opened rest).map fun read => (.char c :: read.1, read.2) := by
  rw [readPieces]
  · simp only [hescape]
    cases readPieces opened rest with
    | error stop => rfl
    | ok read => rfl
  · intro a b c d e rest hc
    exact absurd hc hletter
  · exact hletter

theorem readPieces_plain {c : Char} (hquote : c ≠ '"') (hslash : c ≠ '\\') (hc : 0x20 ≤ c.toNat)
    (opened : Nat) (rest : List Char) :
    readPieces opened (c :: rest) =
      (readPieces opened rest).map fun read => (.char c :: read.1, read.2) := by
  rw [readPieces]
  · rw [if_neg (Nat.not_lt.mpr hc)]
    cases readPieces opened rest with
    | error stop => rfl
    | ok read => rfl
  all_goals simp_all

theorem readPieces_quote (opened : Nat) (rest : List Char) :
    readPieces opened ('"' :: rest) = .ok ([], rest) := by
  rw [readPieces]

/-- The written form of a character is read as pieces that join to the character. -/
structure ReadsAs (written : List Char) (c : Char) (pieces : List Piece) : Prop where
  read : ∀ opened next rest, readPieces opened (written ++ next :: rest) =
    (readPieces opened (next :: rest)).map fun read => (pieces ++ read.1, read.2)
  join : ∀ more, joinPieces (pieces ++ more) = c :: joinPieces more

theorem ReadsAs.char {written : List Char} {c : Char}
    (hread : ∀ opened rest, readPieces opened (written ++ rest) =
      (readPieces opened rest).map fun read => (.char c :: read.1, read.2)) :
    ReadsAs written c [.char c] where
  read opened next rest := hread opened (next :: rest)
  join more := by rw [List.cons_append, List.nil_append, joinPieces]

theorem toNat_valid (c : Char) : c.toNat < 0xD800 ∨ 0xDFFF < c.toNat ∧ c.toNat < 0x110000 :=
  c.valid

theorem isHighUnit_toNat (c : Char) : isHighUnit c.toNat = false := by
  have hvalid := toNat_valid c
  simp only [isHighUnit, Bool.and_eq_false_iff, decide_eq_false_iff_not]
  omega

theorem isLowUnit_toNat (c : Char) : isLowUnit c.toNat = false := by
  have hvalid := toNat_valid c
  simp only [isLowUnit, Bool.and_eq_false_iff, decide_eq_false_iff_not]
  omega

theorem unitChar_toNat (c : Char) : unitChar c.toNat = c := by
  rw [unitChar, isHighUnit_toNat, isLowUnit_toNat]
  exact Char.ofNat_toNat c

/-- A unit pairs with what follows only if it is a high one. -/
theorem joinPieces_unit {n : Nat} (hn : isHighUnit n = false) (more : List Piece) :
    joinPieces (.unit n :: more) = unitChar n :: joinPieces more := by
  rcases more with _ | ⟨next | lo, more⟩
  · simp [joinPieces]
  · simp [joinPieces]
  · simp [joinPieces, hn]

theorem ReadsAs.unit {c : Char} (hc : c.toNat < 0x10000) :
    ReadsAs (unitEscape c.toNat) c [.unit c.toNat] where
  read opened next rest := readPieces_unitEscape hc opened next rest
  join more := by
    rw [List.cons_append, List.nil_append, joinPieces_unit (isHighUnit_toNat c), unitChar_toNat]

theorem ReadsAs.pair {c : Char} (hc : 0x10000 ≤ c.toNat) :
    ReadsAs (unitEscape (0xD800 + (c.toNat - 0x10000) / 0x400) ++
        unitEscape (0xDC00 + (c.toNat - 0x10000) % 0x400)) c
      [.unit (0xD800 + (c.toNat - 0x10000) / 0x400),
        .unit (0xDC00 + (c.toNat - 0x10000) % 0x400)] := by
  have hvalid := toNat_valid c
  generalize hhi : 0xD800 + (c.toNat - 0x10000) / 0x400 = hi
  generalize hlo : 0xDC00 + (c.toNat - 0x10000) % 0x400 = lo
  have hhigh : isHighUnit hi = true := by simp [isHighUnit]; omega
  have hlow : isLowUnit lo = true := by simp [isLowUnit]; omega
  have hvalue : 0x10000 + (hi - 0xD800) * 0x400 + (lo - 0xDC00) = c.toNat := by omega
  refine ⟨fun opened next rest => ?_, fun more => ?_⟩
  · have hfirst := readPieces_unitEscape (n := hi) (by omega) opened '\\'
      ('u' :: (hexDigits 4 lo ++ next :: rest))
    have hsecond := readPieces_unitEscape (n := lo) (by omega) opened next rest
    rw [List.append_assoc]
    refine hfirst.trans ?_
    change (readPieces opened (unitEscape lo ++ next :: rest)).map _ = _
    rw [hsecond]
    cases readPieces opened (next :: rest) with
    | error stop => rfl
    | ok read => rfl
  · rw [List.cons_append, List.cons_append, List.nil_append, joinPieces, hhigh, hlow, hvalue,
      Char.ofNat_toNat]
    rfl

theorem exists_readsAs_escapeChar (c : Char) : ∃ pieces, ReadsAs (escapeChar c) c pieces := by
  unfold escapeChar
  split
  · exact ⟨_, .char (readPieces_shortEscape (by decide) rfl)⟩
  · exact ⟨_, .char (readPieces_shortEscape (by decide) rfl)⟩
  · exact ⟨_, .char (readPieces_shortEscape (by decide) rfl)⟩
  · exact ⟨_, .char (readPieces_shortEscape (by decide) rfl)⟩
  · exact ⟨_, .char (readPieces_shortEscape (by decide) rfl)⟩
  · exact ⟨_, .char (readPieces_shortEscape (by decide) rfl)⟩
  · exact ⟨_, .char (readPieces_shortEscape (by decide) rfl)⟩
  · next hquote hslash _ _ _ _ _ =>
      dsimp only
      split_ifs with hplain hunit
      · have hprintable : 0x20 ≤ c.toNat := by simp at hplain; omega
        exact ⟨_, .char (readPieces_plain hquote hslash hprintable)⟩
      · exact ⟨_, .unit hunit⟩
      · exact ⟨_, .pair (Nat.not_lt.mp hunit)⟩

/-- Written text is read up to the quote behind it. -/
theorem readPieces_escaped (cs : List Char) (opened : Nat) (rest : List Char) :
    ∃ pieces, readPieces opened (cs.flatMap escapeChar ++ '"' :: rest) = .ok (pieces, rest) ∧
      joinPieces pieces = cs := by
  induction cs with
  | nil => exact ⟨[], readPieces_quote opened rest, by rw [joinPieces]⟩
  | cons c cs ih =>
      obtain ⟨more, hmore, hjoin⟩ := ih
      obtain ⟨pieces, hpieces⟩ := exists_readsAs_escapeChar c
      -- what follows the character is not empty, as the reader of a unit demands
      obtain ⟨next, after, hnext⟩ : ∃ next after,
          cs.flatMap escapeChar ++ '"' :: rest = next :: after :=
        List.exists_cons_of_ne_nil (by simp)
      refine ⟨pieces ++ more, ?_, ?_⟩
      · rw [List.flatMap_cons, List.append_assoc, hnext, hpieces.read, ← hnext, hmore]
        rfl
      · rw [hpieces.join, hjoin]

theorem readString_escaped (cs rest : List Char) :
    readString (cs.flatMap escapeChar ++ '"' :: rest) = .ok (String.ofList cs, rest) := by
  obtain ⟨pieces, hread, hjoin⟩ :=
    readPieces_escaped cs ((cs.flatMap escapeChar ++ '"' :: rest).length + 1) rest
  rw [readString, hread]
  change Except.ok (String.ofList (joinPieces pieces), rest) = _
  rw [hjoin]

theorem readValue_quoteChars (fuel : Nat) (value : String) (rest : List Char) :
    readValue (fuel + 1) (quoteChars value.toList ++ rest) = .ok (.string value, rest) := by
  have hread := readString_escaped value.toList rest
  rw [quoteChars, List.append_assoc, List.cons_append, List.cons_append, List.nil_append, readValue]
  · rw [readScalar, hread]
    change Except.ok (Json.string (String.ofList value.toList), rest) = _
    rw [String.ofList_toList]
  · intro cs hcs
    cases hcs
  · intro cs hcs
    cases hcs

end Roster.Json

namespace Roster.Artifact.JsonArray

open Roster.Json

theorem skipLayout_cons {c : Char} (hc : isLayout c = false) (cs : List Char) :
    skipLayout (c :: cs) = c :: cs :=
  List.dropWhile_cons_of_neg (by simp [hc])

theorem skipLayout_item (value : String) (rest : List Char) :
    skipLayout ("\n  ".toList ++ quoteChars value.toList ++ rest) =
      quoteChars value.toList ++ rest :=
  skipLayout_cons (c := '"') rfl _

/-- Written items are read up to the bracket behind them, with a step to spare for each. -/
theorem readItems_items (value : String) (values : List String) {fuel : Nat}
    (hfuel : values.length + 1 < fuel) (rest : List Char) :
    readItems fuel (skipLayout (items (value :: values) ++ ']' :: rest)) =
      .ok ((value :: values).map .string, rest) := by
  induction values generalizing value fuel with
  | nil =>
      obtain ⟨fuel, rfl⟩ : ∃ more, fuel = more + 2 := ⟨fuel - 2, by simp at hfuel; omega⟩
      have hitem := readValue_quoteChars fuel value ('\n' :: ']' :: rest)
      rw [items, List.append_assoc, skipLayout_item, readItems, List.cons_append, List.nil_append,
        hitem]
      rfl
  | cons next values ih =>
      rw [List.length_cons] at hfuel
      obtain ⟨fuel, rfl⟩ : ∃ more, fuel = more + 2 := ⟨fuel - 2, by omega⟩
      have hitem := readValue_quoteChars fuel value (',' :: (items (next :: values) ++ ']' :: rest))
      have hitems := ih next (show values.length + 1 < fuel + 1 by omega)
      rw [items, List.append_assoc, skipLayout_item, readItems, List.cons_append, hitem]
      change (do
        let read ← readItems (fuel + 1) (skipLayout (items (next :: values) ++ ']' :: rest))
        return (Json.string value :: read.1, read.2)) = _
      rw [hitems]
      · rfl
      · exact List.cons_ne_nil _ _

theorem length_le_length_items (values : List String) : values.length ≤ (items values).length := by
  fun_induction items values with
  | case1 => exact Nat.le_refl 0
  | case2 value => simp
  | case3 value rest hrest ih =>
      simp only [List.length_cons, List.length_append]
      omega

theorem skipLayout_items (value : String) (values : List String) (rest : List Char) :
    ∃ tail, skipLayout (items (value :: values) ++ rest) = '"' :: tail := by
  cases values with
  | nil => exact ⟨_, skipLayout_cons (c := '"') rfl _⟩
  | cons next values => exact ⟨_, skipLayout_cons (c := '"') rfl _⟩

theorem readValue_items {fuel : Nat} {values : List String} (hfuel : values.length < fuel)
    (rest : List Char) :
    readValue (fuel + 1) ('[' :: (items values ++ ']' :: rest)) =
      .ok (.array (values.map .string), rest) := by
  cases values with
  | nil => rfl
  | cons value values =>
      have hitems := readItems_items value values hfuel rest
      obtain ⟨tail, htail⟩ := skipLayout_items value values (']' :: rest)
      rw [readValue]
      split
      · next heq =>
          rw [htail] at heq
          cases heq
      · rw [hitems]
        rfl

theorem parseChars_render (values : List String) :
    parseChars ('[' :: items values ++ [']', '\n']) = .ok (.array (values.map .string)) := by
  have hlength := length_le_length_items values
  have hfuel : values.length < 2 * ('[' :: (items values ++ [']', '\n'])).length + 1 := by
    simp only [List.length_cons, List.length_append]
    omega
  have hvalue := readValue_items hfuel ['\n']
  rw [parseChars, if_neg (by simp), List.cons_append, skipLayout_cons rfl, hvalue]
  rfl

theorem value_of_render (values : List String) :
    Json.parse (render values) = .ok (.array (values.map .string)) := by
  rw [Json.parse, render, String.toList_ofList, parseChars_render]
  rfl

/-- What was written is read again: the same strings, in order, as often as they were given. -/
theorem parse_render (values : List String) : parse (render values) = .ok values := by
  rw [parse, value_of_render]
  simp only [List.map_map]
  exact congrArg Except.ok (List.map_id'' (fun value => rfl) values)

end Roster.Artifact.JsonArray
