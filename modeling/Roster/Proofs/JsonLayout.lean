import Mathlib.Data.List.Forall2
import Roster.Proofs.FileScan
import Roster.Proofs.JsonRoundTrip

/-! The text of a JSON artifact. It lists the class names one a line, indented by two and in quotes; every character is
spelled in ASCII, by itself, by a letter or by its 16-bit units in hexadecimal. The rules are stated by what a spelling
is read as, and not by how it is made. -/

namespace Roster.Json

open Roster.Text

/-- The text escapes a 16-bit unit by four hexadecimal digits, letters in lower case. -/
def EscapesUnit (unit : Nat) (text : List Char) : Prop :=
  ∃ a b c d, text = ['\\', 'u', a, b, c, d] ∧ hexUnit? a b c d = some unit ∧
    ∀ digit ∈ [a, b, c, d], digit.isUpper = false

/-- How a character is spelled between quotes. -/
inductive Spelling : Char → List Char → Prop where
  | itself {c : Char} (hlow : 0x20 ≤ c.toNat) (hhigh : c.toNat < 0x7F) (hquote : c ≠ '"')
      (hslash : c ≠ '\\') : Spelling c [c]
  | letter {c letter : Char} (hletter : letter ≠ '/') (hescape : escape? letter = some c) :
      Spelling c ['\\', letter]
  | unit {c : Char} {text : List Char} (hplain : c.toNat < 0x20 ∨ 0x7F ≤ c.toNat)
      (hletter : ∀ letter, escape? letter ≠ some c) (htext : EscapesUnit c.toNat text) :
      Spelling c text
  | pair {c : Char} {high low : Nat} {first second : List Char} (hhigh : isHighUnit high = true)
      (hlow : isLowUnit low = true)
      (hvalue : c.toNat = 0x10000 + (high - 0xD800) * 0x400 + (low - 0xDC00))
      (hfirst : EscapesUnit high first) (hsecond : EscapesUnit low second) :
      Spelling c (first ++ second)

theorem isUpper_hexDigit : ∀ digit < 16, (hexDigit digit).isUpper = false := by
  decide

theorem escapesUnit_unitEscape {n : Nat} (hn : n < 0x10000) : EscapesUnit n (unitEscape n) := by
  have hlower : ∀ k, (hexDigit (k % 16)).isUpper = false :=
    fun k => isUpper_hexDigit _ (Nat.mod_lt _ (by decide))
  refine ⟨_, _, _, _, ?_, hexUnit?_digits hn, ?_⟩
  · rw [unitEscape, hexDigits_four]
  · simp [hlower]

theorem spelling_pair {c : Char} (hc : 0x10000 ≤ c.toNat) :
    Spelling c (unitEscape (0xD800 + (c.toNat - 0x10000) / 0x400) ++
      unitEscape (0xDC00 + (c.toNat - 0x10000) % 0x400)) := by
  have hvalid := toNat_valid c
  refine .pair ?_ ?_ ?_ (escapesUnit_unitEscape ?_) (escapesUnit_unitEscape ?_)
  · simp only [isHighUnit, Bool.and_eq_true, decide_eq_true_eq]
    omega
  · simp only [isLowUnit, Bool.and_eq_true, decide_eq_true_eq]
    omega
  all_goals omega

/-- The characters that a letter stands for. -/
theorem mem_of_escape? {letter c : Char} (hescape : escape? letter = some c) :
    c ∈ ['"', '\\', '/', '\x08', '\x0c', '\n', '\r', '\t'] := by
  unfold escape? at hescape
  split at hescape
  all_goals cases hescape
  all_goals decide

theorem ascii_of_escape? {letter c : Char} (hescape : escape? letter = some c) :
    letter.toNat < 0x80 := by
  unfold escape? at hescape
  split at hescape
  case h_9 => cases hescape
  all_goals decide

theorem spelling_escapeChar (c : Char) : Spelling c (escapeChar c) := by
  unfold escapeChar
  split
  · exact .letter (by decide) rfl
  · exact .letter (by decide) rfl
  · exact .letter (by decide) rfl
  · exact .letter (by decide) rfl
  · exact .letter (by decide) rfl
  · exact .letter (by decide) rfl
  · exact .letter (by decide) rfl
  · next hquote hslash hline hreturn htab hback hfeed =>
      dsimp only
      split_ifs with hprintable hbasic
      · simp only [Bool.and_eq_true, decide_eq_true_eq] at hprintable
        exact .itself hprintable.1 hprintable.2 hquote hslash
      · have hplain : c.toNat < 0x20 ∨ 0x7F ≤ c.toNat := by
          simp only [Bool.and_eq_true, decide_eq_true_eq] at hprintable
          omega
        refine .unit hplain (fun letter hescape => ?_) (escapesUnit_unitEscape hbasic)
        have hc := mem_of_escape? hescape
        -- the slash has a letter too but is printable
        have hsolidus : c ≠ '/' := by
          rintro rfl
          simp at hplain
        simp_all
      · exact spelling_pair (Nat.not_lt.mp hbasic)

theorem ascii_of_hexValue? {c : Char} {n : Nat} (hvalue : hexValue? c = some n) : c.toNat < 0x80 := by
  have hle {last : Char} (hlast : last.toNat < 0x80) (hc : c ≤ last) : c.toNat < 0x80 :=
    Nat.lt_of_le_of_lt hc hlast
  unfold hexValue? at hvalue
  split_ifs at hvalue with hdigit hlower hupper
  · simp only [Bool.and_eq_true, decide_eq_true_eq] at hdigit
    exact hle (by decide) hdigit.2
  · simp only [Bool.and_eq_true, decide_eq_true_eq] at hlower
    exact hle (by decide) hlower.2
  · simp only [Bool.and_eq_true, decide_eq_true_eq] at hupper
    exact hle (by decide) hupper.2

theorem EscapesUnit.ascii {unit : Nat} {text : List Char} (htext : EscapesUnit unit text) :
    ∀ c ∈ text, c.toNat < 0x80 := by
  obtain ⟨a, b, c, d, rfl, hunit, -⟩ := htext
  simp only [hexUnit?, Option.bind_eq_bind, Option.bind_eq_some_iff] at hunit
  obtain ⟨_, ha, _, hb, _, hc, _, hd, -⟩ := hunit
  simp [ascii_of_hexValue? ha, ascii_of_hexValue? hb, ascii_of_hexValue? hc, ascii_of_hexValue? hd]

theorem Spelling.ascii {c : Char} {text : List Char} (htext : Spelling c text) :
    ∀ x ∈ text, x.toNat < 0x80 := by
  cases htext with
  | itself hlow hhigh =>
      simp only [List.mem_singleton, forall_eq]
      omega
  | letter hletter hescape =>
      have hascii := ascii_of_escape? hescape
      simp [hascii]
  | unit _ _ htext => exact htext.ascii
  | pair _ _ _ hfirst hsecond =>
      intro x hx
      rcases List.mem_append.mp hx with hx | hx
      · exact hfirst.ascii x hx
      · exact hsecond.ascii x hx

theorem forall_right_of_forall₂ {α β : Type} {R : α → β → Prop} {P : β → Prop} {as : List α}
    {bs : List β} (hrel : List.Forall₂ R as bs) (himp : ∀ a b, R a b → P b) : ∀ b ∈ bs, P b := by
  induction hrel with
  | nil => simp
  | cons hhead _ ih =>
      rw [List.forall_mem_cons]
      exact ⟨himp _ _ hhead, ih⟩

/-- The text is the value in quotes, spelled character by character. -/
def Quotes (value text : String) : Prop :=
  ∃ spelled, List.Forall₂ Spelling value.toList spelled ∧
    text.toList = '"' :: spelled.flatten ++ ['"']

theorem toList_quote (value : String) : (quote value).toList = quoteChars value.toList :=
  String.toList_ofList

theorem quotes_quote (value : String) : Quotes value (quote value) := by
  refine ⟨value.toList.map escapeChar, ?_, ?_⟩
  · rw [List.forall₂_map_right_iff, List.forall₂_same]
    exact fun c _ => spelling_escapeChar c
  · rw [toList_quote, quoteChars, List.flatMap_def]

theorem Quotes.ascii {value text : String} (htext : Quotes value text) :
    ∀ c ∈ text.toList, c.toNat < 0x80 := by
  obtain ⟨spelled, hspelled, hchars⟩ := htext
  have hparts : ∀ part ∈ spelled, ∀ c ∈ part, c.toNat < 0x80 :=
    forall_right_of_forall₂ hspelled fun _ _ => Spelling.ascii
  intro c hc
  rw [hchars] at hc
  simp only [List.cons_append, List.mem_cons, List.mem_append, List.not_mem_nil, or_false] at hc
  rcases hc with rfl | hc | rfl
  · decide
  · obtain ⟨part, hpart, hmem⟩ := List.mem_flatten.mp hc
    exact hparts part hpart c hmem
  · decide

end Roster.Json

namespace Roster.Artifact

open Roster.Json

namespace JsonArray

/-- The text lists the values between brackets, one a line and indented by two, and ends its last line. -/
def Lists (values : List String) (text : String) : Prop :=
  ∃ quoted, List.Forall₂ Quotes values quoted ∧
    text = if quoted = [] then "[]\n" else "[\n  " ++ ",\n  ".intercalate quoted ++ "\n]\n"

theorem items_eq_intercalate (value : String) (values : List String) :
    items (value :: values) =
      "\n  ".toList ++ (",\n  ".intercalate ((value :: values).map quote)).toList ++ ['\n'] := by
  induction values generalizing value with
  | nil => rw [items, List.map_singleton, String.intercalate_singleton, toList_quote]
  | cons next values ih =>
      have hseparator : ",\n  ".toList = ',' :: "\n  ".toList := rfl
      rw [items, ih, List.map_cons, List.map_cons, List.map_cons, String.intercalate_cons_cons,
        String.toList_append, String.toList_append, toList_quote, hseparator]
      · simp only [List.append_assoc, List.cons_append]
      · exact List.cons_ne_nil _ _

theorem lists_render (values : List String) : Lists values (render values) := by
  refine ⟨values.map quote, ?_, ?_⟩
  · rw [List.forall₂_map_right_iff, List.forall₂_same]
    exact fun value _ => quotes_quote value
  · cases values with
    | nil => rfl
    | cons value values =>
        have hopening : "[\n  ".toList = '[' :: "\n  ".toList := rfl
        have hclosing : "\n]\n".toList = ['\n'] ++ [']', '\n'] := rfl
        rw [if_neg (by simp), render, items_eq_intercalate, ← String.toList_inj]
        simp only [String.toList_ofList, String.toList_append, hopening, hclosing, List.append_assoc,
          List.cons_append]

theorem Lists.ascii {values : List String} {text : String} (htext : Lists values text) :
    ∀ c ∈ text.toList, c.toNat < 0x80 := by
  obtain ⟨quoted, hquoted, rfl⟩ := htext
  have hparts : ∀ part ∈ quoted, ∀ c ∈ part.toList, c.toNat < 0x80 :=
    forall_right_of_forall₂ hquoted fun _ _ => Quotes.ascii
  have hopening : ∀ c ∈ "[\n  ".toList, c.toNat < 0x80 := by simp
  have hseparator : ∀ c ∈ ",\n  ".toList, c.toNat < 0x80 := by simp
  have hclosing : ∀ c ∈ "\n]\n".toList, c.toNat < 0x80 := by simp
  split_ifs
  · simp
  · intro c hc
    simp only [String.toList_append, List.mem_append, String.toList_intercalate] at hc
    rcases hc with (hc | hc) | hc
    · exact hopening c hc
    · rcases Path.mem_of_mem_intercalate hc with hc | ⟨part, hpart, hc⟩
      · exact hseparator c hc
      · obtain ⟨text, htext, rfl⟩ := List.mem_map.mp hpart
        exact hparts text htext c hc
    · exact hclosing c hc

end JsonArray

/-- A JSON artifact is read as the class names that it was written for, the same names in order and as often: it is an
array of exactly these strings. Its text lists them one a line, indented by two, each character spelled by itself, by a
letter, by its number or by its two surrogates, and so holds no character that is not ASCII. -/
theorem parse_render_json (classNames : List String) :
    parse .json (render .json classNames) = .ok classNames ∧
    Json.parse (render .json classNames) = .ok (.array (classNames.map .string)) ∧
    JsonArray.Lists classNames (render .json classNames) ∧
    ∀ c ∈ (render .json classNames).toList, c.toNat < 0x80 :=
  ⟨JsonArray.parse_render classNames, JsonArray.value_of_render classNames,
    JsonArray.lists_render classNames, (JsonArray.lists_render classNames).ascii⟩

end Roster.Artifact
