import Roster.Text.Quoted

/-! UTF-8 with its faults. One step reads a character or the longest broken beginning of one, which is then
reported or dropped as a whole. -/

namespace Roster.Text.Utf8

/-- What is wrong with a broken sequence. -/
inductive Fault where
  | badStart
  | badContinuation
  | truncated
deriving DecidableEq, Repr

/-- A read step: a character, or so many bytes that are none. -/
inductive Step where
  | char (c : Char)
  | broken (fault : Fault) (size : Nat)

/-- Reads continuation bytes; the first of them is bounded by `lo` and `hi`. -/
def continuation (lo hi : UInt8) (value size : Nat) : Nat → List UInt8 → Step × List UInt8
  | 0, bytes => (.char (Char.ofNat value), bytes)
  | _ + 1, [] => (.broken .truncated size, [])
  | owed + 1, b :: bytes =>
      if lo ≤ b && b ≤ hi then
        continuation 0x80 0xBF (64 * value + (b.toNat - 0x80)) (size + 1) owed bytes
      else (.broken .badContinuation size, b :: bytes)

/-- Reads one character that starts with the given byte. -/
def step (b : UInt8) (bytes : List UInt8) : Step × List UInt8 :=
  if b < 0x80 then (.char (Char.ofNat b.toNat), bytes)
  else if b < 0xC2 then (.broken .badStart 1, bytes)
  else if b < 0xE0 then continuation 0x80 0xBF (b.toNat - 0xC0) 1 1 bytes
  else if b < 0xF0 then
    continuation (if b = 0xE0 then 0xA0 else 0x80) (if b = 0xED then 0x9F else 0xBF)
      (b.toNat - 0xE0) 1 2 bytes
  else if b < 0xF5 then
    continuation (if b = 0xF0 then 0x90 else 0x80) (if b = 0xF4 then 0x8F else 0xBF)
      (b.toNat - 0xF0) 1 3 bytes
  else (.broken .badStart 1, bytes)

theorem continuation_length (lo hi : UInt8) (value size owed : Nat) (bytes : List UInt8) :
    (continuation lo hi value size owed bytes).2.length ≤ bytes.length := by
  induction owed generalizing lo hi value size bytes with
  | zero => simp [continuation]
  | succ owed ih =>
      cases bytes with
      | nil => simp [continuation]
      | cons b bytes =>
          simp only [continuation]
          split
          · exact Nat.le_succ_of_le (ih ..)
          · simp

theorem step_length (b : UInt8) (bytes : List UInt8) : (step b bytes).2.length ≤ bytes.length := by
  unfold step
  repeat' split
  all_goals first | exact Nat.le_refl _ | exact continuation_length ..

def Step.char? : Step → Option Char
  | .char c => some c
  | .broken _ _ => none

/-- The characters in order; a broken sequence is `none`. -/
def glyphs : List UInt8 → List (Option Char)
  | [] => []
  | b :: bytes =>
      have := step_length b bytes
      (step b bytes).1.char? :: glyphs (step b bytes).2
termination_by bytes => bytes.length
decreasing_by simp; omega

/-- The text without its broken sequences. -/
def decodeLossy (bytes : ByteArray) : String :=
  String.ofList ((glyphs bytes.toList).filterMap id)

/-- Bytes that are no text: the first broken sequence, where it starts and what is wrong. -/
structure Undecodable where
  start : Nat
  bytes : List UInt8
  fault : Fault
deriving DecidableEq, Repr

def Undecodable.message (found : Undecodable) : String :=
  let reason := match found.fault with
    | .badStart => "invalid start byte"
    | .badContinuation => "invalid continuation byte"
    | .truncated => "unexpected end of data"
  let start := found.start
  let stop := start + found.bytes.length - 1
  let which := match found.bytes with
    | [b] => "byte 0x" ++ String.ofList (hexDigits 2 b.toNat) ++ s!" in position {start}"
    | _ => s!"bytes in position {start}-{stop}"
  s!"'utf-8' codec can't decode {which}: {reason}"

/-- The first broken sequence behind so many bytes. -/
def firstFault (start : Nat) : List UInt8 → Option Undecodable
  | [] => none
  | b :: bytes =>
      have := step_length b bytes
      match (step b bytes).1 with
      | .char _ => firstFault (start + (bytes.length + 1 - (step b bytes).2.length)) (step b bytes).2
      | .broken fault size => some ⟨start, (b :: bytes).take size, fault⟩
termination_by bytes => bytes.length
decreasing_by simp; omega

/-- Line ends of any kind become line feeds. -/
def unifyLines : List Char → List Char
  | [] => []
  | '\r' :: '\n' :: cs => '\n' :: unifyLines cs
  | '\r' :: cs => '\n' :: unifyLines cs
  | c :: cs => c :: unifyLines cs

theorem unifyLines_eq_self {cs : List Char} (hcs : '\r' ∉ cs) : unifyLines cs = cs := by
  induction cs with
  | nil => rfl
  | cons c cs ih =>
      rw [List.mem_cons, not_or] at hcs
      have hne : c ≠ '\r' := Ne.symm hcs.1
      rw [unifyLines, ih hcs.2]
      · intro rest heq
        exact absurd heq hne
      · exact hne

/-- Reads strict UTF-8 with any kind of line end. -/
def decode (content : ByteArray) : Except Undecodable String :=
  match String.fromUTF8? content with
  | some text => .ok (String.ofList (unifyLines text.toList))
  | none =>
      match firstFault 0 content.toList with
      | some found => .error found
      | none => .ok ""

theorem decode_toUTF8 {text : String} (htext : '\r' ∉ text.toList) : decode text.toUTF8 = .ok text := by
  have hvalid : String.fromUTF8? text.toUTF8 = some text := dif_pos text.isValidUTF8
  rw [decode, hvalid]
  dsimp only
  rw [unifyLines_eq_self htext, String.ofList_toList]

end Roster.Text.Utf8
