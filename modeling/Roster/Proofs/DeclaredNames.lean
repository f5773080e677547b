import Mathlib.Data.List.Basic
import Roster.Finder
import Roster.Php.Language
import Roster.Proofs.NameLayout

/-! The names that sources declare. A class is named by one word, and a word has name characters only; the name of a
namespace is put together without the blanks in it. So a carriage return, which is neither, stands in no name of a
class that a source declares. -/

namespace Roster

open Roster.Syntax Roster.Text

namespace Php

theorem mem_front_spanSize {p : Char → Bool} {gs : List Glyph} {c : Char}
    (hc : c ∈ front (spanSize p gs) gs) : p c = true := by
  have hspan : gs.take (spanSize p gs) = gs.takeWhile (·.any p) :=
    (List.prefix_iff_eq_take.mp (List.takeWhile_prefix _)).symm
  rw [front, hspan] at hc
  obtain ⟨glyph, hglyph, rfl⟩ := List.mem_filterMap.mp hc
  have hany : (some c).any p = true := List.all_eq_true.mp List.all_takeWhile (some c) hglyph
  exact hany

/-- A cut that goes as far as name characters go, if it is a word. -/
def Cut.SpansName (gs : List Glyph) (cut : Cut) : Prop :=
  ∀ lower, cut.kind = .word lower → cut.size = spanSize isNameChar gs

section Cuts

variable {gs : List Glyph} {modes : List Mode}

theorem spansName_cutSymbol {s : String} : (cutSymbol modes s).SpansName gs := by
  intro lower hword
  unfold cutSymbol at hword
  dsimp only at hword
  split at hword <;> cases hword

theorem spansName_cutString {source : List Glyph} {lead : Nat} {size : Option Nat} :
    (cutString modes source lead size).SpansName gs := by
  intro lower hword
  cases size with
  | none => cases hword
  | some size => cases hword

theorem spansName_cutHeredoc : (cutHeredoc modes gs).SpansName gs := by
  unfold cutHeredoc
  split
  · dsimp only
    split
    · exact spansName_cutString
    · intro lower hword
      cases hword
  · intro lower hword
    cases hword

theorem spansName_cutPlain : (cutPlain modes gs).SpansName gs := by
  unfold cutPlain
  split
  · intro lower hword
    cases hword
  · split
    · exact fun lower hword => rfl
    · split
      · exact spansName_cutSymbol
      · intro lower hword
        cases hword

theorem spansName_cutCode {markupAllowed : Bool} : (cutCode markupAllowed modes gs).SpansName gs := by
  have hother (kind : TokenKind) (size : Nat) (after : List Mode)
      (hkind : ∀ lower, kind ≠ .word lower) : (Cut.mk kind size after).SpansName gs :=
    fun lower hword => absurd hword (hkind lower)
  unfold cutCode
  split
  · split
    · exact hother _ _ _ (by simp)
    · exact hother _ _ _ (by simp)
  · exact spansName_cutString
  · exact spansName_cutString
  · exact spansName_cutString
  · exact hother _ _ _ (by simp)
  · exact hother _ _ _ (by simp)
  · exact hother _ _ _ (by simp)
  · exact hother _ _ _ (by simp)
  · exact spansName_cutHeredoc
  · split
    · exact hother _ _ _ (by simp)
    · exact spansName_cutPlain
  · exact spansName_cutPlain

end Cuts

/-- A token that has name characters only, if it is a word. -/
def Token.Plain (t : Token) : Prop :=
  ∀ lower, t.kind = .word lower → ∀ c ∈ t.text, isNameChar c = true

theorem plain_of_mem_cutAll {markupAllowed : Bool} {fuel : Nat} {modes : List Mode} {row : Nat}
    {gs : List Glyph} {t : Token} (ht : t ∈ cutAll markupAllowed fuel modes row gs) : t.Plain := by
  have hother (kind : TokenKind) (text lead : List Char) (row : Nat)
      (hkind : ∀ lower, kind ≠ .word lower) : (Token.mk kind text lead row).Plain :=
    fun lower hword => absurd hword (hkind lower)
  induction fuel generalizing modes row gs with
  | zero => simp [cutAll] at ht
  | succ fuel ih =>
      unfold cutAll at ht
      split at ht
      · contradiction
      · next hfuel =>
          cases hfuel
          dsimp only at ht
          split at ht
          · rcases List.mem_cons.mp ht with rfl | hlater
            · exact hother _ _ _ _ (by simp)
            · exact ih hlater
          · rcases List.mem_cons.mp ht with rfl | hlater
            · exact hother _ _ _ _ (by simp)
            · exact ih hlater
          · obtain rfl := List.mem_singleton.mp ht
            exact hother _ _ _ _ (by simp)
      · next hfuel _ =>
          cases hfuel
          split at ht
          · obtain rfl := List.mem_singleton.mp ht
            exact hother _ _ _ _ (by simp)
          · dsimp only at ht
            split at ht
            · split at ht
              · contradiction
              · obtain rfl := List.mem_singleton.mp ht
                exact hother _ _ _ _ (by simp)
            · rcases List.mem_cons.mp ht with rfl | hlater
              · -- only code has words, and the cut goes as far as the name does
                intro lower hword c hc
                rw [spansName_cutCode lower hword] at hc
                exact mem_front_spanSize hc
              · exact ih hlater

theorem plain_of_mem_tokens {dialect : Dialect} {gs : List Glyph} {t : Token}
    (ht : t ∈ tokens dialect gs) : t.Plain :=
  plain_of_mem_cutAll ht

/-- A leaf that names something is a word of its own, in a class declaration or, if `strict`, anywhere. -/
def Pattern.namesByWord {R : Type} : Bool → Pattern R → Bool
  | strict, .seq first second => first.namesByWord strict && second.namesByWord strict
  | strict, .alt first second => first.namesByWord strict && second.namesByWord strict
  | strict, .many item => item.namesByWord strict
  | _, .node kind p => p.namesByWord (kind = .classDeclaration)
  | strict, .leaf role p =>
      p.namesByWord strict && (!strict || role ≠ some "name" || p matches .name)
  | _, _ => true

theorem namesByWord_grammar (rule : Rule) : (grammar rule).namesByWord true = true := by
  cases rule <;> decide

/-- A tree that is spelled with name characters only, if it is a name. -/
def NamedByWord (tree : Tree) : Prop :=
  tree.label.role = some "name" → ∀ c ∈ tree.text.toList, isNameChar c = true

/-- Every class declaration in a tree is named by a word. -/
inductive ClassesNamed : Tree → Prop
  | node {label : Label} {children : List Tree}
      (hname : label.kind = .classDeclaration → ∀ child ∈ children, NamedByWord child)
      (hchildren : ∀ child ∈ children, ClassesNamed child) : ClassesNamed (.node label children)

namespace Pattern

variable {R : Type} {grammar : R → Pattern R} {strict : Bool} {ts rest : List Token} {kept : List Tree}

theorem nextCode_eq_some {t : Token} (hnext : nextCode ts = some (t, rest)) :
    t.kind ≠ .markup ∧ ∃ markup, ts = markup ++ t :: rest ∧ ∀ other ∈ markup, other.kind = .markup := by
  induction ts with
  | nil => cases hnext
  | cons first ts ih =>
      rw [nextCode] at hnext
      split_ifs at hnext with hmarkup
      · obtain ⟨hkind, markup, rfl, hall⟩ := ih hnext
        refine ⟨hkind, first :: markup, rfl, ?_⟩
        intro other hother
        rcases List.mem_cons.mp hother with rfl | hother
        · exact hmarkup
        · exact hall other hother
      · cases hnext
        exact ⟨hmarkup, [], rfl, by simp⟩

/-- The text of one token is the token's own, whatever markup stands before it. -/
theorem textBetween_of_nextCode {t : Token} (hnext : nextCode ts = some (t, rest)) :
    textBetween ts rest = String.ofList t.text := by
  obtain ⟨hkind, markup, rfl, hall⟩ := nextCode_eq_some hnext
  have htake : (markup ++ t :: rest).take ((markup ++ t :: rest).length - rest.length) =
      markup ++ [t] := by
    have hlength : (markup ++ t :: rest).length - rest.length = (markup ++ [t]).length := by
      simp only [List.length_append, List.length_cons, List.length_nil]
      omega
    rw [hlength, List.append_cons markup t rest, List.take_left]
  have hdrop : (markup ++ [t]).dropWhile (·.kind = .markup) = [t] := by
    rw [List.dropWhile_append_of_pos (by simpa using hall), List.dropWhile_cons_of_neg (by simpa using hkind)]
  rw [textBetween, htake, hdrop]
  exact congrArg String.ofList (List.append_nil _)

theorem exists_nextCode_of_take {test : TokenKind → Bool} (htake : take test ts = some (kept, rest)) :
    kept = [] ∧ ∃ t, nextCode ts = some (t, rest) ∧ test t.kind = true := by
  unfold take at htake
  split at htake
  · next t later hnext =>
      split_ifs at htake with htest
      cases htake
      exact ⟨rfl, t, hnext, htest⟩
  · cases htake

/-- What reading leaves and keeps. -/
structure Outcome (strict : Bool) (ts : List Token) (kept : List Tree) (rest : List Token) : Prop where
  subset : rest ⊆ ts
  classes : ∀ tree ∈ kept, ClassesNamed tree
  names : strict = true → ∀ tree ∈ kept, NamedByWord tree

namespace Outcome

theorem nothing (hsubset : rest ⊆ ts) : Outcome strict ts [] rest :=
  ⟨hsubset, by simp, by simp⟩

theorem of_take {test : TokenKind → Bool} (htake : take test ts = some (kept, rest)) :
    Outcome strict ts kept rest := by
  obtain ⟨rfl, t, hnext, -⟩ := exists_nextCode_of_take htake
  obtain ⟨-, markup, rfl, -⟩ := nextCode_eq_some hnext
  exact nothing (by simp)

theorem append {more : List Tree} {last : List Token} (hfirst : Outcome strict ts kept rest)
    (hsecond : Outcome strict rest more last) : Outcome strict ts (kept ++ more) last := by
  refine ⟨List.Subset.trans hsecond.subset hfirst.subset, ?_, ?_⟩
  · intro tree htree
    rcases List.mem_append.mp htree with htree | htree
    · exact hfirst.classes tree htree
    · exact hsecond.classes tree htree
  · intro hstrict tree htree
    rcases List.mem_append.mp htree with htree | htree
    · exact hfirst.names hstrict tree htree
    · exact hsecond.names hstrict tree htree

theorem node {kind : Kind} (hinner : Outcome (kind = .classDeclaration) ts kept rest) :
    Outcome strict ts [.node { kind } kept] rest := by
  refine ⟨hinner.subset, ?_, ?_⟩
  · intro tree htree
    obtain rfl := List.mem_singleton.mp htree
    exact .node (fun hkind => hinner.names (decide_eq_true hkind)) hinner.classes
  · intro _ tree htree hrole
    obtain rfl := List.mem_singleton.mp htree
    cases hrole

theorem leaf {role : Option String} {text : String} (hsubset : rest ⊆ ts)
    (hword : strict = true → role = some "name" → ∀ c ∈ text.toList, isNameChar c = true) :
    Outcome strict ts [.node { role, text } []] rest := by
  refine ⟨hsubset, ?_, ?_⟩
  · intro tree htree
    obtain rfl := List.mem_singleton.mp htree
    exact .node (fun hkind => by cases hkind) (by simp)
  · intro hstrict tree htree
    obtain rfl := List.mem_singleton.mp htree
    exact hword hstrict

end Outcome

theorem isNameChar_of_read_name {fuel : Nat} (hplain : ∀ t ∈ ts, t.Plain)
    (hread : read grammar fuel .name ts = some (kept, rest)) {c : Char}
    (hc : c ∈ (textBetween ts rest).toList) : isNameChar c = true := by
  cases fuel with
  | zero => cases hread
  | succ fuel =>
      rw [read] at hread
      obtain ⟨-, t, hnext, hname⟩ := exists_nextCode_of_take hread
      rw [textBetween_of_nextCode hnext, String.toList_ofList] at hc
      obtain ⟨-, markup, rfl, -⟩ := nextCode_eq_some hnext
      cases hkind : t.kind with
      | word lower => exact hplain t (by simp) lower hkind c hc
      | _ => simp [hkind] at hname

/-- Where the grammar names classes by words, reading does. -/
theorem read_outcome (hgrammar : ∀ rule, (grammar rule).namesByWord true = true) {fuel : Nat}
    {p : Pattern R} (hplain : ∀ t ∈ ts, t.Plain) (hp : p.namesByWord strict = true)
    (hread : read grammar fuel p ts = some (kept, rest)) : Outcome strict ts kept rest := by
  induction fuel generalizing strict p ts kept rest with
  | zero => cases hread
  | succ fuel ih =>
      cases p with
      | empty =>
          cases hread
          exact .nothing (List.Subset.refl _)
      | word _ | anyWord | name | symbol _ | token _ =>
          rw [read] at hread
          exact .of_take hread
      | semicolon =>
          cases ts with
          | nil => cases hread
          | cons t ts =>
              rw [read] at hread
              split_ifs at hread
              cases hread
              exact .nothing (List.subset_cons_self ..)
      | rule r =>
          -- rules are strict whoever refers to them, so what they keep suits both kinds of reader
          have hrule := ih hplain (hgrammar r) hread
          exact ⟨hrule.subset, hrule.classes, fun _ => hrule.names rfl⟩
      | seq first second =>
          obtain ⟨hfirst, hsecond⟩ := Bool.and_eq_true_iff.mp hp
          rw [read] at hread
          split at hread
          · next kept middle hmiddle =>
              obtain ⟨⟨more, last⟩, hlast, hboth⟩ := Option.map_eq_some_iff.mp hread
              cases hboth
              have hread := ih hplain hfirst hmiddle
              exact hread.append (ih (fun t ht => hplain t (hread.subset ht)) hsecond hlast)
          · cases hread
      | alt first second =>
          obtain ⟨hfirst, hsecond⟩ := Bool.and_eq_true_iff.mp hp
          rw [read] at hread
          split at hread
          · next hfound =>
              cases hread
              exact ih hplain hfirst hfound
          · exact ih hplain hsecond hread
      | many item =>
          rw [read] at hread
          split at hread
          · next kept middle hmiddle =>
              obtain ⟨⟨more, last⟩, hlast, hboth⟩ := Option.map_eq_some_iff.mp hread
              cases hboth
              have hnames : item.namesByWord strict = true := hp
              have hitem := ih hplain hnames hmiddle
              exact hitem.append (ih (fun t ht => hplain t (hitem.subset ht)) hp hlast)
          · cases hread
            exact .nothing (List.Subset.refl _)
      | ahead p =>
          rw [read] at hread
          obtain ⟨found, -, hsame⟩ := Option.map_eq_some_iff.mp hread
          cases hsame
          exact .nothing (List.Subset.refl _)
      | notAhead p =>
          rw [read] at hread
          split at hread
          · cases hread
          · cases hread
            exact .nothing (List.Subset.refl _)
      | node kind p =>
          rw [read] at hread
          obtain ⟨⟨children, last⟩, hchildren, hsame⟩ := Option.map_eq_some_iff.mp hread
          cases hsame
          have hnames : p.namesByWord (kind = .classDeclaration) = true := hp
          exact .node (ih hplain hnames hchildren)
      | leaf role p =>
          rw [read] at hread
          obtain ⟨⟨children, last⟩, hinner, hsame⟩ := Option.map_eq_some_iff.mp hread
          cases hsame
          obtain ⟨hnames, hword⟩ := Bool.and_eq_true_iff.mp hp
          refine .leaf (ih hplain hnames hinner).subset ?_
          intro hstrict hrole c hc
          obtain rfl : p = .name := by
            rw [hstrict, hrole] at hword
            split at hword
            · rfl
            · cases hword
          exact isNameChar_of_read_name hplain hinner hc

end Pattern

theorem classesNamed_parse (dialect : Dialect) (content : ByteArray) :
    ClassesNamed (parse dialect content) := by
  have hplain : ∀ t ∈ tokens dialect (Utf8.glyphs content.toList), t.Plain :=
    fun t ht => plain_of_mem_tokens ht
  unfold parse
  dsimp only
  generalize tokens dialect (Utf8.glyphs content.toList) = ts at hplain ⊢
  have hkept : ∀ tree ∈ ((Pattern.read grammar (nestingBound ts.length)
      (.many (.rule .statement)) ts).getD ([], ts)).1, ClassesNamed tree := by
    cases hread : Pattern.read grammar (nestingBound ts.length) (.many (.rule .statement)) ts with
    | none => simp
    | some found =>
        have hnames : (Pattern.many (.rule Rule.statement)).namesByWord true = true := rfl
        exact (Pattern.read_outcome namesByWord_grammar hplain hnames hread).classes
  split
  · exact .node (fun hkind => by cases hkind) hkept
  · refine .node (fun hkind => by cases hkind) ?_
    intro tree htree
    rcases List.mem_append.mp htree with htree | htree
    · exact hkept tree htree
    · obtain rfl := List.mem_singleton.mp htree
      exact .node (fun hkind => by cases hkind) (by simp)

theorem classesNamed_of_readDialect {dialect : Dialect} {content : ByteArray} {tree : Tree}
    (hread : readDialect dialect content = .ok tree) : ClassesNamed tree := by
  unfold readDialect Tree.accept at hread
  split_ifs at hread
  cases hread
  exact classesNamed_parse dialect content

end Php

namespace Finder

open Php

theorem return_not_mem_namespaceAfter {space : String} (hspace : '\r' ∉ space.toList) (tree : Tree) :
    '\r' ∉ (namespaceAfter space tree).toList := by
  unfold namespaceAfter
  split_ifs
  · split
    · exact fun hmem => absurd (Name.not_isBlank_of_mem_normalize hmem) (by decide)
    · simp
  · exact hspace

theorem return_not_mem_className {space className : String} {tree : Tree}
    (hspace : '\r' ∉ space.toList) (htree : ClassesNamed tree)
    (hname : className? space tree = some className) : '\r' ∉ className.toList := by
  unfold className? at hname
  split_ifs at hname with hkind
  obtain ⟨name, hchild, rfl⟩ := Option.map_eq_some_iff.mp hname
  obtain ⟨hnamed, -⟩ := htree
  have hrole : name.label.role = some "name" := by simpa using List.find?_some hchild
  have hword := hnamed hkind name (List.mem_of_find?_eq_some hchild) hrole
  rw [Name.qualify, String.toList_ofList, List.mem_append, List.mem_cons]
  rintro (hmem | hseparator | hmem)
  · exact hspace hmem
  · exact absurd hseparator (by decide)
  · exact absurd (hword _ hmem) (by decide)

theorem return_not_mem_nodeMatches {targets : List String} {space : String} {tree : Tree}
    {found : List Match} (hspace : '\r' ∉ space.toList) (htree : ClassesNamed tree)
    (hfound : nodeMatches targets space tree = .ok found) :
    ∀ m ∈ found, '\r' ∉ m.className.toList := by
  unfold nodeMatches at hfound
  split at hfound
  · next className hname =>
      split_ifs at hfound
      cases hfound
      intro m hm
      obtain ⟨reference, -, hm⟩ := List.mem_flatMap.mp hm
      obtain ⟨target, -, rfl⟩ := List.mem_map.mp hm
      exact return_not_mem_className hspace htree hname
  · cases hfound
    simp

theorem return_not_mem_walk {targets : List String} {space : String} {before found : List Match}
    {stack : List Tree} (hspace : '\r' ∉ space.toList)
    (hbefore : ∀ m ∈ before, '\r' ∉ m.className.toList)
    (hstack : ∀ tree ∈ stack, ClassesNamed tree)
    (hwalk : walk targets space before stack = .ok found) :
    ∀ m ∈ found, '\r' ∉ m.className.toList := by
  fun_induction walk targets space before stack with
  | case1 space before =>
      cases hwalk
      exact hbefore
  | case2 space before tree stack inner fault hfault => cases hwalk
  | case3 space before tree stack inner more hmore ih =>
      have htree := hstack tree List.mem_cons_self
      have hinner : '\r' ∉ inner.toList := return_not_mem_namespaceAfter hspace tree
      refine ih hinner ?_ ?_ hwalk
      · intro m hm
        rcases List.mem_append.mp hm with hm | hm
        · exact hbefore m hm
        · exact return_not_mem_nodeMatches hinner htree hmore m hm
      · intro node hnode
        rw [pushEach_reverse] at hnode
        rcases List.mem_append.mp hnode with hchild | hnode
        · obtain ⟨-, hchildren⟩ := htree
          exact hchildren node (List.mem_filter.mp hchild).1
        · exact hstack node (List.mem_cons_of_mem _ hnode)

/-- No class that a source declares has a carriage return in its name. -/
theorem return_not_mem_matchesIn {dialect : Dialect} {content : ByteArray} {tree : Tree}
    (hread : readDialect dialect content = .ok tree) {finder : Finder} {found : List Match}
    (hfound : finder.matchesIn tree = .ok found) : ∀ m ∈ found, '\r' ∉ m.className.toList :=
  return_not_mem_walk (by simp) (by simp) (by simpa using classesNamed_of_readDialect hread) hfound

end Finder

end Roster
