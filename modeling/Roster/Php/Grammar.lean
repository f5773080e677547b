import Roster.Php.Pattern

/-! The grammar of PHP, as far as it decides which sources are well formed and where classes, their interface
clauses and namespaces stand. Operators are not ranked: whether an expression is well formed does not depend on
how they bind. Expressions are read as an operand with a tail, and the tail of what can be assigned to is kept
apart from the tail of what cannot. -/

namespace Roster.Php

open Pattern

/-- The rules of the grammar. -/
inductive Rule where
  | statement | block | attributes | qualifiedName | arguments | parameters | type | typeAtom
  | classBody | enumBody | member | memberTail | property | hooks | constants | traitUse
  | expression | operand | tail | assignableTail | constantTail | staticAccess | memberName
  | variable | arrayItem | arrayItems | arrayMore | holed | holedEnd | pattern | template
  | closure | arrow | creation | matchExpression
  | ifStatement | foreachTarget | cases | adaptation

namespace Grammar

abbrev P := Pattern Rule

def w (lower : String) : P := .word lower

def s (text : String) : P := .symbol text

def r (rule : Rule) : P := .rule rule

def words (lowers : List String) : P := alts (lowers.map .word)

def operators (texts : List String) : P := alts (texts.map .symbol)

def statement (p : P) : P := .node .other p

def expression : P := r .expression

def expressions : P := sepBy expression (s ",")

def parenthesized : P := within "(" ")" expression

def statements : P := .many (r .statement)

/-- A body that is one statement, or statements between a colon and a closing keyword. -/
def body (closing : String) : P :=
  alts [seqs [s ":", statements, w closing, .semicolon], r .statement]

def simpleVariable : P := seqs [s "$", .anyWord]

def assignment : P := seqs [s "=", opt (s "&"), expression]

def initializer : P := opt (seqs [s "=", expression])

def returnType : P := opt (seqs [s ":", r .type])

def attributed (p : P) : P := seqs [opt (r .attributes), p]

def classModifiers : P := .many (words ["final", "abstract", "readonly"])

def memberModifier : P :=
  alts [
    seqs [words ["public", "protected", "private"], opt (seqs [s "(", w "set", s ")"])],
    words ["static", "final", "abstract", "readonly", "var"]]

def names : P := sepBy (r .qualifiedName) (s ",")

def extendsClause : P := seqs [w "extends", names]

/-- The references of an interface clause, each kept as a leaf. -/
def implementsClause : P :=
  seqs [w "implements", sepBy (.leaf none (r .qualifiedName)) (s ",")]

def classDeclaration : P :=
  .node .classDeclaration <| seqs [
    classModifiers, w "class", .leaf (some "name") .name, opt extendsClause,
    opt (.node .interfaceClause implementsClause), r .classBody]

def functionDefinition : P :=
  statement <| seqs [
    w "function", opt (s "&"), .anyWord, r .parameters, returnType, r .block]

def interfaceDeclaration : P :=
  statement <| seqs [w "interface", .name, opt extendsClause, r .classBody]

def traitDeclaration : P :=
  statement <| seqs [w "trait", .name, r .classBody]

def enumDeclaration : P :=
  statement <| seqs [
    w "enum", .name, returnType, opt (seqs [w "implements", names]), r .enumBody]

def declarations : P :=
  attributed <| alts [
    classDeclaration, functionDefinition, interfaceDeclaration, traitDeclaration, enumDeclaration]

def spaceName : P := sepBy .anyWord (s "\\")

def namespaceDefinition : P :=
  .node .namespaceDefinition <| seqs [
    w "namespace",
    alts [
      r .block,
      seqs [.leaf (some "name") spaceName, alts [r .block, .semicolon]]]]

def useKind : P := opt (words ["function", "const"])

def useItem : P :=
  seqs [
    opt (s "\\"), spaceName,
    alts [
      seqs [s "\\", within "\x7b" "\x7d"
        (commas (seqs [useKind, spaceName, opt (seqs [w "as", .anyWord])]))],
      opt (seqs [w "as", .anyWord])]]

def useDeclaration : P :=
  statement <| seqs [w "use", useKind, sepBy useItem (s ","), .semicolon]

def forHead : P :=
  within "(" ")" <| seqs [opt expressions, s ";", opt expressions, s ";", opt expressions]

def foreachHead : P :=
  within "(" ")" <| seqs [
    expression, w "as", r .foreachTarget, opt (seqs [s "=>", r .foreachTarget])]

def catchClause : P :=
  seqs [
    w "catch", within "(" ")" (seqs [r .type, opt simpleVariable]), r .block]

def controlStatements : P :=
  alts [
    r .ifStatement,
    seqs [w "while", parenthesized, body "endwhile"],
    seqs [w "do", r .statement, w "while", parenthesized, .semicolon],
    seqs [w "foreach", foreachHead, body "endforeach"],
    seqs [w "for", forHead, body "endfor"],
    seqs [w "switch", parenthesized, alts [
      within "\x7b" "\x7d" (r .cases),
      seqs [s ":", r .cases, w "endswitch", .semicolon]]],
    seqs [words ["break", "continue", "return"], opt expression, .semicolon],
    seqs [w "goto", .name, .semicolon],
    seqs [w "try", r .block, many1 (alts [catchClause, seqs [w "finally", r .block]])],
    seqs [w "declare", within "(" ")" (sepBy (seqs [.anyWord, s "=", expression]) (s ",")),
      alts [.semicolon, body "enddeclare"]]]

def simpleStatements : P :=
  alts [
    s ";",
    r .block,
    seqs [w "echo", expressions, .semicolon],
    seqs [w "unset", within "(" ")" (commas expression), .semicolon],
    seqs [w "global", sepBy (r .variable) (s ","), .semicolon],
    seqs [w "static", .ahead (s "$"), sepBy (seqs [simpleVariable, initializer]) (s ","), .semicolon],
    attributed (seqs [w "const", r .constants]),
    seqs [.name, s ":"],
    seqs [expression, .semicolon]]

def castTypes : P :=
  words ["array", "binary", "bool", "boolean", "double", "float", "int", "integer", "object", "real",
    "string", "unset", "void"]

def binaryOperators : P :=
  alts [
    operators ["+", "-", "*", "/", "%", ".", "**", "<<", ">>", "<", ">", "<=", ">=", "==", "!=", "<>",
      "===", "!==", "<=>", "&", "|", "^", "&&", "||", "??"],
    words ["and", "or", "xor", "instanceof"]]

def compoundAssignments : P :=
  operators ["+=", "-=", "*=", "/=", ".=", "%=", "**=", "<<=", ">>=", "&=", "|=", "^=", "??="]

/-- Access to a part of an operand, after which it can be assigned to. -/
def access : P :=
  alts [
    seqs [s "[", opt expression, s "]", r .assignableTail],
    seqs [operators ["->", "?->"], r .memberName, r .assignableTail],
    seqs [s "::", r .staticAccess],
    seqs [r .arguments, r .assignableTail]]

/-- The class that an object is created from. -/
def createdClass : P :=
  alts [
    r .qualifiedName,
    w "static",
    parenthesized,
    seqs [r .variable, .many (alts [
      seqs [s "[", opt expression, s "]"],
      seqs [operators ["->", "?->"], r .memberName],
      seqs [s "::", r .variable]])]]

def anonymousClass : P :=
  attributed <| seqs [
    classModifiers, w "class", opt (r .arguments), opt extendsClause,
    opt (seqs [w "implements", names]), r .classBody]

def keywordOperands : P :=
  alts [
    r .matchExpression,
    attributed (seqs [opt (w "static"), alts [r .closure, r .arrow]]),
    seqs [w "new", r .creation],
    seqs [w "clone", r .operand],
    seqs [words ["print", "throw", "include", "include_once", "require", "require_once"], expression],
    seqs [w "yield", alts [
      seqs [w "from", expression],
      seqs [expression, opt (seqs [s "=>", expression])],
      .empty]],
    seqs [w "isset", within "(" ")" (commas expression)],
    seqs [w "empty", parenthesized],
    seqs [w "exit", opt (within "(" ")" (opt expression))],
    seqs [w "array", within "(" ")" (opt (commas (r .arrayItem))), r .constantTail],
    seqs [w "list", within "(" ")" (r .pattern), opt assignment],
    seqs [w "static", r .constantTail]]

def plainOperands : P :=
  alts [
    seqs [r .variable, r .assignableTail],
    seqs [s "(", alts [
      seqs [castTypes, s ")", r .operand],
      seqs [expression, s ")", r .constantTail]]],
    seqs [s "[", r .arrayItems],
    .token .number,
    seqs [alts [.token .string, r .template], r .constantTail],
    seqs [r .qualifiedName, r .constantTail],
    seqs [operators ["!", "~", "-", "+", "@", "++", "--", "&"], r .operand]]

end Grammar

open Grammar

/-- What each rule reads. -/
def grammar : Rule → Pattern Rule
  | .statement =>
      alts [
        declarations,
        namespaceDefinition,
        useDeclaration,
        statement controlStatements,
        statement simpleStatements]
  | .block => within "\x7b" "\x7d" statements
  | .attributes =>
      many1 (within "#[" "]" (commas (seqs [r .qualifiedName, opt (r .arguments)])))
  | .qualifiedName =>
      alts [
        seqs [w "namespace", many1 (seqs [s "\\", .anyWord])],
        seqs [s "\\", spaceName],
        seqs [.name, .many (seqs [s "\\", .anyWord])]]
  | .arguments =>
      within "(" ")" <| alts [
        seqs [s "...", .ahead (s ")")],
        opt (commas (alts [
          seqs [s "...", expression],
          seqs [.anyWord, s ":", expression],
          expression]))]
  | .parameters =>
      within "(" ")" <| opt <| commas <| attributed <| seqs [
        .many memberModifier, opt (r .type), opt (s "&"), opt (s "..."), simpleVariable,
        initializer, opt (r .hooks)]
  | .type =>
      alts [
        seqs [s "?", r .typeAtom],
        sepBy (r .typeAtom) (alts [
          s "|",
          seqs [s "&", .notAhead (operators ["$", "...", "&"])]])]
  | .typeAtom =>
      alts [within "(" ")" (r .type), words ["array", "callable", "static"], r .qualifiedName]
  | .classBody => within "\x7b" "\x7d" (.many (attributed (r .member)))
  | .enumBody =>
      within "\x7b" "\x7d" <| .many <| attributed <| alts [
        seqs [w "case", .anyWord, initializer, .semicolon],
        r .member]
  | .member =>
      alts [
        seqs [w "use", names, r .traitUse],
        seqs [many1 memberModifier, alts [r .memberTail, r .property]],
        r .memberTail]
  | .memberTail =>
      alts [
        seqs [w "const", r .constants],
        seqs [w "function", opt (s "&"), .anyWord, r .parameters, returnType,
          alts [r .block, .semicolon]]]
  | .property =>
      seqs [
        opt (r .type), simpleVariable, initializer,
        alts [
          r .hooks,
          seqs [.many (seqs [s ",", simpleVariable, initializer]), .semicolon]]]
  | .hooks =>
      within "\x7b" "\x7d" <| .many <| attributed <| seqs [
        .many memberModifier, opt (s "&"), .anyWord, opt (r .parameters),
        alts [seqs [s "=>", expression, .semicolon], r .block, .semicolon]]
  | .constants =>
      seqs [
        alts [
          seqs [.anyWord, s "=", expression],
          seqs [r .type, .anyWord, s "=", expression]],
        .many (seqs [s ",", .anyWord, s "=", expression]), .semicolon]
  | .traitUse =>
      alts [.semicolon, within "\x7b" "\x7d" (.many (r .adaptation))]
  | .adaptation =>
      seqs [
        alts [seqs [r .qualifiedName, s "::", .anyWord], .anyWord],
        alts [
          seqs [w "insteadof", names],
          seqs [w "as", alts [
            seqs [words ["public", "protected", "private"], opt .anyWord],
            .anyWord]]],
        .semicolon]
  | .expression => seqs [r .operand, r .tail]
  | .operand => alts [keywordOperands, plainOperands]
  | .tail =>
      opt <| alts [
        seqs [binaryOperators, expression],
        seqs [s "?", alts [seqs [s ":", expression], seqs [expression, s ":", expression]]]]
  | .assignableTail =>
      opt <| alts [
        access,
        seqs [s "\x7b", expression, s "\x7d", r .assignableTail],
        operators ["++", "--"],
        assignment,
        seqs [compoundAssignments, expression]]
  | .constantTail => opt access
  | .staticAccess =>
      alts [
        seqs [r .variable, r .assignableTail],
        seqs [.anyWord, opt access],
        seqs [within "\x7b" "\x7d" expression, opt access]]
  | .memberName => alts [.anyWord, r .variable, within "\x7b" "\x7d" expression]
  | .variable =>
      seqs [s "$", alts [.anyWord, within "\x7b" "\x7d" expression, r .variable]]
  | .arrayItem =>
      alts [
        seqs [s "...", expression],
        seqs [opt (s "&"), expression, opt (seqs [s "=>", opt (s "&"), expression])]]
  | .arrayItems =>
      alts [
        seqs [s "]", alts [assignment, r .constantTail]],
        seqs [s ",", r .holed],
        seqs [r .arrayItem, r .arrayMore]]
  | .arrayMore =>
      alts [
        seqs [s "]", alts [assignment, r .constantTail]],
        seqs [s ",", r .arrayItems]]
  | .holed =>
      alts [
        seqs [s "]", r .holedEnd],
        seqs [s ",", r .holed],
        seqs [r .arrayItem, alts [seqs [s "]", r .holedEnd], seqs [s ",", r .holed]]]]
  | .holedEnd => alts [assignment, .ahead (operators [",", "]"])]
  | .pattern => sepBy (opt (r .arrayItem)) (s ",")
  | .template =>
      seqs [
        .token .templateStart,
        .many (seqs [.token .codeStart, expression, .token .codeStop]),
        .token .templateStop]
  | .closure =>
      seqs [
        w "function", opt (s "&"), r .parameters,
        opt (seqs [w "use", within "(" ")" (commas (seqs [opt (s "&"), simpleVariable]))]),
        returnType, r .block]
  | .arrow =>
      seqs [w "fn", opt (s "&"), r .parameters, returnType, s "=>", expression]
  | .creation =>
      seqs [alts [anonymousClass, seqs [createdClass, opt (r .arguments)]], r .constantTail]
  | .matchExpression =>
      seqs [
        w "match", parenthesized,
        within "\x7b" "\x7d" (opt (commas (seqs [
          alts [seqs [w "default", opt (s ",")], commas expression],
          s "=>", expression])))]
  | .ifStatement =>
      seqs [
        w "if", parenthesized,
        alts [
          seqs [
            s ":", statements,
            .many (seqs [w "elseif", parenthesized, s ":", statements]),
            opt (seqs [w "else", s ":", statements]), w "endif", .semicolon],
          seqs [
            r .statement,
            .many (seqs [w "elseif", parenthesized, r .statement]),
            opt (seqs [w "else", r .statement])]]]
  | .foreachTarget =>
      seqs [opt (s "&"), alts [
        within "[" "]" (r .pattern),
        expression]]
  | .cases =>
      .many <| seqs [
        alts [seqs [w "case", expression], w "default"], operators [":", ";"], statements]

end Roster.Php
