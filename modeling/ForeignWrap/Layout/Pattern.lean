import ForeignWrap.Layout.Type

/-!
# Layout of patterns

## Main definitions

* `ForeignWrap.Layout.Scribe.writePat`: a pattern.
-/

namespace ForeignWrap.Layout.Scribe

open Syntax

variable (s : Scribe)

/-- Whether a pattern is short whatever it says: a value or the wildcard. -/
def isPlainPat : Pat → Bool
  | .exprPat (.literal _) => true
  | .wildPat => true
  | _ => false

/-- A field in a pattern. -/
def fieldPat : Syntax.Tree .fieldPat → Draft
  | .fieldPat attrs member shorthand pat => do
    s.outerAttributes attrs.toList
    if !shorthand then text (memberText member ++ ": ")
    s.pat pat

/-- A pattern. -/
def writePat : Pat → Draft
  | .identPat byRef mutable name sub => do
    keywordIf byRef "ref"
    keywordIf mutable "mut"
    text name
    if let some sub := sub.toOption then
      text " @ "
      s.pat sub
  | .pathPat p => path s .value p
  | .callPat p elems => do
    unqualifiedPath s .value p
    text "("
    commaBlock indentStep elems.toList s.pat
    text ")"
  | .structPat p fields rest => do
    block indentStep do
      unqualifiedPath s .value p
      text " \x7b"
      spaceIfMore
      each fields.toList fun _ isLast field => do
        fieldPat s field
        commaBeforeBrace (isLast && rest.toOption.isNone)
      if let some attrs := rest.toOption then
        s.outerAttributes attrs.toList
        text ".."
        space
      outdent
    text "\x7d"
  | .tuplePat elems hasComma => do
    text "("
    match elems.toList with
    | [elem] =>
      block indentStep do
        mayEnd
        s.pat elem
        if hasComma then text ","
        mayEnd
        outdent
    | elems => commaBlock indentStep elems s.pat
    text ")"
  | .parenPat elem => do
    text "("
    s.pat elem
    text ")"
  | .slicePat elems => do
    text "["
    each elems.toList fun _ isLast elem => do
      s.pat elem
      comma isLast
    text "]"
  | .referencePat mutable elem => do
    text "&"
    keywordIf mutable "mut"
    s.pat elem
  | .exprPat expr => s.expr false expr
  | .restPat => text ".."
  | .wildPat => text "_"
  | .orPat _ cases =>
    box (if cases.toList.all isPlainPat then .flow else .block) 0 do
      each cases.toList fun isFirst _ case => do
        if !isFirst then
          space
          text "| "
        s.pat case
  | .macroPat call => macroCall call none false
  | .typedPat attrs pat type => do
    s.outerAttributes attrs.toList
    s.pat pat
    text ": "
    s.type type
  | .attributedPat attrs pat => do
    s.outerAttributes attrs.toList
    match pat with
    | .exprPat (.range start limits stop) =>
      text "("
      s.expr false (.range start limits stop)
      text ")"
    | pat => s.pat pat
  | .rawPat tokens => noLayout "Pat" tokens

end ForeignWrap.Layout.Scribe
