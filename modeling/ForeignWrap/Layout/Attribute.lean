import ForeignWrap.Layout.Macro
import ForeignWrap.Syntax.Number

/-!
# Layout of attributes

An attribute that gives documentation is written as a comment where a comment can hold its text.

## Main definitions

* `ForeignWrap.Layout.Scribe`: the writers that others call for the syntax inside.
* `ForeignWrap.Layout.commentOf`: the comment that a documentation text is written as.
* `ForeignWrap.Layout.Scribe.outerAttributes`, `ForeignWrap.Layout.Scribe.innerAttributes`: the
  attributes before something and inside it.
-/

namespace ForeignWrap.Layout

open Code (Delimiter Token)
open Syntax

/-- Where a path stands. -/
inductive PathPlace where
  /-- In a type, where arguments follow the name. -/
  | type
  /-- In an expression or a pattern, where arguments follow `::`. -/
  | value
deriving DecidableEq

/-- The writers that writers of larger syntax call for the syntax inside. -/
structure Scribe where
  /-- A type. -/
  type : Ty → Draft
  /-- A bound. -/
  bound : Syntax.Tree .bound → Draft
  /-- Generic arguments. -/
  args : PathPlace → List (Syntax.Tree .genericArg) → Draft
  /-- A pattern. -/
  pat : Pat → Draft
  /-- An expression; `lineStart` if nothing comes before it on its line. -/
  expr : (lineStart : Bool) → Expr → Draft
  /-- An expression that a chain of fields and methods begins with or goes through. -/
  link : (lineStart : Bool) → Expr → Draft
  /-- A statement; `isLast` if it ends its block. -/
  stmt : (isLast : Bool) → Stmt → Draft
  /-- An item. -/
  item : ItemPlace → Item → Draft

/-- The writers that write nothing. -/
def Scribe.exhausted : Scribe :=
  ⟨fun _ => pure (), fun _ => pure (), fun _ _ => pure (), fun _ => pure (), fun _ _ => pure (),
    fun _ _ => pure (), fun _ _ => pure (), fun _ _ => pure ()⟩

/-! ## Comments -/

/-- The text without the spaces at its end. -/
def trimSpaces (s : List Char) : List Char :=
  (s.reverse.dropWhile (· = ' ')).reverse

/-- The lines of a text, with the empty one after a line feed at its end. -/
def splitLines : List Char → List (List Char)
  | [] => [[]]
  | '\n' :: rest => [] :: splitLines rest
  | c :: rest =>
    match splitLines rest with
    | [] => [[c]]
    | first :: more => (c :: first) :: more

/-- The text without spaces at the ends of its lines, but for the last. -/
def trimLines (s : List Char) : List Char :=
  let lines := splitLines s
  List.intercalate ['\n'] (lines.dropLast.map trimSpaces ++ lines.getLast?.toList)

/-- Whether the comments that a text opens and closes are balanced, `depth` being open before it. -/
def commentsBalanced (depth : Nat) : List Char → Bool
  | '/' :: '*' :: rest => commentsBalanced (depth + 1) rest
  | '*' :: '/' :: rest => depth ≠ 0 && commentsBalanced (depth - 1) rest
  | _ :: rest => commentsBalanced depth rest
  | [] => depth = 0

/-- Whether a text can stand in a block comment: it does not end the comment early, nor with its
last character. -/
def fitsInBlockComment (cs : List Char) : Bool :=
  commentsBalanced 0 cs && cs.getLast? ≠ some '/'

/-- The comment that a documentation text is written as, if there is one: a line comment for one
line, a block comment for more. What documents the thing after it may not begin like the end of its
mark. -/
def commentOf (inner : Bool) (doc : String) : Option String :=
  let cs := doc.toList
  if !cs.contains '\n' && (inner || cs.head? ≠ some '/') then
    some ((if inner then "//!" else "///") ++ String.ofList (trimSpaces cs))
  else if fitsInBlockComment cs && (inner || (cs.head? ≠ some '/' && cs.head? ≠ some '*')) then
    some ((if inner then "/*!" else "/**") ++ String.ofList (trimLines cs) ++ "*/")
  else none

/-- The comment that a plain comment text is written as, if there is one. -/
def plainCommentOf (comment : String) : Option String :=
  let cs := comment.toList
  if !cs.contains '\n' then some ("//" ++ String.ofList (trimSpaces cs))
  else if fitsInBlockComment cs && cs.head? ≠ some '*' && cs.head? ≠ some '!' then
    some ("/*" ++ String.ofList (trimLines cs) ++ "*/")
  else none

/-- The comment that an attribute is written as, if there is one. -/
def attributeComment : Attribute → Option String
  | .valueAttribute inner path (.literal text) =>
    match textValue? text with
    | none => none
    | some value =>
      if path.isName "doc" then commentOf inner value
      else if path.isName "comment" then plainCommentOf value
      else none
  | _ => none

/-! ## Tokens -/

/-- What the token before means for the next one in an attribute. -/
inductive AttributeContext where
  | word
  | sign
  | lastComma
deriving DecidableEq

mutual

/-- A token of an attribute after the `context`, and the context after it. -/
def attributeToken (context : AttributeContext) (isLast : Bool) : Token → DraftM AttributeContext
  | .word w => do
    if context = .word then space
    text w
    return .word
  | .literal s => do
    if context = .word then space
    text s
    return .word
  | .sign c _ => do
    if context = .word && c = '=' then text " "
    if c = ',' && isLast then
      comma true
      return .lastComma
    text (String.singleton c)
    if c = '=' then text " "
    if c = ',' then space
    return .sign
  | .group delimiter content => do
    text (opening delimiter)
    if delimiter = .parenthesis then
      modify (.openBox .block indentStep :: ·)
      mayEnd
      let context ← attributeTokens .sign content
      if context ≠ .lastComma then mayEnd
      outdent
      modify closeMarks
    else
      let _ ← attributeTokens .sign content
    text (closing delimiter)
    return .sign

/-- The tokens of an attribute after the `context`, and the context after them. -/
def attributeTokens (context : AttributeContext) : List Token → DraftM AttributeContext
  | [] => return context
  | token :: rest => do
    let context ← attributeToken context rest.isEmpty token
    attributeTokens context rest

end

/-! ## Attributes -/

namespace Scribe

variable (s : Scribe)

/-- An attribute. -/
def attr (a : Attribute) : Draft := do
  match attributeComment a with
  | some comment =>
    text comment
    newline
  | none =>
    text (if a.isInner then "#![" else "#[")
    match a with
    | .pathAttribute _ path => text (pathText path)
    | .listAttribute _ path delimiter content =>
      text (pathText path)
      let _ ← attributeToken .sign true (.group delimiter content)
    | .valueAttribute _ path value =>
      text (pathText path)
      text " = "
      s.expr false value
    text "]"
    space

/-- The attributes before something. -/
def outerAttributes (attrs : List Attribute) : Draft :=
  all (attrs.filter (!·.isInner)) s.attr

/-- The attributes for what encloses them. -/
def innerAttributes (attrs : List Attribute) : Draft :=
  all (attrs.filter (·.isInner)) s.attr

end Scribe

end ForeignWrap.Layout
