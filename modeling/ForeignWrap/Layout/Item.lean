import ForeignWrap.Layout.Expression

/-!
# Layout of statements and items

## Main definitions

* `ForeignWrap.Layout.Scribe.writeStmt`: a statement.
* `ForeignWrap.Layout.Scribe.signature`: a function without its body.
* `ForeignWrap.Layout.Scribe.writeItem`: an item.
-/

namespace ForeignWrap.Layout

open Syntax

/-! ## Small parts -/

/-- Who may see an item. -/
def visibility : Visibility → Draft
  | .inherited => pure ()
  | .everyone => text "pub "
  | .within _ path => do
    let isPlain := ["self", "super", "crate"].any path.isName
    text (if isPlain then "pub(" else "pub(in ")
    text (pathText path)
    text ") "

/-- Whether a `use` ends with a group. -/
def endsWithGroup : UseTree → Bool
  | .path _ tree => endsWithGroup tree
  | .group _ => true
  | _ => false

/-- Whether a member of a group needs the braces of its group. -/
def needsGroup : UseTree → Bool
  | .name name | .rename name _ => name = "self"
  | _ => false

mutual

/-- What a `use` brings in. A group of one member has no braces, unless the member needs them. -/
def useTree : UseTree → Draft
  | .path name tree => do
    text name
    text "::"
    useTree tree
  | .name name => text name
  | .rename name newName => text (name ++ " as " ++ newName)
  | .glob => text "*"
  | .group [] => text "\x7b\x7d"
  | .group [tree] =>
    if needsGroup tree then do
      text "\x7b"
      block indentStep do
        mayEnd
        flow 0 (useTree tree)
        comma true
        outdent
      text "\x7d"
    else useTree tree
  | .group (first :: next :: rest) => do
    text "\x7b"
    block indentStep do
      mayEnd
      flow 0 do
        useTree first
        useTrees first (next :: rest)
      comma true
      outdent
    text "\x7d"

/-- The members of a group after `before`. One that ends with a group has its lines to itself. -/
def useTrees (before : UseTree) : List UseTree → Draft
  | [] => pure ()
  | tree :: rest => do
    text ","
    if endsWithGroup before then newline else space
    useTree tree
    useTrees tree rest

end

/-- Whether an expression needs no semicolon to be a statement that others follow. -/
def dropsSemicolon : {k : SyntaxClass} → Syntax.Tree k → Bool
  | _, .forLoop .. | _, .whileLoop .. => true
  | _, .ifThen _ _ .absent => true
  | _, .ifThen _ _ (.present next) => dropsSemicolon next
  | _, .attributed _ expr => dropsSemicolon expr
  | _, _ => false

/-- Whether a generic parameter is a lifetime. -/
def isLifetimeParam : Syntax.Tree .genericParam → Bool
  | .lifetimeParam .. => true
  | _ => false

namespace Scribe

variable (s : Scribe)

/-! ## Statements -/

/-- A statement. -/
def writeStmt (isLast : Bool) : Stmt → Draft
  | .emptyStmt => pure ()
  | .letStmt attrs pat init diverge => do
    s.outerAttributes attrs.toList
    let start : Draft := do
      text "let "
      s.pat pat
      if let some init := init.toOption then
        text " = "
        goOn
        s.expr false init
    match diverge.toOption with
    | none => flow 0 start
    | some body =>
      flow 0 do
        start
        space
        text "else "
      goOn
      block indentStep (smallBlock s body)
    text ";"
    newline
  | .itemStmt item => s.item .file item
  | .exprStmt expr semicolon => do
    flow 0 do
      s.expr true expr
      if (if semicolon then !dropsSemicolon expr else endsWithSemicolon expr) then text ";"
    newline
  | .macroStmt attrs call semicolon => do
    s.outerAttributes attrs.toList
    macroCall call none (semicolon || (!isLast && call.delimiter ≠ .brace))
    newline

/-! ## Generic parameters and conditions -/

/-- Generic parameters between angle brackets, the lifetimes first. -/
def genericParams : Syntax.Tree .generics → Draft
  | .generics params _ => do
    let params := params.toList
    if !params.isEmpty then
      text "<"
      commaBlock 0 (params.filter isLifetimeParam ++ params.filter (!isLifetimeParam ·))
        (genericParam s)
      text ">"

/-- A condition. -/
def condition : Syntax.Tree .condition → Draft
  | .lifetimeCondition name bounds => do
    text (lifetimeText name ++ ":")
    flow indentStep do
      each bounds fun isFirst _ bound => do
        if isFirst then text " "
        else
          space
          text "+ "
        text (lifetimeText bound)
  | .typeCondition params type bounds => do
    forParams s params
    s.type type
    text ":"
    flow (if bounds.toList.length = 1 then 0 else indentStep) do
      each bounds.toList fun isFirst _ bound => do
        if isFirst then text " "
        else
          space
          text "+ "
        s.bound bound

/-- Conditions after `where`, or what stands in their place if there are none: a semicolon where
they end an item, or the space before its body. `apart` gives each of them its own line. -/
def conditions (apart semicolon : Bool) : Syntax.Tree .generics → Draft
  | .generics _ conditions => do
    let edge := if apart then newline else space
    if conditions.toList.isEmpty then text (if semicolon then ";" else " ")
    else
      edge
      outdent
      text "where"
      edge
      each conditions.toList fun _ isLast c => do
        condition s c
        if isLast && semicolon then text ";"
        else if apart then
          text ","
          newline
        else commaBeforeBrace isLast
      if !semicolon then outdent

/-! ## Functions -/

/-- A parameter. -/
def param : Syntax.Tree .param → Draft
  | .receiver attrs reference mutable type => do
    s.outerAttributes attrs.toList
    if let some reference := reference then
      text "&"
      if let some name := reference.lifetime then text (lifetimeText name ++ " ")
    keywordIf mutable "mut"
    text "self"
    if let some type := type.toOption then
      text ": "
      s.type type
  | .typedParam attrs pat type => do
    s.outerAttributes attrs.toList
    s.pat pat
    text ": "
    s.type type
  | .variadicParam attrs pat => do
    s.outerAttributes attrs.toList
    if let some pat := pat.toOption then
      s.pat pat
      text ": "
    text "..."

/-- A function without its body. -/
def signature : Syntax.Tree .signature → Draft
  | .signature isConst isAsync isUnsafe convention name generics params output => do
    keywordIf isConst "const"
    keywordIf isAsync "async"
    keywordIf isUnsafe "unsafe"
    abi convention
    text "fn "
    text name
    genericParams s generics
    text "("
    goOn
    block 0 do
      mayEnd
      each params.toList fun _ isLast p => do
        param s p
        if p.isVariadicParam then mayEnd else comma isLast
      outdent
    text ")"
    block (-indentStep) (arrow s output)

/-- The generic parameters and conditions of a signature. -/
def genericsOf : Syntax.Tree .signature → Syntax.Tree .generics
  | .signature _ _ _ _ _ generics _ _ => generics

/-! ## Items -/

/-- The content of an item between braces, one thing a line, after its open brace. The item's box is
open, one step in. -/
def body {α : Type} (attrs : List Attribute) (content : List α) (write : α → Draft) : Draft := do
  newlineIfMore
  s.innerAttributes attrs
  all content write
  outdent

/-- A field. -/
def field : Syntax.Tree .field → Draft
  | .fieldOf attrs seenBy name type => do
    s.outerAttributes attrs.toList
    visibility seenBy
    if let some name := name then text (name ++ ": ")
    s.type type

/-- A field on a line of its own. -/
def fieldLine (f : Syntax.Tree .field) : Draft := do
  field s f
  text ","
  newline

/-- Fields without names. -/
def unnamedFields (fields : List (Syntax.Tree .field)) : Draft := do
  text "("
  commaBlock indentStep fields (field s)
  text ")"

/-- A variant of an enum on a line of its own. -/
def variantLine : Syntax.Tree .variant → Draft
  | .variant attrs name fields value => do
    s.outerAttributes attrs.toList
    text name
    match fields with
    | .namedFields fields =>
      text " \x7b"
      block indentStep do
        space
        each fields.toList fun _ isLast f => do
          field s f
          commaBeforeBrace isLast
        outdent
      text "\x7d"
    | .unnamedFields fields => block indentStep (unnamedFields s fields.toList)
    | .noFields => pure ()
    if let some value := value.toOption then
      text " = "
      s.expr false value
    text ","
    newline

/-- The value after an equals sign. -/
def valueAfter (value : Syntax.Tree (.maybe .expr)) : Draft := do
  if let some value := value.toOption then
    text " = "
    goOn
    s.expr false value

/-- What an item is called where it stands. -/
def itemName : ItemPlace → String
  | .file => "Item"
  | .impl => "ImplItem"
  | .trait => "TraitItem"
  | .foreign => "ForeignItem"

/-- An item. -/
def writeItem (place : ItemPlace) : Item → Draft
  | .fnItem attrs seenBy isDefault sig code => do
    s.outerAttributes attrs.toList
    block indentStep do
      visibility seenBy
      keywordIf isDefault "default"
      signature s sig
      match code.toOption with
      | none => conditions s true true (genericsOf sig)
      | some (.block inner stmts) =>
        conditions s true false (genericsOf sig)
        text "\x7b"
        newlineIfMore
        s.innerAttributes inner.toList
        s.stmts stmts.toList
        outdent
    if code.toOption.isSome then text "\x7d"
    newline
  | .externCrateItem attrs seenBy name newName => do
    s.outerAttributes attrs.toList
    visibility seenBy
    text ("extern crate " ++ name)
    if let some newName := newName then text (" as " ++ newName)
    text ";"
    newline
  | .externItem attrs isUnsafe convention items => do
    s.outerAttributes attrs.toList
    block indentStep do
      keywordIf isUnsafe "unsafe"
      abi (some convention)
      text "\x7b"
      body s attrs.toList items.toList (s.item .foreign)
    text "\x7d"
    newline
  | .useItem attrs seenBy rooted tree => do
    s.outerAttributes attrs.toList
    visibility seenBy
    text (if rooted then "use ::" else "use ")
    useTree tree
    text ";"
    newline
  | .staticItem attrs seenBy mutable name type value => do
    s.outerAttributes attrs.toList
    block 0 do
      visibility seenBy
      text "static "
      keywordIf mutable "mut"
      text (name ++ ": ")
      s.type type
      valueAfter s value
      text ";"
    newline
  | .constItem attrs seenBy isDefault name type value => do
    s.outerAttributes attrs.toList
    block 0 do
      visibility seenBy
      keywordIf isDefault "default"
      text ("const " ++ name ++ ": ")
      s.type type
      valueAfter s value
      text ";"
    newline
  | .moduleItem attrs seenBy isUnsafe name items => do
    s.outerAttributes attrs.toList
    block indentStep do
      visibility seenBy
      keywordIf isUnsafe "unsafe"
      text ("mod " ++ name)
      match items.toOption with
      | none => text ";"
      | some items =>
        text " \x7b"
        body s attrs.toList items.toList (s.item .file)
    if items.toOption.isSome then text "\x7d"
    newline
  | .typeItem attrs seenBy isDefault name generics bounds type => do
    s.outerAttributes attrs.toList
    block (if place = .foreign then 0 else indentStep) do
      visibility seenBy
      keywordIf isDefault "default"
      text ("type " ++ name)
      genericParams s generics
      each bounds.toList fun isFirst _ bound => do
        if isFirst then text ": "
        else
          space
          text "+ "
        s.bound bound
      let definition (sign : String) : Draft := do
        if let some type := type.toOption then
          text sign
          goOn
          flow (-indentStep) (s.type type)
      match place with
      | .file => do
        conditions s false false generics
        definition "= "
        text ";"
      | .foreign => text ";"
      | .impl | .trait => do
        definition " = "
        conditions s false true generics
    newline
  | .structItem attrs seenBy name generics fields => do
    s.outerAttributes attrs.toList
    block indentStep do
      visibility seenBy
      text ("struct " ++ name)
      genericParams s generics
      match fields with
      | .namedFields fields =>
        conditions s true false generics
        text "\x7b"
        body s [] fields.toList (fieldLine s)
      | .unnamedFields fields =>
        unnamedFields s fields.toList
        conditions s true true generics
      | .noFields => conditions s true true generics
    match fields with
    | .namedFields _ => text "\x7d"
    | _ => pure ()
    newline
  | .enumItem attrs seenBy name generics variants => do
    s.outerAttributes attrs.toList
    block indentStep do
      visibility seenBy
      text ("enum " ++ name)
      genericParams s generics
      conditions s true false generics
      text "\x7b"
      body s [] variants.toList (variantLine s)
    text "\x7d"
    newline
  | .unionItem attrs seenBy name generics fields => do
    s.outerAttributes attrs.toList
    block indentStep do
      visibility seenBy
      text ("union " ++ name)
      genericParams s generics
      conditions s true false generics
      text "\x7b"
      body s [] fields.toList (fieldLine s)
    text "\x7d"
    newline
  | .traitItem attrs seenBy isUnsafe isAuto name generics bounds items => do
    s.outerAttributes attrs.toList
    block indentStep do
      visibility seenBy
      keywordIf isUnsafe "unsafe"
      keywordIf isAuto "auto"
      text ("trait " ++ name)
      genericParams s generics
      if !bounds.toList.isEmpty then text ": "
      sepText " + " bounds.toList s.bound
      conditions s true false generics
      text "\x7b"
      body s attrs.toList items.toList (s.item .trait)
    text "\x7d"
    newline
  | .traitAliasItem attrs seenBy name generics bounds => do
    s.outerAttributes attrs.toList
    block indentStep do
      visibility seenBy
      text ("trait " ++ name)
      genericParams s generics
      text " = "
      goOn
      each bounds.toList fun isFirst _ bound => do
        if !isFirst then
          space
          text "+ "
        s.bound bound
      conditions s true true generics
    newline
  | .implItem attrs isDefault isUnsafe generics negative trait type items => do
    s.outerAttributes attrs.toList
    block indentStep do
      flow (-indentStep) do
        block indentStep do
          keywordIf isDefault "default"
          keywordIf isUnsafe "unsafe"
          text "impl"
          genericParams s generics
        text " "
        if let some trait := trait.toOption then
          if negative then text "!"
          path s .type trait
          space
          text "for "
        s.type type
      conditions s true false generics
      text "\x7b"
      body s attrs.toList items.toList (s.item .impl)
    text "\x7d"
    newline
  | .macroItem attrs name call _ => do
    s.outerAttributes attrs.toList
    macroCall call name (call.delimiter ≠ .brace)
    newline
  | .rawItem tokens => noLayout (itemName place) tokens

end Scribe

end ForeignWrap.Layout
