import ForeignWrap.Syntax.Expression
import ForeignWrap.Syntax.Signature

/-!
# Reading items

## Main definitions

* `ForeignWrap.Syntax.visibility`: who may see an item.
* `ForeignWrap.Syntax.Grammar.itemAfter?`: an item of a file, module or block, after its attributes.
* `ForeignWrap.Syntax.Grammar.readImplItem`, `ForeignWrap.Syntax.Grammar.readTraitItem`,
  `ForeignWrap.Syntax.Grammar.readExternItem`: the items inside others.
-/

namespace ForeignWrap.Syntax

open Code (Delimiter Token)
open Syntax.Parser

/-! ## Visibility -/

/-- Who may see an item, if it is said. Parentheses that name no module belong to what follows. -/
def visibility : Parser Visibility := do
  if !(← keyword? "pub") then return .inherited
  match ← ahead with
  | .group .parenthesis content :: _ =>
    if atWord "in" content then
      inside .parenthesis do
        keyword "in"
        return .within true (← namePath)
    else if (atWord "crate" content || atWord "self" content || atWord "super" content) &&
        (skip content).isEmpty then
      return .within false ⟨false, [← inside .parenthesis anyWord]⟩
    else return .everyone
  | _ => return .everyone

/-! ## Uses -/

/-- What a `use` may begin with. -/
def useStarts : List String :=
  ["identifier", code "self", code "super", code "crate", code "try", code "*", "curly braces"]

/-- What a `use` brings in, nested at most `depth` deep. Where it is `rooted`, members of a group
may begin with `::`. There is no tree for such a group. -/
def useTree? : (depth : Nat) → (rooted : Bool) → Parser (Option UseTree)
  | 0, _ => throw .tooDeep
  | depth + 1, rooted => do
    let tokens ← ahead
    if atName tokens || atWord "self" tokens || atWord "super" tokens || atWord "crate" tokens ||
        atWord "try" tokens then
      let first ← anyWord
      if ← op? "::" then return (← useTree? depth false).map (.path first)
      if ← keyword? "as" then
        if ← keyword? "_" then return some (.rename first "_")
        if atName (← ahead) then return some (.rename first (← name))
        expected ["identifier or underscore"]
      return some (.name first)
    else if ← op? "*" then return some .glob
    else if atGroup .brace tokens then
      let trees ← inside .brace <| commaList do
        let atRoot ← if rooted then op? "::" else pure false
        let tree ← useTree? depth (rooted && !atRoot)
        return if atRoot then none else tree
      return (trees.mapM id).map .group
    else expected useStarts

namespace Grammar

variable (g : Grammar)

/-! ## Fields -/

/-- The type of a field without a name of its own, whose fields are those of the struct around it.
There is no tree for it. -/
def inlineFields : Parser Ty := do
  let (_, tokens) ← asWritten do
    let _ ← anyWord
    let _ ← inside .brace (commaList g.field)
  return .rawType tokens

/-- A field with a name. -/
def readField : Parser (Tree .field) := do
  let attrs ← outerAttributes g
  let visibility ← visibility
  let unnamed := atWord "_" (← ahead)
  let name ← if unnamed then anyWord else name
  op ":"
  let tokens ← ahead
  let atFields :=
    atWord "struct" tokens || (atWord "union" tokens && atGroup .brace (skip tokens))
  let type ← if unnamed && atFields then inlineFields g else g.type true
  return .fieldOf (.ofList attrs) visibility (some name) type

/-- A field without a name. -/
def unnamedField : Parser (Tree .field) := do
  let attrs ← outerAttributes g
  let visibility ← visibility
  return .fieldOf (.ofList attrs) visibility none (← g.type true)

/-- Fields with names, between braces. -/
def namedFields : Parser (Tree (.many .field)) := do
  return .ofList (← inside .brace (commaList (readField g)))

/-- Fields without names, between parentheses. -/
def unnamedFields : Parser (Tree (.many .field)) := do
  return .ofList (← inside .parenthesis (commaList (unnamedField g)))

/-- A variant of an enum. It is seen by everyone who sees the enum, whatever is said. -/
def variant : Parser (Tree .variant) := do
  let attrs ← outerAttributes g
  let _ ← writtenAs [] visibility
  let name ← name
  let tokens ← ahead
  let fields ←
    if atGroup .brace tokens then Tree.namedFields <$> namedFields g
    else if atGroup .parenthesis tokens then Tree.unnamedFields <$> unnamedFields g
    else pure Tree.noFields
  let value ← if ← op? "=" then some <$> g.expr true else pure none
  return .variant (.ofList attrs) name fields (.ofOption value)

/-! ## Types of their own -/

/-- A struct, from its keyword. -/
def structItem (attrs : List Attribute) (visibility : Visibility) : Parser Item := do
  keyword "struct"
  let name ← name
  let params ← genericParams g
  let before ← conditions? g
  let tokens ← ahead
  let build (conditions : Option (List (Tree .condition))) (fields : Tree .fields) : Item :=
    .structItem (.ofList attrs) visibility name
      (.generics (.ofList params) (.ofList (conditions.getD []))) fields
  if before.isNone && atGroup .parenthesis tokens then
    let fields ← unnamedFields g
    let after ← conditions? g
    if ← op? ";" then return build after (.unnamedFields fields)
    expected (if after.isNone then [code "where", code ";"] else [code ";"])
  else if atGroup .brace tokens then
    return build before (.namedFields (← namedFields g))
  else if ← op? ";" then return build before .noFields
  else
    expected (if before.isNone then [code "where", "parentheses", "curly braces", code ";"]
      else ["curly braces", code ";"])

/-- An enum, from its keyword. -/
def enumItem (attrs : List Attribute) (visibility : Visibility) : Parser Item := do
  keyword "enum"
  let name ← name
  let params ← genericParams g
  let conditions ← conditions g
  let variants ← inside .brace (commaList (variant g))
  return .enumItem (.ofList attrs) visibility name
    (.generics (.ofList params) (.ofList conditions)) (.ofList variants)

/-- A union, from its keyword. -/
def unionItem (attrs : List Attribute) (visibility : Visibility) : Parser Item := do
  keyword "union"
  let name ← name
  let params ← genericParams g
  let conditions ← conditions g
  return .unionItem (.ofList attrs) visibility name
    (.generics (.ofList params) (.ofList conditions)) (← namedFields g)

/-- The type that a name stands for, if it is given. -/
def definition? : Parser (Option Ty) := do
  if ← op? "=" then some <$> g.type true else pure none

/-- A name for a type, from its keyword. Only in a trait is there a tree for one with bounds, and
only in a file or an impl is a type needed for one; in an extern block there is none for a type. -/
def typeItem? (place : ItemPlace) (attrs : List Attribute) (visibility : Visibility)
    (isDefault : Bool) : Parser (Option Item) := do
  keyword "type"
  let name ← name
  let params ← genericParams g
  let colon := atOp ":" (← ahead)
  let bounds ← unlessEmpty do
    if ← op? ":" then
      boundsBefore g .declared fun tokens =>
        atWord "where" tokens || atOp "=" tokens || atOp ";" tokens
    else return []
  let before ← if place = .file || place = .foreign then conditions? g else pure none
  let type ← definition? g
  let after ← if place ≠ .file && before.isNone then conditions? g else pure none
  op ";"
  let hasTree :=
    match place with
    | .file | .impl => !colon && type.isSome
    | .trait => true
    | .foreign => !colon && type.isNone
  return if hasTree then
    some (.typeItem (.ofList attrs) visibility isDefault name
      (.generics (.ofList params) (.ofList ((before.or after).getD []))) (.ofList bounds)
      (.ofOption type))
  else none

/-! ## Values -/

/-- A static, from its keyword. There is no tree for one without a type or a value. -/
def staticItem? (attrs : List Attribute) (visibility : Visibility) : Parser (Option Item) := do
  keyword "static"
  let mutable ← keyword? "mut"
  let name ← name
  if ← op? "=" then
    let _ ← g.expr true
    op ";"
    return none
  op ":"
  let type ← g.type true
  if ← op? ";" then return none
  op "="
  let value ← g.expr true
  op ";"
  return some
    (.staticItem (.ofList attrs) visibility mutable name type (.present value))

/-- A static of an extern block, whose value is elsewhere. There is no tree for one that is said to
be safe or not, nor for one with a value. -/
def externStatic? (attrs : List Attribute) (visibility : Visibility) : Parser (Option Item) := do
  let isUnsafe ← keyword? "unsafe"
  let isSafe ← if isUnsafe then pure false else keyword? "safe"
  keyword "static"
  let mutable ← keyword? "mut"
  let name ← name
  op ":"
  let type ← g.type true
  let hasValue ← op? "="
  if hasValue then
    let _ ← g.expr true
  op ";"
  return if isUnsafe || isSafe || hasValue then none
  else some (.staticItem (.ofList attrs) visibility mutable name type .absent)

/-- A constant after its keyword. There is no tree for one with parameters or conditions, and only
in a trait for one without a value. -/
def constItem? (place : ItemPlace) (attrs : List Attribute) (visibility : Visibility)
    (isDefault : Bool) : Parser (Option Item) := do
  let tokens ← ahead
  let name ←
    if atName tokens || atWord "_" tokens then anyWord else expected ["identifier", code "_"]
  let isGeneric := atOp "<" (← ahead)
  let _ ← genericParams g
  op ":"
  let type ← g.type true
  let value ← if ← op? "=" then some <$> g.expr true else pure none
  let conditions ← conditions? g
  op ";"
  return if isGeneric || conditions.isSome || (place ≠ .trait && value.isNone) then none
  else some
    (.constItem (.ofList attrs) visibility isDefault name type (.ofOption value))

/-! ## Functions and macros -/

/-- A function, from its signature. In a trait a semicolon may stand for its body; elsewhere there
is no tree for that. -/
def fnItem? (place : ItemPlace) (attrs : List Attribute) (visibility : Visibility)
    (isDefault : Bool) : Parser (Option Item) := do
  let signature ← signature g
  let build := Tree.fnItem (.ofList attrs) visibility isDefault signature
  if ← op? ";" then return if place = .trait then some (build .absent) else none
  if place = .trait && !atGroup .brace (← ahead) then expected ["curly braces", code ";"]
  return some (build (.present (← attributedBlock g)))

/-- A function of an extern block, whose body is elsewhere. There is no tree for one with a body,
nor for one that is said to be safe. -/
def externFn? (attrs : List Attribute) (visibility : Visibility) : Parser (Option Item) := do
  let (signature, isSafe) ← signatureOrSafe g true
  if atGroup .brace (← ahead) then
    let _ ← attributedBlock g
    return none
  op ";"
  return if isSafe then none
  else some (.fnItem (.ofList attrs) visibility false signature .absent)

/-- A use of a macro in place of an item. Unless it has braces, a semicolon ends it. -/
def macroItem (attrs : List Attribute) (named : Bool) : Parser Item := do
  let path ← namePath
  op "!"
  let tokens ← ahead
  let name ←
    if named && (atName tokens || atWord "try" tokens) then some <$> anyWord else pure none
  let (delimiter, content) ← anyGroup
  if delimiter ≠ .brace then op ";"
  return .macroItem (.ofList attrs) name ⟨path, delimiter, content⟩ (delimiter ≠ .brace)

/-- A macro as an item of its own, from its keyword: its name, perhaps parameters, and rules. -/
def declaredMacro : Parser Unit := do
  keyword "macro"
  let _ ← name
  let hasParams := atGroup .parenthesis (← ahead)
  if hasParams then
    let _ ← anyGroup
  if !atGroup .brace (← ahead) then
    expected (if hasParams then ["curly braces"] else ["parentheses", "curly braces"])
  let _ ← anyGroup

/-- Whether the path of a macro may come first. -/
def atMacroPath (tokens : List Token) : Bool :=
  atName tokens || atWord "self" tokens || atWord "super" tokens || atWord "crate" tokens ||
    atOp "::" tokens

/-- What the path of a macro may begin with. -/
def macroPathStarts : List String :=
  ["identifier", code "self", code "super", code "crate", code "::"]

/-! ## Items that hold items -/

/-- An extern block, from `unsafe` or `extern`. -/
def externBlock (attrs : List Attribute) (visibility : Visibility) : Parser Item := do
  if visibility ≠ .inherited then throw (.expected [code "extern"] false)
  let isUnsafe ← keyword? "unsafe"
  keyword "extern"
  let abi : Abi := ⟨← string?⟩
  inside .brace do
    let inner ← innerAttributes g
    let items ← untilEnd g.externItem
    return .externItem (.ofList (attrs ++ inner)) isUnsafe abi (.ofList items)

/-- What follows `extern`: a crate or a block. -/
def crateOrBlock (attrs : List Attribute) (visibility : Visibility) : Parser Item := do
  let next := skip (← ahead)
  if atWord "crate" next then
    keyword "extern"
    keyword "crate"
    let name ← if atWord "self" (← ahead) then anyWord else name
    let newName ←
      if ← keyword? "as" then
        some <$> (do if atWord "_" (← ahead) then anyWord else Parser.name)
      else pure none
    op ";"
    return .externCrateItem (.ofList attrs) visibility name newName
  if atGroup .brace next || (atString next && atGroup .brace (skip next)) then
    externBlock g attrs visibility
  else
    keyword "extern"
    if (← string?).isSome then expected ["curly braces"]
    expected [code "crate", "curly braces", "string literal"]

/-- A module, from `unsafe` or `mod`. -/
def moduleItem (attrs : List Attribute) (visibility : Visibility) : Parser Item := do
  let isUnsafe ← keyword? "unsafe"
  keyword "mod"
  let name ← if atWord "try" (← ahead) then anyWord else name
  if ← op? ";" then
    return .moduleItem (.ofList attrs) visibility isUnsafe name .absent
  if !atGroup .brace (← ahead) then expected [code ";", "curly braces"]
  inside .brace do
    let inner ← innerAttributes g
    let items ← untilEnd g.item
    return .moduleItem (.ofList (attrs ++ inner)) visibility isUnsafe name
      (.present (.ofList items))

/-- A trait or a name for bounds, from `unsafe`, `auto` or `trait`. -/
def traitOrAlias (attrs : List Attribute) (visibility : Visibility) : Parser Item := do
  let isUnsafe ← keyword? "unsafe"
  let isAuto ← keyword? "auto"
  keyword "trait"
  let name ← name
  let params ← genericParams g
  let tokens ← ahead
  if !isUnsafe && !isAuto then
    if ← op? "=" then
      let bounds ← boundsBefore g .object fun tokens => atWord "where" tokens || atOp ";" tokens
      let conditions ← conditions g
      op ";"
      return .traitAliasItem (.ofList attrs) visibility name
        (.generics (.ofList params) (.ofList conditions)) (.ofList bounds)
    if !atGroup .brace tokens && !atOp ":" tokens && !atWord "where" tokens then
      expected ["curly braces", code ":", code "where", code "="]
  let bounds ← unlessEmpty do
    if ← op? ":" then
      boundsBefore g .declared fun tokens => atWord "where" tokens || atGroup .brace tokens
    else return []
  let conditions ← conditions g
  inside .brace do
    let inner ← innerAttributes g
    let items ← untilEnd g.traitItem
    return .traitItem (.ofList (attrs ++ inner)) visibility isUnsafe isAuto name
      (.generics (.ofList params) (.ofList conditions)) (.ofList bounds) (.ofList items)

/-- An impl block, from `default`, `unsafe` or `impl`. There is no tree for one that only some may
see, one that is `const`, or one of a trait that is no plain path. -/
def implBlock? (attrs : List Attribute) (visibility : Visibility) : Parser (Option Item) := do
  let isDefault ← keyword? "default"
  let isUnsafe ← keyword? "unsafe"
  keyword "impl"
  let params ← if atGenericParams (← ahead) then genericParams g else pure []
  let tokens ← ahead
  let isConst := atWord "const" tokens || (atOp "?" tokens && atWord "const" (skip tokens))
  if isConst then
    let _ ← op? "?"
    keyword "const"
  let tokens ← ahead
  let negative := atOp "!" tokens && !atGroup .brace (skip tokens)
  if negative then op "!"
  let first ← g.type true
  let isFor ← keyword? "for"
  if !isFor && negative then broken "inherent impls cannot be negative"
  let type ← if isFor then g.type true else pure first
  let trait : Option (Tree .path) :=
    match isFor, first with
    | true, .pathType (.path .absent position rooted segments) =>
      some (.path .absent position rooted segments)
    | _, _ => none
  let conditions ← conditions g
  inside .brace do
    let inner ← innerAttributes g
    let items ← untilEnd g.implItem
    return if visibility ≠ .inherited || isConst || (isFor && trait.isNone) then none
    else some (.implItem (.ofList (attrs ++ inner)) isDefault isUnsafe
      (.generics (.ofList params) (.ofList conditions)) negative (.ofOption trait) type
      (.ofList items))

/-! ## Items of a file, module or block -/

/-- Fails because one of these words or one of these things had to come next. The word that does
come next may be one of them, with the wrong thing after it; then it is not told. -/
def expectedWord {α : Type} (words : List String) (others : List String := []) : Parser α := do
  let tokens ← ahead
  expected ((words.filter (!atWord · tokens)).map code ++ others)

/-- The words that an item may begin with. -/
def itemWords : List String :=
  ["fn", "extern", "use", "static", "const", "unsafe", "mod", "type", "struct", "enum", "union",
    "trait", "auto", "impl", "default", "macro"]

/-- An item after its attributes, if there is a tree for it. -/
def itemAfter? (attrs : List Attribute) : Parser (Option Item) := do
  let visibility ← visibility
  let tokens ← ahead
  let next := skip tokens
  if atSignature false tokens then fnItem? g .file attrs visibility false
  else if atWord "extern" tokens then some <$> crateOrBlock g attrs visibility
  else if ← keyword? "use" then
    let rooted ← op? "::"
    let tree ← useTree? (Code.sizeOf (← ahead) + 1) (!rooted)
    op ";"
    return tree.map (.useItem (.ofList attrs) visibility rooted)
  else if atWord "static" tokens then staticItem? g attrs visibility
  else if ← keyword? "const" then constItem? g .file attrs visibility false
  else if atWord "unsafe" tokens then
    if atWord "trait" next || (atWord "auto" next && atWord "trait" (skip next)) then
      some <$> traitOrAlias g attrs visibility
    else if atWord "impl" next then implBlock? g attrs visibility
    else if atWord "extern" next then some <$> externBlock g attrs visibility
    else if atWord "mod" next then some <$> moduleItem g attrs visibility
    else
      keyword "unsafe"
      expectedWord ["trait", "auto", "impl", "extern", "mod"]
  else if atWord "mod" tokens then some <$> moduleItem g attrs visibility
  else if atWord "type" tokens then typeItem? g .file attrs visibility false
  else if atWord "struct" tokens then some <$> structItem g attrs visibility
  else if atWord "enum" tokens then some <$> enumItem g attrs visibility
  else if atWord "union" tokens && atName next then some <$> unionItem g attrs visibility
  else if atWord "trait" tokens || (atWord "auto" tokens && atWord "trait" next) then
    some <$> traitOrAlias g attrs visibility
  else if atWord "impl" tokens || (atWord "default" tokens && !atOp "!" next) then
    implBlock? g attrs visibility
  else if atWord "macro" tokens then
    declaredMacro
    return none
  else if visibility = .inherited && atMacroPath tokens then some <$> macroItem attrs true
  else
    expectedWord itemWords (if visibility = .inherited then macroPathStarts else [])

/-- An item. -/
def readItem : Parser Item :=
  orRaw .rawItem do
    itemAfter? g (← outerAttributes g)

/-! ## Items inside others -/

/-- An item of an impl block. -/
def readImplItem : Parser Item :=
  orRaw .rawItem do
    let attrs ← outerAttributes g
    let visibility ← visibility
    let tokens ← ahead
    let isDefault := atWord "default" tokens && !atOp "!" (skip tokens)
    if isDefault then keyword "default"
    let tokens ← ahead
    let isPlain := visibility = .inherited && !isDefault
    if atSignature false tokens then fnItem? g .impl attrs visibility isDefault
    else if ← keyword? "const" then constItem? g .impl attrs visibility isDefault
    else if atWord "type" tokens then typeItem? g .impl attrs visibility isDefault
    else if isPlain && atMacroPath tokens then some <$> macroItem attrs false
    else
      expectedWord ((if isDefault then [] else ["default"]) ++ ["fn", "const", "type"])
        (if isPlain then macroPathStarts else [])

/-- An item of a trait, after its attributes and what stands before its keyword. -/
def traitItemAfter? (attrs : List Attribute) (isPlain : Bool) : Parser (Option Item) := do
  let tokens ← ahead
  let next := skip tokens
  if atWord "const" tokens && (atName next || atWord "_" next) then
    keyword "const"
    constItem? g .trait attrs .inherited false
  else if atSignature false tokens || (atWord "const" tokens &&
      (atWord "async" next || atWord "unsafe" next || atWord "extern" next)) then
    fnItem? g .trait attrs .inherited false
  else if ← keyword? "const" then
    expected (["identifier"] ++ ["_", "async", "unsafe", "extern", "fn"].map code)
  else if atWord "type" tokens then typeItem? g .trait attrs .inherited false
  else if isPlain && atMacroPath tokens then some <$> macroItem attrs false
  else expected (["fn", "const", "type"].map code ++ if isPlain then macroPathStarts else [])

/-- An item of a trait. All of them are seen by everyone who sees the trait, so there is no tree for
one that says who may see it, nor for a default. -/
def readTraitItem : Parser Item :=
  orRaw .rawItem do
    let attrs ← outerAttributes g
    let visibility ← visibility
    let isDefault ← keyword? "default"
    let isPlain := visibility = .inherited && !isDefault
    let item ← traitItemAfter? g attrs isPlain
    return if isPlain then item else none

/-- An item of an extern block. -/
def readExternItem : Parser Item :=
  orRaw .rawItem do
    let attrs ← outerAttributes g
    let visibility ← visibility
    let tokens ← ahead
    let isStatic := atWord "static" tokens ||
      ((atWord "unsafe" tokens || atWord "safe" tokens) && atWord "static" (skip tokens))
    if atSignature true tokens then externFn? g attrs visibility
    else if isStatic then externStatic? g attrs visibility
    else if atWord "type" tokens then typeItem? g .foreign attrs visibility false
    else if visibility = .inherited && atMacroPath tokens then some <$> macroItem attrs false
    else
      expected (["fn", "static", "type"].map code ++
        if visibility = .inherited then macroPathStarts else [])

end Grammar

end ForeignWrap.Syntax
