import ForeignWrap.Code.Token

/-!
# Syntax trees

What code means to its reader: files of items, with types, patterns, expressions and statements
inside. A tree keeps the parentheses of its code, so that it can be written again as it was meant.
Names keep their `r#`, lifetimes lose their apostrophe, and literals stay as they were written.
Syntax that is read but has no meaning of its own here is kept as its tokens, in a raw tree.

The classes of syntax contain each other, so they are one family of trees, indexed by the class.
Lists and optional parts of trees are classes too.

## Main definitions

* `ForeignWrap.Syntax.SyntaxClass`: the classes of syntax.
* `ForeignWrap.Syntax.Tree`: the trees of a class.
* `ForeignWrap.Syntax.File`: a whole file.
-/

namespace ForeignWrap.Syntax

open Code (Delimiter Token)

/-! ## Parts without types and expressions -/

/-- A path of plain names, such as `a::b`. -/
structure NamePath where
  /-- Whether the path begins with `::`. -/
  rooted : Bool
  /-- The names of the path, at least one. -/
  names : List String
deriving DecidableEq

/-- Whether a path is just this name. -/
def NamePath.isName (path : NamePath) (name : String) : Bool :=
  !path.rooted && path.names == [name]

/-- A use of a macro, whose argument is any code. -/
structure MacroCall where
  path : NamePath
  delimiter : Delimiter
  content : List Token

/-- A field: a name, or the number of a field that has none. -/
inductive Member where
  | named (name : String)
  | numbered (index : Nat)
deriving DecidableEq

/-- The calling convention of a function, `extern` with or without a name for it. -/
structure Abi where
  name : Option String
deriving DecidableEq

/-- The operators before an expression. -/
inductive UnaryOp where
  | deref
  | not
  | neg
deriving DecidableEq

/-- The operators between two expressions. -/
inductive BinaryOp where
  | add | sub | mul | div | rem | and | or | bitXor | bitAnd | bitOr | shl | shr
  | eq | lt | le | ne | ge | gt
  | addAssign | subAssign | mulAssign | divAssign | remAssign
  | bitXorAssign | bitAndAssign | bitOrAssign | shlAssign | shrAssign
deriving DecidableEq

/-- Whether a range has its end in it. -/
inductive RangeLimits where
  | halfOpen
  | closed
deriving DecidableEq

/-- Who may see an item. -/
inductive Visibility where
  | inherited
  | everyone
  /-- Only a module: `pub(crate)`, or with `in` before any path. -/
  | within (isIn : Bool) (path : NamePath)
deriving DecidableEq

/-- What a `use` brings in. -/
inductive UseTree where
  | path (name : String) (tree : UseTree)
  | name (name : String)
  | rename (name newName : String)
  | glob
  | group (trees : List UseTree)

/-- Where an item stands. It decides what belongs to it. -/
inductive ItemPlace where
  /-- In a file, a module or a block. -/
  | file
  | impl
  | trait
  | foreign
deriving DecidableEq

/-- The reference of a method's receiver, with its lifetime. -/
structure ReceiverReference where
  lifetime : Option String
deriving DecidableEq

/-! ## The family of trees -/

/-- The classes of syntax. -/
inductive SyntaxClass where
  | path
  | segment
  | genericArg
  | bound
  | type
  | typeArg
  | attribute
  | pat
  | fieldPat
  | expr
  | fieldValue
  | arm
  | block
  | stmt
  | generics
  | genericParam
  | condition
  | param
  | signature
  | field
  | fields
  | variant
  | item
  /-- Lists of trees of a class. -/
  | many (c : SyntaxClass)
  /-- Trees of a class that may be left out. -/
  | maybe (c : SyntaxClass)

/-- The trees of a class. -/
inductive Tree : SyntaxClass → Type where
  | nil {c : SyntaxClass} : Tree (.many c)
  | cons {c : SyntaxClass} (head : Tree c) (tail : Tree (.many c)) : Tree (.many c)
  | absent {c : SyntaxClass} : Tree (.maybe c)
  | present {c : SyntaxClass} (tree : Tree c) : Tree (.maybe c)
  /-- A path. If it is qualified by a type, its first `position` parts name the trait that the type
  is seen as. -/
  | path (self : Tree (.maybe .type)) (position : Nat) (rooted : Bool)
      (segments : Tree (.many .segment)) : Tree .path
  | segment (name : String) : Tree .segment
  | segmentOf (name : String) (turbofish : Bool) (args : Tree (.many .genericArg)) : Tree .segment
  | segmentCall (name : String) (inputs : Tree (.many .type)) (output : Tree (.maybe .type)) :
      Tree .segment
  | lifetimeArg (name : String) : Tree .genericArg
  | typeArg (type : Tree .type) : Tree .genericArg
  | valueArg (value : Tree .expr) : Tree .genericArg
  | typeBinding (name : String) (args : Tree (.maybe (.many .genericArg))) (type : Tree .type) :
      Tree .genericArg
  | valueBinding (name : String) (args : Tree (.maybe (.many .genericArg)))
      (value : Tree .expr) : Tree .genericArg
  | boundedArg (name : String) (args : Tree (.maybe (.many .genericArg)))
      (bounds : Tree (.many .bound)) : Tree .genericArg
  | traitBound (parenthesized isMaybe : Bool) (lifetimes : Tree (.maybe (.many .genericParam)))
      (path : Tree .path) : Tree .bound
  | lifetimeBound (name : String) : Tree .bound
  | captureBound (names : List String) : Tree .bound
  | rawBound (tokens : List Token) : Tree .bound
  | pathType (path : Tree .path) : Tree .type
  | referenceType (lifetime : Option String) (mutable : Bool) (elem : Tree .type) : Tree .type
  | pointerType (mutable : Bool) (elem : Tree .type) : Tree .type
  | sliceType (elem : Tree .type) : Tree .type
  | arrayType (elem : Tree .type) (length : Tree .expr) : Tree .type
  | tupleType (elems : Tree (.many .type)) : Tree .type
  | parenType (elem : Tree .type) : Tree .type
  | neverType : Tree .type
  | inferType : Tree .type
  | implType (bounds : Tree (.many .bound)) : Tree .type
  | objectType (marked : Bool) (bounds : Tree (.many .bound)) : Tree .type
  | functionType (lifetimes : Tree (.maybe (.many .genericParam))) (isUnsafe : Bool)
      (abi : Option Abi) (inputs : Tree (.many .typeArg)) (output : Tree (.maybe .type)) :
      Tree .type
  | macroType (call : MacroCall) : Tree .type
  | rawType (tokens : List Token) : Tree .type
  | namedTypeArg (attrs : Tree (.many .attribute)) (name : Option String) (type : Tree .type) :
      Tree .typeArg
  | variadicTypeArg (attrs : Tree (.many .attribute)) (name : Option String) : Tree .typeArg
  | pathAttribute (inner : Bool) (path : NamePath) : Tree .attribute
  | listAttribute (inner : Bool) (path : NamePath) (delimiter : Delimiter)
      (content : List Token) : Tree .attribute
  | valueAttribute (inner : Bool) (path : NamePath) (value : Tree .expr) : Tree .attribute
  | identPat (byRef mutable : Bool) (name : String) (sub : Tree (.maybe .pat)) : Tree .pat
  | pathPat (path : Tree .path) : Tree .pat
  | callPat (path : Tree .path) (elems : Tree (.many .pat)) : Tree .pat
  /-- The fields of a struct; dots, with attributes of their own, may stand for the others. -/
  | structPat (path : Tree .path) (fields : Tree (.many .fieldPat))
      (rest : Tree (.maybe (.many .attribute))) : Tree .pat
  /-- A tuple; `comma` if one follows its first element, as it must unless that is `..`. -/
  | tuplePat (elems : Tree (.many .pat)) (comma : Bool) : Tree .pat
  | parenPat (elem : Tree .pat) : Tree .pat
  | slicePat (elems : Tree (.many .pat)) : Tree .pat
  | referencePat (mutable : Bool) (elem : Tree .pat) : Tree .pat
  | exprPat (expr : Tree .expr) : Tree .pat
  | restPat : Tree .pat
  | wildPat : Tree .pat
  | orPat (leading : Bool) (cases : Tree (.many .pat)) : Tree .pat
  | macroPat (call : MacroCall) : Tree .pat
  | typedPat (attrs : Tree (.many .attribute)) (pat : Tree .pat) (type : Tree .type) : Tree .pat
  | attributedPat (attrs : Tree (.many .attribute)) (pat : Tree .pat) : Tree .pat
  | rawPat (tokens : List Token) : Tree .pat
  /-- A field in a pattern; a shorthand binds the variable of its name. -/
  | fieldPat (attrs : Tree (.many .attribute)) (member : Member) (shorthand : Bool)
      (pat : Tree .pat) : Tree .fieldPat
  | literal (text : String) : Tree .expr
  | pathExpr (path : Tree .path) : Tree .expr
  | macroExpr (call : MacroCall) : Tree .expr
  | attributed (attrs : Tree (.many .attribute)) (expr : Tree .expr) : Tree .expr
  | unary (op : UnaryOp) (expr : Tree .expr) : Tree .expr
  | reference (mutable : Bool) (expr : Tree .expr) : Tree .expr
  | rawAddress (mutable : Bool) (expr : Tree .expr) : Tree .expr
  | binary (op : BinaryOp) (left right : Tree .expr) : Tree .expr
  | assign (left right : Tree .expr) : Tree .expr
  | cast (expr : Tree .expr) (type : Tree .type) : Tree .expr
  | question (expr : Tree .expr) : Tree .expr
  | await (expr : Tree .expr) : Tree .expr
  | call (func : Tree .expr) (args : Tree (.many .expr)) : Tree .expr
  | methodCall (receiver : Tree .expr) (method : String)
      (turbofish : Tree (.maybe (.many .genericArg))) (args : Tree (.many .expr)) : Tree .expr
  | field (base : Tree .expr) (member : Member) : Tree .expr
  | index (base position : Tree .expr) : Tree .expr
  | range (start : Tree (.maybe .expr)) (limits : RangeLimits) (stop : Tree (.maybe .expr)) :
      Tree .expr
  | paren (expr : Tree .expr) : Tree .expr
  | tuple (elems : Tree (.many .expr)) : Tree .expr
  | array (elems : Tree (.many .expr)) : Tree .expr
  | repeated (elem length : Tree .expr) : Tree .expr
  | structExpr (path : Tree .path) (fields : Tree (.many .fieldValue)) (dots : Bool)
      (base : Tree (.maybe .expr)) : Tree .expr
  | blockExpr (label : Option String) (block : Tree .block) : Tree .expr
  | unsafeBlock (block : Tree .block) : Tree .expr
  | asyncBlock (capture : Bool) (block : Tree .block) : Tree .expr
  | constBlock (block : Tree .block) : Tree .expr
  | tryBlock (block : Tree .block) : Tree .expr
  | ifThen (cond : Tree .expr) (block : Tree .block) (otherwise : Tree (.maybe .expr)) : Tree .expr
  | letIn (pat : Tree .pat) (expr : Tree .expr) : Tree .expr
  | whileLoop (label : Option String) (cond : Tree .expr) (body : Tree .block) : Tree .expr
  | loop (label : Option String) (body : Tree .block) : Tree .expr
  | forLoop (label : Option String) (pat : Tree .pat) (expr : Tree .expr) (body : Tree .block) :
      Tree .expr
  | matchOn (expr : Tree .expr) (inner : Tree (.many .attribute)) (arms : Tree (.many .arm)) :
      Tree .expr
  | closure (lifetimes : Tree (.maybe (.many .genericParam)))
      (isConst isStatic isAsync capture : Bool) (inputs : Tree (.many .pat))
      (output : Tree (.maybe .type)) (body : Tree .expr) : Tree .expr
  | breakTo (label : Option String) (value : Tree (.maybe .expr)) : Tree .expr
  | continueTo (label : Option String) : Tree .expr
  | returnWith (value : Tree (.maybe .expr)) : Tree .expr
  | yieldWith (value : Tree (.maybe .expr)) : Tree .expr
  | infer : Tree .expr
  | rawExpr (tokens : List Token) : Tree .expr
  /-- A field in a struct expression; without a value it is the variable of its name. -/
  | fieldValue (attrs : Tree (.many .attribute)) (member : Member) (value : Tree (.maybe .expr)) :
      Tree .fieldValue
  | arm (attrs : Tree (.many .attribute)) (pat : Tree .pat) (guard : Tree (.maybe .expr))
      (body : Tree .expr) : Tree .arm
  /-- Statements between braces, after the attributes for the block. -/
  | block (inner : Tree (.many .attribute)) (stmts : Tree (.many .stmt)) : Tree .block
  | emptyStmt : Tree .stmt
  | letStmt (attrs : Tree (.many .attribute)) (pat : Tree .pat) (init : Tree (.maybe .expr))
      (diverge : Tree (.maybe .block)) : Tree .stmt
  | itemStmt (item : Tree .item) : Tree .stmt
  | exprStmt (expr : Tree .expr) (semicolon : Bool) : Tree .stmt
  | macroStmt (attrs : Tree (.many .attribute)) (call : MacroCall) (semicolon : Bool) : Tree .stmt
  | generics (params : Tree (.many .genericParam)) (conditions : Tree (.many .condition)) :
      Tree .generics
  | lifetimeParam (attrs : Tree (.many .attribute)) (name : String) (bounds : List String) :
      Tree .genericParam
  | typeParam (attrs : Tree (.many .attribute)) (name : String) (bounds : Tree (.many .bound))
      (byDefault : Tree (.maybe .type)) : Tree .genericParam
  | valueParam (attrs : Tree (.many .attribute)) (name : String) (type : Tree .type)
      (byDefault : Tree (.maybe .expr)) : Tree .genericParam
  | lifetimeCondition (name : String) (bounds : List String) : Tree .condition
  | typeCondition (lifetimes : Tree (.maybe (.many .genericParam))) (type : Tree .type)
      (bounds : Tree (.many .bound)) : Tree .condition
  | receiver (attrs : Tree (.many .attribute)) (reference : Option ReceiverReference)
      (mutable : Bool) (type : Tree (.maybe .type)) : Tree .param
  | typedParam (attrs : Tree (.many .attribute)) (pat : Tree .pat) (type : Tree .type) :
      Tree .param
  | variadicParam (attrs : Tree (.many .attribute)) (pat : Tree (.maybe .pat)) : Tree .param
  | signature (isConst isAsync isUnsafe : Bool) (abi : Option Abi) (name : String)
      (generics : Tree .generics) (params : Tree (.many .param)) (output : Tree (.maybe .type)) :
      Tree .signature
  | fieldOf (attrs : Tree (.many .attribute)) (visibility : Visibility) (name : Option String)
      (type : Tree .type) : Tree .field
  | namedFields (fields : Tree (.many .field)) : Tree .fields
  | unnamedFields (fields : Tree (.many .field)) : Tree .fields
  | noFields : Tree .fields
  | variant (attrs : Tree (.many .attribute)) (name : String) (fields : Tree .fields)
      (value : Tree (.maybe .expr)) : Tree .variant
  /-- A function. In a trait or an extern block it may lack its body. -/
  | fnItem (attrs : Tree (.many .attribute)) (visibility : Visibility) (isDefault : Bool)
      (signature : Tree .signature) (body : Tree (.maybe .block)) : Tree .item
  | externCrateItem (attrs : Tree (.many .attribute)) (visibility : Visibility) (name : String)
      (newName : Option String) : Tree .item
  | externItem (attrs : Tree (.many .attribute)) (isUnsafe : Bool) (abi : Abi)
      (items : Tree (.many .item)) : Tree .item
  | useItem (attrs : Tree (.many .attribute)) (visibility : Visibility) (rooted : Bool)
      (tree : UseTree) : Tree .item
  | staticItem (attrs : Tree (.many .attribute)) (visibility : Visibility) (mutable : Bool)
      (name : String) (type : Tree .type) (value : Tree (.maybe .expr)) : Tree .item
  | constItem (attrs : Tree (.many .attribute)) (visibility : Visibility) (isDefault : Bool)
      (name : String) (type : Tree .type) (value : Tree (.maybe .expr)) : Tree .item
  | moduleItem (attrs : Tree (.many .attribute)) (visibility : Visibility) (isUnsafe : Bool)
      (name : String) (items : Tree (.maybe (.many .item))) : Tree .item
  /-- A name for a type. In a trait it may have bounds and lack the type. -/
  | typeItem (attrs : Tree (.many .attribute)) (visibility : Visibility) (isDefault : Bool)
      (name : String) (generics : Tree .generics) (bounds : Tree (.many .bound))
      (type : Tree (.maybe .type)) : Tree .item
  | structItem (attrs : Tree (.many .attribute)) (visibility : Visibility) (name : String)
      (generics : Tree .generics) (fields : Tree .fields) : Tree .item
  | enumItem (attrs : Tree (.many .attribute)) (visibility : Visibility) (name : String)
      (generics : Tree .generics) (variants : Tree (.many .variant)) : Tree .item
  | unionItem (attrs : Tree (.many .attribute)) (visibility : Visibility) (name : String)
      (generics : Tree .generics) (fields : Tree (.many .field)) : Tree .item
  | traitItem (attrs : Tree (.many .attribute)) (visibility : Visibility)
      (isUnsafe isAuto : Bool) (name : String) (generics : Tree .generics)
      (bounds : Tree (.many .bound)) (items : Tree (.many .item)) : Tree .item
  | traitAliasItem (attrs : Tree (.many .attribute)) (visibility : Visibility) (name : String)
      (generics : Tree .generics) (bounds : Tree (.many .bound)) : Tree .item
  | implItem (attrs : Tree (.many .attribute)) (isDefault isUnsafe : Bool)
      (generics : Tree .generics) (negative : Bool) (trait : Tree (.maybe .path))
      (type : Tree .type) (items : Tree (.many .item)) : Tree .item
  | macroItem (attrs : Tree (.many .attribute)) (name : Option String) (call : MacroCall)
      (semicolon : Bool) : Tree .item
  | rawItem (tokens : List Token) : Tree .item

namespace Tree

/-! ## Lists and optional trees -/

/-- The trees of a list, whose class is known through an equation. -/
def elements (c : SyntaxClass) : {k : SyntaxClass} → Tree k → k = .many c → List (Tree c)
  | _, cons head tail, h => (SyntaxClass.many.inj h ▸ head) :: elements c tail h
  | _, _, _ => []

/-- The trees of a list. -/
def toList {c : SyntaxClass} (trees : Tree (.many c)) : List (Tree c) :=
  elements c trees rfl

/-- A list of trees as one tree. -/
def ofList {c : SyntaxClass} : List (Tree c) → Tree (.many c)
  | [] => nil
  | head :: tail => cons head (ofList tail)

/-- The tree of an optional part, if it is there. -/
def toOption {c : SyntaxClass} : Tree (.maybe c) → Option (Tree c)
  | absent => none
  | present tree => some tree

/-- An optional tree as one tree. -/
def ofOption {c : SyntaxClass} : Option (Tree c) → Tree (.maybe c)
  | none => absent
  | some tree => present tree

@[simp] theorem toList_nil {c : SyntaxClass} : (nil : Tree (.many c)).toList = [] :=
  rfl

@[simp] theorem toList_cons {c : SyntaxClass} (head : Tree c) (tail : Tree (.many c)) :
    (cons head tail).toList = head :: tail.toList :=
  rfl

@[simp] theorem toList_ofList {c : SyntaxClass} (trees : List (Tree c)) :
    (ofList trees).toList = trees := by
  induction trees with
  | nil => rfl
  | cons head tail ih => simp [ofList, ih]

@[simp] theorem toOption_ofOption {c : SyntaxClass} (tree : Option (Tree c)) :
    (ofOption tree).toOption = tree := by
  cases tree <;> rfl

end Tree

/-- A type. -/
abbrev Ty := Tree .type

/-- A pattern. -/
abbrev Pat := Tree .pat

/-- An expression. -/
abbrev Expr := Tree .expr

/-- A statement. -/
abbrev Stmt := Tree .stmt

/-- An item of a file, a module, a block, an impl, a trait or an extern block. -/
abbrev Item := Tree .item

/-- An attribute. -/
abbrev Attribute := Tree .attribute

/-- Whether an attribute is for what encloses it. -/
def Tree.isInner : Attribute → Bool
  | .pathAttribute inner _ => inner
  | .listAttribute inner _ _ _ => inner
  | .valueAttribute inner _ _ => inner

/-- Whether an argument of a function type stands for any others. -/
def Tree.isVariadicArg : Tree .typeArg → Bool
  | .variadicTypeArg .. => true
  | _ => false

/-- Whether an expression is kept as its tokens. -/
def Tree.isRaw : Expr → Bool
  | .rawExpr _ => true
  | _ => false

/-- Whether a pattern is kept as its tokens. -/
def Tree.isRawPat : Pat → Bool
  | .rawPat _ => true
  | _ => false

/-- Whether a parameter stands for any others. -/
def Tree.isVariadicParam : Tree .param → Bool
  | .variadicParam .. => true
  | _ => false

/-- A whole file. -/
structure File where
  /-- The attributes for the file. -/
  attrs : List Attribute
  /-- The items of the file, in order. -/
  items : List Item
  /-- How many tokens the file was read from. No tree in it is deeper. -/
  size : Nat

end ForeignWrap.Syntax
