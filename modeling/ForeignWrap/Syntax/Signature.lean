import ForeignWrap.Syntax.Pattern

/-!
# Reading signatures

## Main definitions

* `ForeignWrap.Syntax.atSignature`: whether a signature comes first.
* `ForeignWrap.Syntax.Grammar.signature`: a function without its body.
-/

namespace ForeignWrap.Syntax

open Code (Delimiter Token)
open Syntax.Parser

/-! ## What is ahead -/

/-- The tokens after a word, if it comes first. -/
def afterOptionalWord (text : String) (tokens : List Token) : List Token :=
  if atWord text tokens then skip tokens else tokens

/-- The tokens after a calling convention, if one comes first. -/
def afterOptionalAbi (tokens : List Token) : List Token :=
  if atWord "extern" tokens then
    let rest := skip tokens
    if atString rest then skip rest else rest
  else tokens

/-- Whether a signature comes first. Where `safe` is true that word may stand in it. -/
def atSignature (safe : Bool) (tokens : List Token) : Bool :=
  let tokens := ["const", "async"].foldl (fun rest text => afterOptionalWord text rest) tokens
  let word := if safe && atWord "safe" tokens then "safe" else "unsafe"
  atWord "fn" (afterOptionalAbi (afterOptionalWord word tokens))

/-- Whether a receiver comes first: `self`, not as the beginning of a path, which a reference and
`mut` may stand before. -/
def atReceiver (tokens : List Token) : Bool :=
  let afterReference :=
    if atOp "&" tokens then
      let rest := skip tokens
      if atLifetime rest then skip rest else rest
    else tokens
  let rest := afterOptionalWord "mut" afterReference
  atWord "self" rest && !atOp "::" (skip rest)

/-- Whether a parameter is the receiver of a method. -/
def Tree.isReceiver : Tree .param → Bool
  | .receiver .. => true
  | _ => false

namespace Grammar

variable (g : Grammar)

/-! ## Parameters -/

/-- The receiver of a method. Its type can be given if it is not a reference. -/
def receiver (attrs : List Attribute) : Parser (Tree .param) := do
  let isReference ← op? "&"
  let reference : Option ReceiverReference ←
    if isReference then do pure (some ⟨← lifetime?⟩) else pure none
  let mutable ← keyword? "mut"
  keyword "self"
  let type ← if !isReference && (← op? ":") then some <$> g.type true else pure none
  return .receiver (.ofList attrs) reference mutable (.ofOption type)

/-- A parameter. One that begins as a receiver and is none is read as any other, and a type with
arguments may stand without a pattern. -/
def param : Parser (Tree .param) := do
  let attrs ← outerAttributes g
  if ← op? "..." then return .variadicParam (.ofList attrs) .absent
  let tokens ← ahead
  if atReceiver tokens then
    if let some (receiver, input) := ← attempt (receiver g attrs) then
      set input
      return receiver
  if atName tokens && atOp "<" (skip tokens) then
    write ([.word "_"] ++ Code.op ":")
    return .typedParam (.ofList attrs) .wildPat (← g.type true)
  let pat ← g.pat
  op ":"
  if ← op? "..." then return .variadicParam (.ofList attrs) (.present pat)
  return .typedParam (.ofList attrs) pat (← g.type true)

/-- The parameters after those `before`, at most `bound` of them. Only the first may be a receiver,
and one that stands for any others is the last. -/
def paramsUpTo : (bound : Nat) → (before : List (Tree .param)) → Parser (List (Tree .param))
  | 0, before => return before
  | bound + 1, before => do
    if ← atEnd then return before
    let param ← param g
    if param.isReceiver then
      if before.any Tree.isReceiver then broken "unexpected second method receiver"
      if !before.isEmpty then broken "unexpected method receiver"
    if !(← atEnd) then op ","
    let before := before ++ [param]
    if param.isVariadicParam then return before else paramsUpTo bound before

/-- The parameters between parentheses. -/
def params : Parser (List (Tree .param)) :=
  inside .parenthesis do
    paramsUpTo g ((← ahead).length + 1) []

/-! ## Signatures -/

/-- A function without its body, and whether it is said to be safe where `safe` allows that. -/
def signatureOrSafe (safe : Bool) : Parser (Tree .signature × Bool) := do
  let isConst ← keyword? "const"
  let isAsync ← keyword? "async"
  let isUnsafe ← keyword? "unsafe"
  let isSafe ← if safe && !isUnsafe then keyword? "safe" else pure false
  let abi ← abi?
  keyword "fn"
  let name ← name
  let generics ← genericParams g
  let params ← params g
  let output ← arrowType? g true
  let conditions ← conditions g
  let signature := Tree.signature isConst isAsync isUnsafe abi name
    (.generics (.ofList generics) (.ofList conditions)) (.ofList params) (.ofOption output)
  return (signature, isSafe)

/-- A function without its body. -/
def signature : Parser (Tree .signature) := do
  let (signature, _) ← signatureOrSafe g false
  return signature

end Grammar

end ForeignWrap.Syntax
