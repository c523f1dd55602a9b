import ForeignWrap.Directive.Error

/-!
# Tokens of a directive line

A directive line is cut into words, literals between quotes, and gaps of plain white space. A gap is
needed only between two words. Of all the white space there is, only five characters make gaps; a
line that holds any other outside its literals has no tokens, and neither has one with a quote that
is not closed.

## Main definitions

* `ForeignWrap.Directive.Token`: a token and its place in the line.
* `ForeignWrap.Directive.tokensFrom`, `ForeignWrap.Directive.tokenize`: the tokens of a line.
-/

namespace ForeignWrap.Directive

/-- What a token is for. -/
inductive TokenKind where
  /-- The word that begins a directive. -/
  | keyword
  /-- A colon on its own, which ends the host arguments. -/
  | separator
  /-- Code between quotes. -/
  | literal
  /-- Any other word. -/
  | word
deriving DecidableEq, Repr

/-- A token and the bytes of the line that it takes, from `start` up to `stop`. -/
structure Token where
  kind : TokenKind
  text : String
  start : Nat
  stop : Nat
deriving DecidableEq, Repr

/-- The kind of a word. -/
def wordKind (text : String) : TokenKind :=
  if text = directiveKeyword then .keyword else if text = ":" then .separator else .word

/-- Whether a token can be a name, perhaps with a type. The keyword can. -/
def TokenKind.isName : TokenKind → Bool
  | .word | .keyword => true
  | .separator | .literal => false

/-- The word for a kind. -/
def TokenKind.name : TokenKind → String
  | .keyword => "Keyword"
  | .separator => "Separator"
  | .literal => "Literal"
  | .word => "Word"

/-- The code of a literal, without its quotes. -/
def Token.code (token : Token) : String :=
  String.ofList (token.text.toList.drop 1).dropLast

/-- A token with its kind and place, in one line. -/
def Token.describe (token : Token) : String :=
  token.kind.name ++ "(" ++ Text.quote token.text ++ " @ " ++ toString token.start ++ ".." ++
    toString token.stop ++ ")"

/-! ## Cutting a line -/

/-- The white space that makes gaps. -/
def isGap (c : Char) : Bool :=
  c == ' ' || c == '\t' || c == '\r' || c == '\n' || c == '\x0c'

/-- The characters of a word: all but white space and quotes. -/
def isWordChar (c : Char) : Bool :=
  !Text.isBlank c && c != '"'

/-- How many bytes characters take. -/
def bytes (cs : List Char) : Nat :=
  cs.foldr (fun c count => c.utf8Size + count) 0

/-- The tokens of characters that begin at byte `start` of their line. -/
def tokensFrom (start : Nat) (cs : List Char) : Except Error (List Token) :=
  match cs with
  | [] => .ok []
  | c :: rest =>
    if isGap c then tokensFrom (start + c.utf8Size) rest
    else if c = '"' then
      let code := rest.takeWhile (· != '"')
      match _h : rest.dropWhile (· != '"') with
      | [] => .error (.unterminatedLiteral start)
      | _ :: after =>
        let stop := start + bytes code + 2
        (tokensFrom stop after).map
          (⟨.literal, String.ofList ('"' :: code ++ ['"']), start, stop⟩ :: ·)
    else if Text.isBlank c then .error (.unterminatedLiteral start)
    else
      let word := c :: rest.takeWhile isWordChar
      let text := String.ofList word
      let stop := start + bytes word
      (tokensFrom stop (rest.dropWhile isWordChar)).map (⟨wordKind text, text, start, stop⟩ :: ·)
termination_by cs.length
decreasing_by
  · simp
  · have h := (List.dropWhile_sublist (l := rest) (· != '"')).length_le
    rw [_h] at h
    simp only [List.length_cons] at h ⊢
    omega
  · have h := (List.dropWhile_sublist (l := rest) isWordChar).length_le
    simp only [List.length_cons]
    omega

/-- The tokens of a line. -/
def tokenize (line : String) : Except Error (List Token) :=
  tokensFrom 0 line.toList

end ForeignWrap.Directive
