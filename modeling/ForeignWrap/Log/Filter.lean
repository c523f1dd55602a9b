import ForeignWrap.Log.Basic
import ForeignWrap.Log.Pattern
import ForeignWrap.Text.Blank
import ForeignWrap.Text.Cut

/-!
# Filters of events

A filter says which levels of events are told. It is a list of rules with commas between them, such
as `info`, `target=debug` or `target[span{field=value}]=trace`: a level for the targets that begin
with a text, in certain spans, with a certain field. The most specific rule for an event decides.
What is no rule is passed over, with a warning.

## Main definitions

* `ForeignWrap.Log.Rule`: a level for some events.
* `ForeignWrap.Log.Rule.ofText`: the rule that one part of a filter says.
* `ForeignWrap.Log.Filter`: what is told.
* `ForeignWrap.Log.Filter.lines`: the lines that are told of events.
-/

namespace ForeignWrap.Log

/-! ## Levels in filters -/

/-- A text with the capital letters of the alphabet in lower case. -/
def lowerCase (s : String) : String :=
  String.ofList (s.toList.map Char.toLower)

/-- The names of the ranks, from none to all. -/
def rankNames : List String :=
  ["off", "error", "warn", "info", "debug", "trace"]

/-- The number that a text says. A plus sign may stand before its digits. -/
def number? (s : String) : Option Nat :=
  let digits := (Text.dropStart? "+" s).getD s
  if digits ≠ "" && digits.toList.all Char.isDigit then digits.toNat? else none

/-- The rank that a text says, by name or by number. -/
def rankOf? (s : String) : Option Nat :=
  match number? s with
  | some rank => if rank < rankNames.length then some rank else none
  | none => rankNames.findIdx? (· == lowerCase s)

/-! ## Rules -/

/-- A level for some events. -/
structure Rule where
  /-- What the targets of the events begin with. -/
  start : String := ""
  /-- The span that the events are in. -/
  span : Option String := none
  /-- A field that the events have. -/
  field : Option String := none
  /-- What the value of the field is. -/
  value : Option String := none
  /-- The rank of the last level that is told; 0 if none is. -/
  most : Nat := Level.trace.rank
deriving DecidableEq, Repr

/-- Why a part of a filter is no rule. -/
inductive RuleError where
  | notRule
  | notLevel
  | notValue
deriving DecidableEq, Repr

/-- The wording of an error. -/
def RuleError.message : RuleError → String
  | .notRule => "invalid filter directive"
  | .notLevel =>
    "error parsing level filter: expected one of \"off\", \"error\", \"warn\", \"info\", " ++
      "\"debug\", \"trace\", or a number 0-5"
  | .notValue => "invalid field filter: error building NFA"

/-- Characters of a part of a filter. The first of each pair is looked at, the second is meant. -/
abbrev Scan := List (Char × Char)

namespace Scan

/-- What is meant. -/
def text (scan : Scan) : String :=
  String.ofList (scan.map (·.2))

/-- The characters before the first of these marks. -/
def before (marks : List Char) (scan : Scan) : Scan :=
  scan.takeWhile (·.1 ∉ marks)

/-- The characters from the first of these marks on. -/
def onFrom (marks : List Char) (scan : Scan) : Scan :=
  scan.dropWhile (·.1 ∉ marks)

end Scan

namespace Rule

/-- Whether the name of a target or a level may begin with this character. -/
def isStart (c : Char) : Bool :=
  c = '-' || c = ':' || c = '_' || Text.isAlphanumeric c

/-- The rule with the level after its equals sign. Without one, all levels are told. The text ends
with `tail`. -/
def withLevel (rule : Rule) (scan : Scan) (tail : String) : Except RuleError Rule :=
  let level := scan.text ++ tail
  if level = "" then .ok { rule with most := Level.trace.rank }
  else
    match rankOf? level with
    | some most => .ok { rule with most }
    | none => .error .notLevel

/-- The rule with what follows its bracket: nothing or a level. -/
def afterBracket (rule : Rule) (scan : Scan) (tail : String) : Except RuleError Rule :=
  match scan with
  | [] => .ok rule
  | ('=', _) :: level => rule.withLevel level tail
  | _ => .error .notRule

/-- The rule with a field, perhaps with a value after an equals sign. Another equals sign ends the
value. -/
def withField (rule : Rule) (field : String) : Except RuleError Rule :=
  match Text.cutAt? '=' field with
  | none => if field = "" then .error .notRule else .ok { rule with field := some field }
  | some (name, rest) =>
    let value := String.ofList (rest.toList.takeWhile (· ≠ '='))
    if isValue value then .ok { rule with field := some name, value := some value }
    else .error .notValue

/-- The rule with what stands after its open brace: a field and what follows its brace. -/
def withBrace (rule : Rule) (scan : Scan) (tail : String) : Except RuleError Rule :=
  match scan.onFrom ['\x7d'] with
  | [] => .error .notRule
  | _ :: rest => do
    let rule ← rule.withField (scan.before ['\x7d']).text
    match rest with
    | (']', _) :: rest => rule.afterBracket rest tail
    | _ => .error .notRule

/-- The rule with what stands after its open bracket: a span, a field, or both. -/
def withSpan (rule : Rule) (scan : Scan) (tail : String) : Except RuleError Rule :=
  let span := (scan.before [']', '\x7b']).text
  match scan.onFrom [']', '\x7b'] with
  | (']', _) :: rest => { rule with span := some span }.afterBracket rest tail
  | _ :: rest =>
    { rule with span := if span = "" then none else some span }.withBrace rest tail
  | [] => .error .notRule

/-- The rule that a text without marks says: a level, or a target all of which is told. -/
def ofName (name : String) : Rule :=
  match rankOf? name with
  | some most => { most }
  | none => { start := name }

/-- The rule that one part of a filter says. The white space around a part is not looked at, yet all
that is meant stands as many characters from the beginning of the part as it does without it. -/
def ofText (part : String) : Except RuleError Rule :=
  let looked := (Text.trimStart (Text.trimEnd part)).toList
  let scan : Scan := looked.zip part.toList
  let tail := String.ofList (part.toList.drop looked.length)
  let start := (scan.before ['=', '[']).text
  match looked, scan.onFrom ['=', '['] with
  | '[' :: _, _ => withSpan {} scan.tail tail
  | [], _ => .error .notRule
  | c :: _, rest =>
    if !isStart c then .error .notRule
    else
      match rest with
      | [] => .ok (ofName (start ++ tail))
      | ('=', _) :: level => withLevel { start } level tail
      | _ :: span => withSpan { start } span tail

/-- Whether a rule is about an event. Events are in no span, and a rule is chosen before the values
of their fields are known. -/
def isAbout (rule : Rule) (name : String) (event : Event) : Bool :=
  rule.span.isNone && rule.value.isNone && Text.beginsWith rule.start name &&
    rule.field.all event.hasField

/-- Whether a rule decides before another about the same event: it is for fewer targets, or for
fewer events of them. Between two fields the later one in the alphabet decides. -/
def decidesBefore (rule other : Rule) : Bool :=
  if rule.start = other.start then
    match rule.field, other.field with
    | some name, some otherName => otherName < name
    | some _, none => true
    | none, _ => false
  else other.start.utf8ByteSize < rule.start.utf8ByteSize

end Rule

/-! ## Filters -/

/-- What is told, and which parts of its text were no rules. -/
structure Filter where
  rules : List Rule
  ignored : List (String × RuleError)
deriving DecidableEq, Repr

namespace Filter

/-- The parts of a text between commas, but for the empty ones. -/
def parts (s : String) : List String :=
  ((s.toList.splitOn ',').map String.ofList).filter (· ≠ "")

/-- The filter that a text says. -/
def ofText (s : String) : Filter :=
  let read := (parts s).map fun part => (part, Rule.ofText part)
  { rules := read.filterMap fun (_, result) => result.toOption
    ignored := read.filterMap fun (part, result) =>
      match result with
      | .ok _ => none
      | .error e => some (part, e) }

/-- The lines that warn of what is no rule. -/
def warnings (filter : Filter) : List String :=
  filter.ignored.map fun (part, e) => "ignoring `" ++ part ++ "`: " ++ e.message

/-- The rule that decides between one chosen before and another about the same event. Of equal ones
the later decides. -/
def choose (chosen : Option Rule) (rule : Rule) : Option Rule :=
  if chosen.any (·.decidesBefore rule) then chosen else some rule

/-- Whether an event of a target is told. -/
def tells (filter : Filter) (name : String) (event : Event) : Bool :=
  ((filter.rules.filter (·.isAbout name event)).foldl choose none).any
    (event.level.rank ≤ ·.most)

/-- The lines that are told of events. -/
def lines (filter : Filter) (events : List Event) : List String :=
  (events.filter (filter.tells target)).map line

end Filter

end ForeignWrap.Log
