import ForeignWrap.CommandLine
import ForeignWrap.Proofs.Text.Cut

/-!
# The order of arguments

The arguments of the program are read as pieces: an option with its value, or an input. What they
ask for depends only on the inputs in their order, on the last type and on the last output. Nothing
that follows changes an answer that was given before all arguments were read.

## Main definitions

* `ForeignWrap.CommandLine.Piece`: a piece of the arguments.
* `ForeignWrap.CommandLine.typeOf?`, `ForeignWrap.CommandLine.outputOf?`,
  `ForeignWrap.CommandLine.inputsOf`: what pieces tell, wherever they stand.

## Main statements

* `ForeignWrap.CommandLine.parse_flatMap_words`: what pieces ask for.
* `ForeignWrap.CommandLine.parse_of_same_pieces`: their order does not matter.
-/

namespace ForeignWrap.CommandLine

/-! ## Pieces -/

/-- Whether an argument is an input: it does not begin with a dash, or is no more than one. No
option is an input. -/
def IsInput (arg : String) : Prop :=
  arg.toList.head? = some '-' → arg = "-"

/-- A piece of the arguments. The value of an option may be any text, even one that looks like an
option. -/
inductive Piece where
  | type (value : String)
  | output (value : String)
  | input (path : String) (isInput : IsInput path)

namespace Piece

/-- The arguments that a piece is made of. -/
def words : Piece → List String
  | type value => ["-t", value]
  | output value => ["-o", value]
  | input path _ => [path]

/-- The type that a piece tells. -/
def type? : Piece → Option String
  | type value => some value
  | _ => none

/-- The output that a piece tells. -/
def output? : Piece → Option String
  | output value => some value
  | _ => none

/-- The input that a piece is. -/
def input? : Piece → Option String
  | input path _ => some path
  | _ => none

end Piece

/-- The type that pieces tell: of several, the last one. -/
def typeOf? (pieces : List Piece) : Option String :=
  (pieces.filterMap Piece.type?).getLast?

/-- The output that pieces tell: of several, the last one. -/
def outputOf? (pieces : List Piece) : Option String :=
  (pieces.filterMap Piece.output?).getLast?

/-- The inputs among pieces, in their order. -/
def inputsOf (pieces : List Piece) : List String :=
  pieces.filterMap Piece.input?

/-! ## Reading pieces -/

/-- What has been read after one more piece. -/
def Seen.add (seen : Seen) (piece : Piece) : Seen where
  defaultType := piece.type?.or seen.defaultType
  output := piece.output?.or seen.output
  inputs := seen.inputs ++ piece.input?.toList

theorem isFlag_iff {arg : String} : isFlag arg = true ↔ ¬ IsInput arg := by
  rw [isFlag, Bool.and_eq_true, Text.beginsWith_iff, IsInput, Classical.not_imp]
  refine and_congr ?_ (by simp)
  constructor
  · rintro ⟨rest, rfl⟩
    simp
  · intro h
    obtain ⟨rest, hrest⟩ := List.head?_eq_some_iff.1 h
    exact ⟨String.ofList rest, by rw [← String.toList_inj, hrest]; simp⟩

/-- The words that are options. -/
def options : List String :=
  ["-h", "--help", "-t", "-o"]

/-- A step of the reading over a word that is no option. -/
theorem parseFrom_of_notMem_options {arg : String} (h : arg ∉ options) (seen : Seen)
    (rest : List String) : parseFrom seen (arg :: rest) =
      if isFlag arg then .error (.unknownFlag arg)
      else parseFrom { seen with inputs := seen.inputs ++ [arg] } rest := by
  simp only [options, List.mem_cons, List.not_mem_nil, or_false, not_or] at h
  obtain ⟨hhelp, hhelp', htype, houtput⟩ := h
  rw [parseFrom]
  all_goals simp_all

theorem notMem_options_of_isInput {arg : String} (h : IsInput arg) : arg ∉ options := by
  have hflags : options.all isFlag = true := by decide +kernel
  exact fun hmem => isFlag_iff.1 (List.all_eq_true.1 hflags arg hmem) h

/-- A step of the reading over an input. -/
theorem parseFrom_input {arg : String} (h : IsInput arg) (seen : Seen) (rest : List String) :
    parseFrom seen (arg :: rest) =
      parseFrom { seen with inputs := seen.inputs ++ [arg] } rest := by
  rw [parseFrom_of_notMem_options (notMem_options_of_isInput h), if_neg]
  exact fun hflag => isFlag_iff.1 hflag h

/-- A step of the reading over a piece. -/
theorem parseFrom_words_append (seen : Seen) (piece : Piece) (rest : List String) :
    parseFrom seen (piece.words ++ rest) = parseFrom (seen.add piece) rest := by
  cases piece with
  | type value => simp [Piece.words, parseFrom, Seen.add, Piece.type?, Piece.output?, Piece.input?]
  | output value =>
    simp [Piece.words, parseFrom, Seen.add, Piece.type?, Piece.output?, Piece.input?]
  | input path h =>
    rw [Piece.words, List.singleton_append, parseFrom_input h]
    simp [Seen.add, Piece.type?, Piece.output?, Piece.input?]

theorem parseFrom_flatMap_words (seen : Seen) (pieces : List Piece) :
    parseFrom seen (pieces.flatMap Piece.words) = (pieces.foldl Seen.add seen).finish := by
  induction pieces generalizing seen with
  | nil => rfl
  | cons piece pieces ih => rw [List.flatMap_cons, parseFrom_words_append, ih, List.foldl_cons]

/-! ## What pieces tell -/

/-- Of values that may be told one after the other, the last one counts, and if there is none, what
was there before them. -/
theorem getLast?_filterMap_cons_or {α β : Type} (tell : α → Option β) (a : α) (as : List α)
    (before : Option β) : ((a :: as).filterMap tell).getLast?.or before =
      (as.filterMap tell).getLast?.or ((tell a).or before) := by
  cases h : tell a with
  | none => simp [h]
  | some b =>
    rw [List.filterMap_cons_some h, List.getLast?_cons]
    cases (as.filterMap tell).getLast? <;> simp

theorem foldl_add (seen : Seen) (pieces : List Piece) :
    pieces.foldl Seen.add seen =
      ⟨(typeOf? pieces).or seen.defaultType, (outputOf? pieces).or seen.output,
        seen.inputs ++ inputsOf pieces⟩ := by
  induction pieces generalizing seen with
  | nil => simp [typeOf?, outputOf?, inputsOf]
  | cons piece pieces ih =>
    rw [List.foldl_cons, ih]
    simp only [typeOf?, outputOf?, inputsOf, getLast?_filterMap_cons_or, Seen.add]
    cases h : piece.input? <;> simp [h]

/-- What pieces ask for. -/
theorem parse_flatMap_words (pieces : List Piece) :
    parse (pieces.flatMap Piece.words) =
      Seen.finish ⟨typeOf? pieces, outputOf? pieces, inputsOf pieces⟩ := by
  rw [parse, parseFrom_flatMap_words, foldl_add]
  simp

theorem exists_finish_eq_error_iff {seen : Seen} :
    (∃ e, seen.finish = .error e) ↔ seen.defaultType = none ∨ seen.inputs = [] := by
  obtain ⟨type, output, inputs⟩ := seen
  cases type with
  | none => simp [Seen.finish]
  | some type => by_cases h : inputs = [] <;> simp [Seen.finish, h]

/-! ## Early answers -/

/-- An answer that does not wait for the arguments to end: a wish for help, or an unknown flag. -/
inductive IsEarly : Except Error Command → Prop where
  | help : IsEarly (.ok .help)
  | unknownFlag (flag : String) : IsEarly (.error (.unknownFlag flag))

theorem not_isEarly_finish (seen : Seen) : ¬ IsEarly seen.finish := by
  unfold Seen.finish
  split
  · rintro ⟨⟩
  · split <;> rintro ⟨⟩

/-- An early answer is given whatever arguments follow. -/
theorem parseFrom_append_of_isEarly {seen : Seen} {args : List String} (more : List String)
    (h : IsEarly (parseFrom seen args)) :
    parseFrom seen (args ++ more) = parseFrom seen args := by
  fun_induction parseFrom seen args with
  | case1 seen => exact absurd h (not_isEarly_finish seen)
  | case2 => simp [parseFrom]
  | case3 => simp [parseFrom]
  | case4 => cases h
  | case5 => cases h
  | case6 seen type rest ih => simpa [parseFrom] using ih h
  | case7 seen path rest ih => simpa [parseFrom] using ih h
  | case8 seen arg rest =>
    have hoption : arg ∉ options := by cases rest <;> simp_all [options]
    rw [List.cons_append, parseFrom_of_notMem_options hoption, if_pos ‹_›]
  | case9 seen arg rest =>
    rename_i hflag ih
    have hoption : arg ∉ options := by cases rest <;> simp_all [options]
    rw [List.cons_append, parseFrom_of_notMem_options hoption, if_neg hflag]
    exact ih h

/-- **Arguments may be given in any order.** Pieces with the same inputs in the same order, the same
last type and the same last output ask for the same: for generation with exactly these, if there is
a type and some input, and else they are wrong. Arguments that ask for help or hold an unknown flag
do so whatever arguments are put after them. -/
theorem parse_of_same_pieces :
    (∀ pieces pieces' : List Piece, inputsOf pieces = inputsOf pieces' →
      typeOf? pieces = typeOf? pieces' → outputOf? pieces = outputOf? pieces' →
      parse (pieces.flatMap Piece.words) = parse (pieces'.flatMap Piece.words)) ∧
    (∀ pieces : List Piece, ∀ type, typeOf? pieces = some type → inputsOf pieces ≠ [] →
      parse (pieces.flatMap Piece.words) =
        .ok (.generate ⟨type, outputOf? pieces, inputsOf pieces⟩)) ∧
    (∀ pieces : List Piece, typeOf? pieces = none ∨ inputsOf pieces = [] →
      ∃ e, parse (pieces.flatMap Piece.words) = .error e) ∧
    ∀ args more : List String, IsEarly (parse args) → parse (args ++ more) = parse args := by
  refine ⟨fun pieces pieces' hinputs htype houtput => ?_, fun pieces type htype hinputs => ?_,
    fun pieces hmissing => ?_, fun args more h => parseFrom_append_of_isEarly more h⟩
  · rw [parse_flatMap_words, parse_flatMap_words, hinputs, htype, houtput]
  · rw [parse_flatMap_words, htype]
    simp [Seen.finish, hinputs]
  · rw [parse_flatMap_words]
    exact exists_finish_eq_error_iff.2 hmissing

/-- Options before, between and after the inputs, one of them given twice and once with a value that
looks like an option. -/
theorem parse_of_repeated_option :
    parse ["a.rs", "-t", "-o", "-o", "b.rs", "-t", "Int", "-"] =
        parse ["-o", "b.rs", "-t", "Int", "a.rs", "-"] ∧
      parse ["a.rs", "-t", "-o", "-o", "b.rs", "-t", "Int", "-"] =
        .ok (.generate ⟨"Int", some "b.rs", ["a.rs", "-"]⟩) ∧
      (∃ e, parse ["-t", "Int"] = .error e) ∧
      parse (["-t", "Int", "-x"] ++ ["-t"]) = parse ["-t", "Int", "-x"] := by
  obtain ⟨hsame, hgenerate, hmissing, hearly⟩ := parse_of_same_pieces
  have hinput : IsInput "a.rs" := by simp [IsInput]
  have hdash : IsInput "-" := fun _ => rfl
  have hpieces := hsame
    [.input "a.rs" hinput, .type "-o", .output "b.rs", .type "Int", .input "-" hdash]
    [.output "b.rs", .type "Int", .input "a.rs" hinput, .input "-" hdash] rfl rfl rfl
  refine ⟨hpieces, ?_, hmissing [.type "Int"] (.inr rfl), hearly _ _ ?_⟩
  · exact hgenerate
      [.input "a.rs" hinput, .type "-o", .output "b.rs", .type "Int", .input "-" hdash] "Int" rfl
      (by simp [inputsOf, Piece.input?])
  · have hflag : parse ["-t", "Int", "-x"] = .error (.unknownFlag "-x") := rfl
    rw [hflag]
    exact .unknownFlag "-x"

end ForeignWrap.CommandLine
