import ForeignWrap.Method.Basic
import ForeignWrap.Text.Quoted

/-!
# Methods as code

The tokens of a method. Each stands in an `impl` of its own on its type.

## Main definitions

* `ForeignWrap.Method.Step.code`: a step of a method as statements.
* `ForeignWrap.Method.code`: a method as an item.
-/

namespace ForeignWrap

open Code (Token op word parens brackets braces separated)

/-- A path of names. -/
def pathCode (names : List String) : List Token :=
  separated (op "::") (names.map word)

/-- A path of names that begins at the root. -/
def rootPathCode (names : List String) : List Token :=
  op "::" ++ pathCode names

/-- A number that is written without its type. -/
def numberCode (n : Nat) : List Token :=
  [.literal (toString n)]

/-- A reference to what some code says. -/
def referenceCode (code : List Token) : List Token :=
  op "&" ++ code

/-- The call of a function. -/
def callCode (function : List Token) (args : List (List Token)) : List Token :=
  function ++ parens (separated (op ",") args)

/-- The call of a method. -/
def methodCode (receiver : List Token) (name : String) (args : List (List Token)) : List Token :=
  callCode (receiver ++ op "." ++ word name) args

/-- A statement that names a value. -/
def letCode (name : List Token) (value : List Token) : List Token :=
  word "let" ++ name ++ op "=" ++ value ++ op ";"

/-- The attribute that holds a line of documentation. -/
def Doc.code (doc : Doc) : List Token :=
  let literal :=
    match doc with
    | .escaped text => Text.stringLiteral text
    | .verbatim text => "r\"" ++ text ++ "\""
  op "#" ++ brackets (word "doc" ++ op "=" ++ [.literal literal])

namespace Method

/-- An argument as it is declared. -/
def Param.code (param : Param) : List Token :=
  let type :=
    match param.passing with
    | .byValue => param.type
    | .byReference => referenceCode param.type
    | .slice => referenceCode (brackets param.type)
  word param.name ++ op ":" ++ type

/-! ## Steps -/

/-- The arguments of the foreign function after the context. -/
def CallArgs.code : CallArgs → List Token
  | .each args => separated (op ",") (args.map (·.code))
  | .array =>
    separated (op ",") [
      methodCode (word "cargs") "len" [] ++ word "as" ++
        rootPathCode ["std", "os", "raw", "c_uint"],
      methodCode (word "cargs") "as_ptr" []]

/-- The arguments of the foreign function, the context first. -/
def CallArgs.codeWithContext (args : CallArgs) : List Token :=
  word "raw_ctx" ++
    match args.code with
    | [] => []
    | code => op "," ++ code

/-- A slot of the array that begins with the arguments of the call. -/
def slotCode (index : List Token) : List Token :=
  word "cargs" ++ brackets index

/-- The statement that assigns to a slot of the array. -/
def assignCode (index value : List Token) : List Token :=
  slotCode index ++ op "=" ++ value ++ op ";"

/-- The statement that keeps a value alive up to here. -/
def keepAliveCode (value : List Token) : List Token :=
  callCode (word "keep_alive") [value] ++ op ";"

/-- A step as statements. -/
def Step.code : Step → List Token
  | .nameReceiver name => letCode (word name) (word "self")
  | .askContext receiver => letCode (word "ctx") (methodCode (word receiver) "ctx" [])
  | .aliasContext receiver => letCode (word "ctx") (word receiver)
  | .makeArray handleType sequence fixed =>
    letCode (word "mut" ++ word "cargs" ++ op ":" ++ word "Vec" ++ op "<" ++ handleType ++ op ">")
      (word "vec" ++ op "!" ++
        brackets (callCode (rootPathCode ["std", "ptr", "null_mut"]) [] ++ op ";" ++
          methodCode (word sequence) "len" [] ++ op "+" ++ numberCode fixed))
  | .fillSlot slot value => assignCode (numberCode slot) value.code
  | .fillRest sequence fixed element =>
    word "for" ++ parens (word "i" ++ op "," ++ word "item") ++ word "in" ++
      methodCode (methodCode (word sequence) "iter" []) "enumerate" [] ++
      braces (assignCode (word "i" ++ op "+" ++ numberCode fixed) (element.codeOn "item"))
  | .call function args =>
    let result :=
      word "unsafe" ++ braces (word function ++ parens args.codeWithContext)
    let wrapped :=
      callCode (pathCode ["Ast", "wrap_locked"]) [word "ctx", word "raw_ctx", word "cexpr"]
    let locked :=
      op "|" ++ word "raw_ctx" ++ op "|" ++ braces (letCode (word "cexpr") result ++ wrapped)
    letCode (word "ast") (methodCode (word "ctx") "with_lock" [locked])
  | .keepAlive name => keepAliveCode (word name)
  | .keepArrayAlive => keepAliveCode (referenceCode (word "cargs"))

namespace Step

@[simp] theorem code_nameReceiver (name : String) :
    (nameReceiver name).code = letCode (word name) (word "self") :=
  rfl

@[simp] theorem code_askContext (receiver : String) :
    (askContext receiver).code = letCode (word "ctx") (methodCode (word receiver) "ctx" []) :=
  rfl

@[simp] theorem code_aliasContext (receiver : String) :
    (aliasContext receiver).code = letCode (word "ctx") (word receiver) :=
  rfl

@[simp] theorem code_makeArray (handleType : List Token) (sequence : String) (fixed : Nat) :
    (makeArray handleType sequence fixed).code =
      letCode
        (word "mut" ++ word "cargs" ++ op ":" ++ word "Vec" ++ op "<" ++ handleType ++ op ">")
        (word "vec" ++ op "!" ++
          brackets (callCode (rootPathCode ["std", "ptr", "null_mut"]) [] ++ op ";" ++
            methodCode (word sequence) "len" [] ++ op "+" ++ numberCode fixed)) :=
  rfl

@[simp] theorem code_fillSlot (slot : Nat) (value : Call.Arg) :
    (fillSlot slot value).code = assignCode (numberCode slot) value.code :=
  rfl

@[simp] theorem code_fillRest (sequence : String) (fixed : Nat) (element : Call.Arg) :
    (fillRest sequence fixed element).code =
      word "for" ++ parens (word "i" ++ op "," ++ word "item") ++ word "in" ++
        methodCode (methodCode (word sequence) "iter" []) "enumerate" [] ++
        braces (assignCode (word "i" ++ op "+" ++ numberCode fixed) (element.codeOn "item")) :=
  rfl

@[simp] theorem code_call (function : String) (args : CallArgs) :
    (call function args).code =
      letCode (word "ast") (methodCode (word "ctx") "with_lock"
        [op "|" ++ word "raw_ctx" ++ op "|" ++ braces
          (letCode (word "cexpr")
            (word "unsafe" ++ braces (word function ++ parens args.codeWithContext)) ++
            callCode (pathCode ["Ast", "wrap_locked"])
              [word "ctx", word "raw_ctx", word "cexpr"])]) :=
  rfl

@[simp] theorem code_keepAlive (name : String) :
    (keepAlive name).code = keepAliveCode (word name) :=
  rfl

@[simp] theorem code_keepArrayAlive :
    keepArrayAlive.code = keepAliveCode (referenceCode (word "cargs")) :=
  rfl

end Step

/-! ## Methods -/

/-- What a method answers with. -/
def Answer.code : Answer → List Token
  | .lift => methodCode (word "ast") "lift" [pathCode ["Kind", "Unknown"]]
  | .convert type => callCode (type ++ op "::" ++ word "from") [word "ast"]
  | .convertQualified type =>
    callCode (op "<" ++ type ++ op ">" ++ op "::" ++ word "from") [word "ast"]

namespace Answer

@[simp] theorem code_lift :
    lift.code = methodCode (word "ast") "lift" [pathCode ["Kind", "Unknown"]] :=
  rfl

@[simp] theorem code_convert (type : List Token) :
    (convert type).code = callCode (type ++ op "::" ++ word "from") [word "ast"] :=
  rfl

@[simp] theorem code_convertQualified (type : List Token) :
    (convertQualified type).code =
      callCode (op "<" ++ type ++ op ">" ++ op "::" ++ word "from") [word "ast"] :=
  rfl

end Answer

/-- What a method does. -/
def Body.code : Body → List Token
  | .wrap steps answer => steps.flatMap (·.code) ++ answer.code
  | .distinct exprType other =>
    let converted (name : String) : List Token :=
      callCode (exprType ++ op "::" ++ word "from") [methodCode (word name) "clone" []]
    methodCode (methodCode (word "self") "ctx" []) "distinct"
      [referenceCode (brackets (separated (op ",") [converted "self", converted other]))]

@[simp] theorem Body.code_wrap (steps : List Step) (answer : Answer) :
    (Body.wrap steps answer).code = steps.flatMap (·.code) ++ answer.code :=
  rfl

@[simp] theorem Body.code_distinct (exprType : List Token) (other : String) :
    (Body.distinct exprType other).code =
      methodCode (methodCode (word "self") "ctx" []) "distinct"
        [referenceCode (brackets (separated (op ",") (["self", other].map fun name =>
          callCode (exprType ++ op "::" ++ word "from") [methodCode (word name) "clone" []])))] :=
  rfl

/-- The head of a method: its name, its arguments and its result. -/
def signatureCode (m : Method) : List Token :=
  word "pub" ++ word "fn" ++
    callCode (word m.name) (referenceCode (word "self") :: m.params.map (·.code)) ++
    op "->" ++ m.result

/-- A method as an item. -/
def code (m : Method) : List Token :=
  word "impl" ++ m.selfType ++
    braces (m.docs.flatMap (·.code) ++ m.signatureCode ++ braces m.body.code)

end Method

end ForeignWrap
