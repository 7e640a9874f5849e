import Calculator.Session.Variables

/-!
# Command-line options

What a list of arguments asks for. Options may stand anywhere among the words of
the expression, up to an argument `--`, after which every argument is a word.
-/

namespace Calculator

inductive UsageError where
  | notAnAssignment (text : String)
  | badName (name : String)
  | badValue (name value : String)
  | missingAssignment
  | unknownOption (text : String)
deriving DecidableEq, Repr

def UsageError.message : UsageError → String
  | notAnAssignment text => "Expected NAME=VALUE, got '" ++ text ++ "'"
  | badName name => "Variable names are lowercase letters only, got '" ++ name ++ "'"
  | badValue name value => "Value for '" ++ name ++ "' is not a number: '" ++ value ++ "'"
  | missingAssignment => "--var needs NAME=VALUE"
  | unknownOption text => "Unknown option '" ++ text ++ "'"

/-- A name and a value on the two sides of the first equality sign. -/
def parseAssignment (text : String) : Except UsageError (String × Float) :=
  let name := String.ofList (text.toList.takeWhile (· != '='))
  match text.toList.dropWhile (· != '=') with
  | [] => .error (.notAnAssignment text)
  | _ :: rest =>
    let value := String.ofList rest
    if name == "" || !name.toList.all Char.isLower then .error (.badName name)
    else match answerValue? value with
      | some x => .ok (name, x)
      | none => .error (.badValue name value)

structure Options where
  strict : Bool := false
  showTree : Bool := false
  bindings : Bindings := ∅
  /-- The words of the expression. -/
  words : List String := []

inductive Request where
  | help
  | calculate (options : Options)

namespace Options

/-- The words with a space between each two, if there are any. -/
def expression? (o : Options) : Option String :=
  if o.words.isEmpty then none else some (" ".intercalate o.words)

def addWords (words : List String) (o : Options) : Options :=
  { o with words := o.words ++ words }

/-- Whether an argument that is not a known option may be a word. -/
def isWord (arg : String) : Bool :=
  !(['-', '-'].isPrefixOf arg.toList)

/-- Takes the arguments in turn; the first mistake or call for help decides. -/
def read (o : Options) : List String → Except UsageError Request
  | [] => .ok (.calculate o)
  | arg :: args =>
    if arg = "-h" ∨ arg = "--help" then .ok .help
    else if arg = "--strict" then read { o with strict := true } args
    else if arg = "--ast" then read { o with showTree := true } args
    else if arg = "--var" then
      match args with
      | [] => .error .missingAssignment
      | text :: args =>
        match parseAssignment text with
        | .ok (name, value) => read { o with bindings := o.bindings.insert name value } args
        | .error e => .error e
    else if arg = "--" then .ok (.calculate (o.addWords args))
    else if isWord arg then read (o.addWords [arg]) args
    else .error (.unknownOption arg)

end Options

def Request.ofArguments (args : List String) : Except UsageError Request :=
  Options.read {} args

end Calculator
