/-!
# Options of a command

The options of a command stand in front of its first word. An option has a long name behind two
dashes and may have a letter behind one; several letters may share one dash. The value of an
option follows in the same argument, with or without an equals sign, or is the next argument, which
then must not begin with a dash, a lone dash excepted.

`readOptions` reads the options of a command; it does not know what they mean.
-/

namespace AdditiveSchema.CommandLine

/-- Why arguments are not understood. -/
inductive UsageError where
  | unknown (argument : String)
  | missingValue (option : String)
  | unexpectedValue (option : String)
  | invalidValue (option value : String)
  | repeated (option : String)
  | missingCommand
  deriving DecidableEq, Repr

/-- The wording of the error. -/
def UsageError.message : UsageError → String
  | .unknown argument => "error: unexpected argument '" ++ argument ++ "'"
  | .missingValue option => "error: a value is required for '--" ++ option ++ "'"
  | .unexpectedValue option => "error: no value is allowed for '--" ++ option ++ "'"
  | .invalidValue option value => "error: invalid value '" ++ value ++ "' for '--" ++ option ++ "'"
  | .repeated option => "error: '--" ++ option ++ "' is given more than once"
  | .missingCommand => "error: a command is required"

/-- An option of a command. -/
structure OptionSpec where
  /-- The long name. -/
  long : String
  /-- The letter. -/
  short : Option Char := none
  takesValue : Bool := false
  /-- Whatever stands behind the option is not read. -/
  isLast : Bool := false
  deriving DecidableEq, Repr

/-- An option that is given, with its value. A flag has an empty value. -/
structure GivenOption where
  long : String
  value : String := ""
  deriving DecidableEq, Repr

/-- What an argument is. -/
inductive ArgumentForm where
  /-- Two dashes: no option follows. -/
  | separator
  /-- An option by its name, with the value behind an equals sign. -/
  | long (name : String) (value : Option String)
  /-- Options by their letters. -/
  | short (letters : List Char)
  /-- Anything else. -/
  | word
  deriving DecidableEq, Repr

/-- The form of an argument. -/
def formOf (argument : String) : ArgumentForm :=
  match argument.toList with
  | '-' :: '-' :: [] => .separator
  | '-' :: '-' :: rest =>
    let (name, behind) := rest.span (· != '=')
    .long (String.ofList name) (behind.tail?.map String.ofList)
  | '-' :: letter :: letters => .short (letter :: letters)
  | _ => .word

/-- How reading goes on behind an argument. -/
inductive Continuation where
  | next
  /-- The next argument is the value of the option. -/
  | value (option : OptionSpec)
  | stop
  deriving DecidableEq, Repr

/-- The continuation behind a flag. -/
def OptionSpec.continuation (option : OptionSpec) : Continuation :=
  if option.isLast then .stop else .next

/-- Reads an option by its name. -/
def readLong (specs : List OptionSpec) (name : String) (value : Option String) :
    Except UsageError (List GivenOption × Continuation) :=
  match specs.find? (·.long == name) with
  | none => .error (.unknown ("--" ++ name))
  | some option =>
    match option.takesValue, value with
    | true, some value => .ok ([⟨option.long, value⟩], .next)
    | true, none => .ok ([], .value option)
    | false, some _ => .error (.unexpectedValue option.long)
    | false, none => .ok ([⟨option.long, ""⟩], option.continuation)

/-- The value that stands behind a letter in one argument, without an equals sign in front. -/
def attachedValue? : List Char → Option String
  | [] => none
  | '=' :: value => some (String.ofList value)
  | value => some (String.ofList value)

/-- Reads options by their letters. -/
def readShort (specs : List OptionSpec) :
    List Char → Except UsageError (List GivenOption × Continuation)
  | [] => .ok ([], .next)
  | letter :: letters =>
    match specs.find? (·.short == some letter) with
    | none => .error (.unknown (String.ofList ['-', letter]))
    | some option =>
      if option.takesValue then
        match attachedValue? letters with
        | some value => .ok ([⟨option.long, value⟩], .next)
        | none => .ok ([], .value option)
      else if option.isLast then .ok ([⟨option.long, ""⟩], .stop)
      else do
        let (given, continuation) ← readShort specs letters
        return (⟨option.long, ""⟩ :: given, continuation)

/-- Reads one argument that is no word. -/
def readForm (specs : List OptionSpec) :
    ArgumentForm → Except UsageError (List GivenOption × Continuation)
  | .long name value => readLong specs name value
  | .short letters => readShort specs letters
  | _ => .ok ([], .next)

/-- Reads the options up to the first word. `continuation` says how to take the next argument. The
answer is the options that are given and the arguments that are left. -/
def readOptionsFrom (specs : List OptionSpec) (continuation : Continuation) :
    List String → Except UsageError (List GivenOption × List String)
  | [] =>
    match continuation with
    | .value option => .error (.missingValue option.long)
    | _ => .ok ([], [])
  | argument :: arguments =>
    match continuation, formOf argument with
    | .stop, _ => .ok ([], [])
    | .value option, .word => do
      let (given, rest) ← readOptionsFrom specs .next arguments
      return (⟨option.long, argument⟩ :: given, rest)
    | .value option, _ => .error (.missingValue option.long)
    | .next, .word => .ok ([], argument :: arguments)
    | .next, .separator => .ok ([], argument :: arguments)
    | .next, form => do
      let (given, continuation) ← readForm specs form
      let (more, rest) ← readOptionsFrom specs continuation arguments
      return (given ++ more, rest)

/-- Reads the options of a command, none of which may be given twice, and leaves the arguments from
the first word on. -/
def readOptions (specs : List OptionSpec) (arguments : List String) :
    Except UsageError (List GivenOption × List String) := do
  let (given, rest) ← readOptionsFrom specs .next arguments
  match given.find? fun g => given.countP (·.long == g.long) > 1 with
  | some g => throw (.repeated g.long)
  | none => return (given, rest)

/-- The value of an option that is given. -/
def valueOf? (given : List GivenOption) (long : String) : Option String :=
  (given.find? (·.long == long)).map (·.value)

/-- The option is given. -/
def isGiven (given : List GivenOption) (long : String) : Bool :=
  given.any (·.long == long)

end AdditiveSchema.CommandLine
