import DocTemplate.Command
import DocTemplate.Text.Basic

/-!
# Arguments

A command line is a list of arguments. Options start with one dash and a letter, and several letters
may follow one dash, or with two dashes and a name. The value of an option stands behind it, perhaps
with an equals sign, or is the next argument, which must not look like an option. Behind two dashes
alone no argument is an option. A command line that does not make sense is refused as a whole.
-/

namespace DocTemplate

/-- The options. -/
inductive OptionName where
  /-- Says more about what is done. -/
  | verbose
  /-- Names the configuration file. -/
  | configFile
  /-- Names a variable file. -/
  | variableFile
  /-- Names the output directory. -/
  | output
  /-- Recognises tags in fenced code. -/
  | conditionsInCode
  /-- Describes the commands. -/
  | help
  /-- Tells the version. -/
  | version
  deriving DecidableEq, Repr

namespace OptionName

/-- The letter of an option. -/
def letter? : OptionName → Option Char
  | verbose => some 'v'
  | configFile => some 'c'
  | output => some 'o'
  | help => some 'h'
  | version => some 'V'
  | variableFile | conditionsInCode => none

/-- The long name of an option. -/
def longName : OptionName → Text
  | verbose => "verbose".toList
  | configFile => "config-file".toList
  | variableFile => "vars".toList
  | output => "output".toList
  | conditionsInCode => "conditions-in-code".toList
  | help => "help".toList
  | version => "version".toList

/-- Whether an option has a value. -/
def hasValue : OptionName → Bool
  | configFile | variableFile | output => true
  | verbose | conditionsInCode | help | version => false

/-- Whether an option may be given more than once. -/
def isRepeatable : OptionName → Bool
  | verbose | variableFile => true
  | configFile | output | conditionsInCode | help | version => false

/-- Whether an option ends the reading of the command line. -/
def isFinal : OptionName → Bool
  | help | version => true
  | _ => false

/-- The options in front of a command. -/
def general : List OptionName := [verbose, help, version]

/-- The options of rendering. -/
def forRender : List OptionName :=
  [verbose, configFile, variableFile, output, conditionsInCode, help]

/-- The options of checking. -/
def forCheck : List OptionName := [verbose, configFile, help]

end OptionName

/-- An option that is given, with its value if it has one, or an input. -/
inductive Argument where
  /-- An option. -/
  | option (name : OptionName) (value : Text)
  /-- An input. -/
  | input (t : Text)
  deriving DecidableEq, Repr

namespace Argument

/-- The options that letters behind one dash give; the last one may still wait for its value. -/
def ofLetters? (known : List OptionName) : Text → Option (List Argument × Option OptionName)
  | [] => some ([], none)
  | c :: rest =>
    match known.find? (·.letter? == some c) with
    | none => none
    | some name =>
      if name.hasValue then
        match rest with
        | [] => some ([], some name)
        | '=' :: value => some ([.option name value], none)
        | value => some ([.option name value], none)
      else if name.isFinal then some ([.option name []], none)
      else (ofLetters? known rest).map fun (others, waiting) => (.option name [] :: others, waiting)

/-- The option that a name behind two dashes gives, perhaps with a value behind an equals sign; it
may still wait for its value. -/
def ofLongName? (known : List OptionName) (t : Text) :
    Option (List Argument × Option OptionName) :=
  let value : Option Text := match t.dropWhile (· != '=') with
    | _ :: value => some value
    | [] => none
  match known.find? (·.longName == t.takeWhile (· != '=')) with
  | none => none
  | some name =>
    match name.hasValue, value with
    | true, some v => some ([.option name v], none)
    | true, none => some ([], some name)
    | false, none => some ([.option name []], none)
    | false, some _ => none

/-- The options that an argument gives, if it looks like an option and is not two dashes alone. -/
def ofOption? (known : List OptionName) : Text → Option (List Argument × Option OptionName)
  | '-' :: '-' :: name => ofLongName? known name
  | '-' :: letters => ofLetters? known letters
  | _ => none

/-- Whether an argument looks like an option. -/
def looksLikeOption : Text → Bool
  | '-' :: _ :: _ => true
  | _ => false

/-- Whether an argument ends the reading of the command line. -/
def isFinal : Argument → Bool
  | .option name _ => name.isFinal
  | .input _ => false

/-- Reads the arguments of a command up to one that ends the reading; an option may be waiting for
its value. -/
def readAll? (known : List OptionName) : Option OptionName → List Text → Option (List Argument)
  | none, [] => some []
  | some _, [] => none
  | some name, value :: rest =>
    if looksLikeOption value then none
    else (readAll? known none rest).map (.option name value :: ·)
  | none, arg :: rest =>
    if arg = ['-', '-'] then some (rest.map .input)
    else if looksLikeOption arg then
      match ofOption? known arg with
      | none => none
      | some (given, waiting) =>
        if given.any isFinal then some given
        else (readAll? known waiting rest).map (given ++ ·)
    else (readAll? known none rest).map (.input arg :: ·)

/-- The values that are given to an option. -/
def valuesOf (name : OptionName) (args : List Argument) : List Text :=
  args.filterMap fun
    | .option n value => if n = name then some value else none
    | .input _ => none

/-- The inputs. -/
def inputsOf (args : List Argument) : List Text :=
  args.filterMap fun
    | .input t => some t
    | .option _ _ => none

/-- Whether every path is one, and no option is given more often than it may be. -/
def areValid (known : List OptionName) (args : List Argument) : Bool :=
  (args.all fun
    | .option name value => !name.hasValue || value != []
    | .input t => t != []) &&
  known.all fun name => name.isRepeatable || (valuesOf name args).length ≤ 1

end Argument

namespace Command

/-- Reads the arguments behind the name of a command; `make` says what they ask for. -/
def ofArguments? (known : List OptionName) (make : List Argument → Command) (args : List Text) :
    Option Command :=
  match Argument.readAll? known none args with
  | none => none
  | some given =>
    if !Argument.areValid known given then none
    else if given.any Argument.isFinal then some .help
    else if Argument.inputsOf given = [] then none
    else some (make given)

/-- What the arguments of rendering ask for. -/
def renderOf (given : List Argument) : Command :=
  .render {
    inputs := Argument.inputsOf given
    configFile := (Argument.valuesOf .configFile given).head?
    variableFiles := Argument.valuesOf .variableFile given
    output := (Argument.valuesOf .output given).head?
    conditionsInCode := Argument.valuesOf .conditionsInCode given != [] }

/-- What the arguments of checking ask for. -/
def checkOf (given : List Argument) : Command :=
  .check {
    inputs := Argument.inputsOf given
    configFile := (Argument.valuesOf .configFile given).head? }

/-- The names of the commands. -/
def names : List Text := ["render".toList, "check".toList, "help".toList]

/-- Reads a command line. -/
def ofText? : List Text → Option Command
  | [] => none
  | arg :: rest =>
    if arg = "render".toList then ofArguments? OptionName.forRender renderOf rest
    else if arg = "check".toList then ofArguments? OptionName.forCheck checkOf rest
    else if arg = "help".toList then
      match rest with
      | [] => some .help
      | [name] => if names.contains name then some .help else none
      | _ => none
    else if arg = ['-', '-'] then none
    else match Argument.ofOption? OptionName.general arg with
      | some (given, none) =>
        if given.any (· == .option .version []) then some .version
        else if given.any Argument.isFinal then some .help
        else ofText? rest
      | _ => none

end Command

end DocTemplate
