/-!
The command line. One command, `legalize`, takes a profile, an input file and a switch for the
statistics; in front of any command the version can be asked for. Whatever else is given is a usage
error. Requests for help (`--help`, `-h`, `help`) are left out, since a library outside the program
answers them; here they end as usage errors too. A value may be attached to its setting or follow as
an argument of its own, which then must not look like another setting.
-/

set_option autoImplicit false

namespace ShaderLegalizer.CommandLine

inductive Setting where
  | profile
  | input
deriving DecidableEq, Repr

namespace Setting

def all : List Setting := [.profile, .input]

def long : Setting → String
  | .profile => "--profile"
  | .input => "--input"

def short : Setting → String
  | .profile => "-p"
  | .input => "-i"

end Setting

inductive Argument where
  | assign (setting : Setting) (value : String)
  | pending (setting : Setting)
  | statistics
deriving DecidableEq, Repr

/-- The rest of the text behind a word that it starts with. -/
def behind? (word text : String) : Option (List Char) :=
  if word.toList <+: text.toList then some (text.toList.drop word.length) else none

namespace Argument

def ofLong? (s : Setting) (text : String) : Option Argument :=
  match behind? s.long text with
  | some [] => some (.pending s)
  | some ('=' :: value) => some (.assign s (String.ofList value))
  | _ => none

/-- Behind a short name the value follows at once; one equals sign in between is passed over. -/
def ofShort? (s : Setting) (text : String) : Option Argument :=
  match behind? s.short text with
  | some [] => some (.pending s)
  | some ('=' :: value) => some (.assign s (String.ofList value))
  | some value => some (.assign s (String.ofList value))
  | none => none

def ofText? (text : String) : Option Argument :=
  if text = "--stats" then some .statistics
  else Setting.all.findSome? fun s => (ofLong? s text).or (ofShort? s text)

end Argument

structure Options where
  profile : Option String := none
  input : Option String := none
  statistics : Bool := false
deriving DecidableEq, Repr, Inhabited

namespace Options

/-- Sets a value. None may be set twice, and a file name may not be empty. -/
def assign? (o : Options) (value : String) : Setting → Option Options
  | .profile => if o.profile.isNone then some { o with profile := some value } else none
  | .input =>
    if o.input.isNone && !value.isEmpty then some { o with input := some value } else none

/-- Whether an argument may be the value of the setting before it: a dash alone, or anything that
does not start with one. -/
def isValue (text : String) : Bool :=
  text == "-" || text.toList.head? != some '-'

def read? (o : Options) : List String → Option Options
  | [] => some o
  | a :: rest =>
    if a = "--" then if rest.isEmpty then some o else none
    else match Argument.ofText? a with
      | none => none
      | some .statistics =>
        if o.statistics then none else read? { o with statistics := true } rest
      | some (.assign s value) => do
        let o ← o.assign? value s
        read? o rest
      | some (.pending s) =>
        match rest with
        | [] => none
        | value :: rest =>
          if isValue value then do
            let o ← o.assign? value s
            read? o rest
          else none

end Options

inductive Command where
  | version
  | legalize (o : Options)
deriving DecidableEq, Repr

def Command.ofArguments? : List String → Option Command
  | [] => none
  | a :: rest =>
    if a = "legalize" then (Options.read? {} rest).map .legalize
    else if a = "--version" || (behind? "-V" a).isSome then some .version
    else none

end ShaderLegalizer.CommandLine
