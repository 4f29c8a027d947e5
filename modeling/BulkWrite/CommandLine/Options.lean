/-!
The options that a list of arguments gives. A value is attached to its option or is the next argument,
letters of flags may be run together, and the option that asks for the version ends the reading.
-/
namespace BulkWrite.CommandLine

inductive OptionName where
  | driver
  | database
  | verbose
  | table
  | rows
  | target
  | update
  | ignore
  | version
  deriving DecidableEq, Inhabited

namespace OptionName

def long : OptionName → String
  | driver => "driver"
  | database => "database"
  | verbose => "verbose"
  | table => "table"
  | rows => "rows"
  | target => "target"
  | update => "update"
  | ignore => "ignore"
  | version => "version"

def letter? : OptionName → Option Char
  | driver => some 'd'
  | verbose => some 'v'
  | table => some 't'
  | rows => some 'r'
  | update => some 'u'
  | version => some 'V'
  | database | target | ignore => none

def takesValue : OptionName → Bool
  | verbose | ignore | version => false
  | _ => true

def isRepeatable (o : OptionName) : Bool := o == target

/-- Nothing after such an option is read, and so no fault there is found. -/
def endsReading (o : OptionName) : Bool := o == version

end OptionName

/-- The options that were given, in order. A flag has an empty value. -/
abbrev Given := List (OptionName × String)

/-- The options that one argument gives. The value of the last one may still be missing. -/
structure Reading where
  given : Given
  pending : Option OptionName

def Reading.isLast (reading : Reading) : Bool := reading.given.any fun g => g.1.endsReading

/-- A single hyphen is a value, and everything else that begins with one is not. -/
def isHyphenated (arg : String) : Bool := arg.toList.head? == some '-' && arg != "-"

def attached : List Char → String
  | '=' :: cs => .ofList cs
  | cs => .ofList cs

def readLetters? (known : List OptionName) : List Char → Option Reading
  | [] => some ⟨[], none⟩
  | c :: cs => do
    let o ← known.find? fun o => o.letter? == some c
    if o.takesValue then
      return if cs.isEmpty then ⟨[], some o⟩ else ⟨[(o, attached cs)], none⟩
    else if o.endsReading then
      return ⟨[(o, "")], none⟩
    else
      let rest ← readLetters? known cs
      return ⟨(o, "") :: rest.given, rest.pending⟩

def readLong? (known : List OptionName) (cs : List Char) : Option Reading := do
  let name := String.ofList (cs.takeWhile (· != '='))
  let o ← known.find? fun o => o.long == name
  match o.takesValue, cs.dropWhile (· != '=') with
  | true, [] => return ⟨[], some o⟩
  | true, value => return ⟨[(o, attached value)], none⟩
  | false, [] => return ⟨[(o, "")], none⟩
  | false, _ => none

def readArgument? (known : List OptionName) (arg : String) : Option Reading :=
  match arg.toList with
  | '-' :: '-' :: cs => readLong? known cs
  | '-' :: cs => readLetters? known cs
  | _ => none

/-- Reads options up to the first argument that is none, or to one that ends the reading, and
returns the arguments that are left. -/
def readOptions? (known : List OptionName) : List String → Option (Given × List String)
  | [] => some ([], [])
  | arg :: args =>
    if isHyphenated arg && arg != "--" then do
      let reading ← readArgument? known arg
      match reading.pending, args with
      | none, args =>
        if reading.isLast then return (reading.given, args)
        else
          let (given, rest) ← readOptions? known args
          return (reading.given ++ given, rest)
      | some o, value :: args =>
        if isHyphenated value then none
        else
          let (given, rest) ← readOptions? known args
          return (reading.given ++ (o, value) :: given, rest)
      | some _, [] => none
    else some ([], arg :: args)

/-- No option is given again unless it may be. -/
def Given.isValid (given : Given) : Bool :=
  decide ((given.map Prod.fst).filter fun o => !o.isRepeatable).Nodup

def Given.value? (given : Given) (o : OptionName) : Option String := given.lookup o

def Given.has (given : Given) (o : OptionName) : Bool := (given.value? o).isSome

def Given.values (given : Given) (o : OptionName) : List String :=
  (given.filter fun g => g.1 == o).map Prod.snd

end BulkWrite.CommandLine
