/-!
# Options of the command line

Arguments are taken one after the other.  An option stands by its long name, with its value after
`=` or in the next argument, or by a letter, with the value right after it, after `=` or in the next
argument; letters without a value may stand together.  The first argument that is not understood
ends the reading, and so does a request for the version or for help.
-/

namespace FrenchTarot.CommandLine

structure Options where
  players : UInt8 := 4
  /-- Seed of the deals and the bots; a fresh one without it. -/
  seed : Option UInt64 := none
  deals : UInt64 := 1
  /-- File of a configuration, which replaces the numbers of players and deals. -/
  config : Option String := none
  /-- File for the record of a deal. -/
  output : Option String := none
  verbose : Bool := false
  deriving DecidableEq, Repr

inductive Switch where
  | players
  | seed
  | deals
  | config
  | output
  | verbose
  | version
  | help
  deriving DecidableEq, Repr

/-- What the arguments ask for. -/
inductive Invocation where
  | run (options : Options)
  | version
  | help
  | invalid
  deriving DecidableEq, Repr

namespace Switch

/-- The option with this long name. -/
def ofName? : String → Option Switch
  | "players" => some players
  | "seed" => some seed
  | "deals" => some deals
  | "config" => some config
  | "output" => some output
  | "verbose" => some verbose
  | "version" => some version
  | "help" => some help
  | _ => none

/-- The option with this letter. -/
def ofLetter? : Char → Option Switch
  | 'p' => some players
  | 's' => some seed
  | 'd' => some deals
  | 'o' => some output
  | 'v' => some verbose
  | 'V' => some version
  | 'h' => some help
  | _ => none

def hasValue : Switch → Bool
  | players | seed | deals | config | output => true
  | verbose | version | help => false

end Switch

/-! ## Values -/

/-- The number of decimal digits, at least one. -/
def ofDigits? (cs : List Char) : Option Nat :=
  if cs ≠ [] ∧ cs.all Char.isDigit then
    some (cs.foldl (fun n c => 10 * n + (c.toNat - 48)) 0)
  else none

/-- A number below a bound, which may have a plus sign. -/
def numberBelow? (bound : Nat) (cs : List Char) : Option Nat :=
  let digits :=
    match cs with
    | '+' :: r => r
    | r => r
  (ofDigits? digits).filter (· < bound)

/-- A number below a bound, which may have a plus sign, or a minus sign if it is zero. -/
def signedNumberBelow? (bound : Nat) (cs : List Char) : Option Nat :=
  match cs with
  | '-' :: r => (ofDigits? r).filter (· = 0)
  | r => numberBelow? bound r

/-- A path is any text but the empty one. -/
def path? (cs : List Char) : Option String := if cs = [] then none else some (String.ofList cs)

/-- The options read so far, with the switches that have been used. -/
structure Progress where
  options : Options
  used : List Switch

/-- Sets an option that has a value, which may be given only once. -/
def Progress.give (p : Progress) (switch : Switch) (value : List Char) : Option Progress :=
  if switch ∈ p.used then none
  else
    let options :=
      match switch with
      | .players =>
        (signedNumberBelow? UInt8.size value).map fun n =>
          { p.options with players := UInt8.ofNat n }
      | .seed =>
        (numberBelow? UInt64.size value).map fun n =>
          { p.options with seed := some (UInt64.ofNat n) }
      | .deals =>
        (numberBelow? UInt64.size value).map fun n =>
          { p.options with deals := UInt64.ofNat n }
      | .config => (path? value).map fun path => { p.options with config := some path }
      | .output => (path? value).map fun path => { p.options with output := some path }
      | .verbose | .version | .help => none
    options.map fun options => ⟨options, switch :: p.used⟩

/-- Sets the option without a value, which may be given only once. -/
def Progress.beVerbose (p : Progress) : Option Progress :=
  if Switch.verbose ∈ p.used then none
  else some ⟨{ p.options with verbose := true }, .verbose :: p.used⟩

/-! ## Arguments -/

/-- What an argument leads to: more options, an option that takes the next argument as its value, or
the end of the reading. -/
inductive Step where
  | more (progress : Progress)
  | needsValue (progress : Progress) (switch : Switch)
  | stop (invocation : Invocation)

/-- Goes on with the options, if they could be read. -/
def Step.ofProgress? : Option Progress → Step
  | some p => .more p
  | none => .stop .invalid

/-- The step of an option without a value. -/
def plainSwitch (p : Progress) : Switch → Step
  | .verbose => .ofProgress? p.beVerbose
  | .version => .stop .version
  | .help => .stop .help
  | _ => .stop .invalid

/-- The name before `=` in an argument, and the value after it, if there is one. -/
def splitValue (cs : List Char) : List Char × Option (List Char) :=
  match cs.dropWhile (· ≠ '=') with
  | [] => (cs, none)
  | _ :: value => (cs.takeWhile (· ≠ '='), some value)

/-- Takes an argument after its two dashes. -/
def takeLong (p : Progress) (cs : List Char) : Step :=
  let (name, value) := splitValue cs
  match Switch.ofName? (String.ofList name), value with
  | none, _ => .stop .invalid
  | some switch, none => if switch.hasValue then .needsValue p switch else plainSwitch p switch
  | some switch, some value =>
    if switch.hasValue then .ofProgress? (p.give switch value) else .stop .invalid

/-- Takes an argument after its single dash. -/
def takeLetters (p : Progress) : List Char → Step
  | [] => .more p
  | c :: cs =>
    match Switch.ofLetter? c with
    | none => .stop .invalid
    | some switch =>
      if switch.hasValue then
        match cs with
        | [] => .needsValue p switch
        | '=' :: value => .ofProgress? (p.give switch value)
        | value => .ofProgress? (p.give switch value)
      else
        match plainSwitch p switch with
        | .more p => takeLetters p cs
        | step => step

/-- Takes one argument; one that is no option is not understood. -/
def takeArgument (p : Progress) (cs : List Char) : Step :=
  match cs with
  | '-' :: '-' :: name => takeLong p name
  | '-' :: c :: letters => takeLetters p (c :: letters)
  | _ => .stop .invalid

/-- Whether an argument can be the value of the option before it: it is no option itself. -/
def isValue : List Char → Bool
  | '-' :: _ :: _ => false
  | _ => true

def takeAll (p : Progress) : List String → Invocation
  | [] => .run p.options
  | ["--"] => .run p.options
  | arg :: args =>
    match takeArgument p arg.toList with
    | .stop invocation => invocation
    | .more p => takeAll p args
    | .needsValue p switch =>
      match args with
      | [] => .invalid
      | value :: args =>
        if isValue value.toList then
          match p.give switch value.toList with
          | some p => takeAll p args
          | none => .invalid
        else .invalid

/-- What the arguments ask for. -/
def parse (args : List String) : Invocation := takeAll ⟨{}, []⟩ args

end FrenchTarot.CommandLine
