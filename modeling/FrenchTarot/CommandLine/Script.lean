import FrenchTarot.CommandLine.Options
import FrenchTarot.CommandLine.Path
import FrenchTarot.CommandLine.Report

/-!
# What the program does

A script is what the program does to the outside, step by step: it prints, reads and writes files,
and ends.  `Script.ofArguments` is the script of a command line; what a file holds decides how a
script goes on.
-/

namespace FrenchTarot.CommandLine

inductive Script where
  /-- The program ends well. -/
  | done
  /-- The program ends with a code and a message for the error output. -/
  | fail (code : UInt8) (message : String)
  | print (text : String) (next : Unit → Script)
  /-- Goes on with the text of a file, if it can be read. -/
  | load (path : String) (next : Option String → Script)
  /-- Goes on with whether the file could be written. -/
  | save (path text : String) (next : Bool → Script)

namespace Script

/-- Prints texts in order, then goes on. -/
def printAll (texts : List String) (next : Unit → Script) : Script :=
  match texts with
  | [] => next ()
  | text :: texts => print text fun _ => printAll texts next

/-- Prints texts in order and ends. -/
def printLast (texts : List String) : Script := printAll texts fun _ => done

/-- Reads the file of the next deal, if there is one. -/
def withDealFile (s : Session) (next : Files → Script) : Script :=
  match s.dealFile? with
  | none => next fun _ => none
  | some path => load path fun text => next fun p => if p = path then text else none

/-- Writes the record of a deal, if that is asked for. -/
def saveRecord (output : Option String) (deals : Nat) (d : PlayedDeal) (next : Unit → Script) :
    Script :=
  match output with
  | none => next ()
  | some base =>
    save (recordPath base d.number deals) d.record.toText fun written =>
      if written then next () else fail 1 "the record cannot be written"

def acknowledged (s : Session) (next : Session → Script) : Script :=
  match s.acknowledge fun _ => none with
  | .error e => fail 1 e.message
  | .ok s => next s

/-- Plays until the score is full, in at most `limit` rounds. -/
def playRounds (output : Option String) : Nat → Session → Script
  | 0, s => if s.score.isFinished then printLast (finalLines s.score) else fail 1 "no end"
  | limit + 1, s =>
    if s.score.isFinished then printLast (finalLines s.score)
    else
      withDealFile s fun files =>
        match s.playRound files with
        | .refused e => fail 1 e.message
        | .unfinished => fail 1 "a deal does not end"
        | .gaveUp =>
          fail 1 ("every player passed " ++ toString mostPasses ++ " times in a row")
        | .passed s => print passedLine fun _ => acknowledged s (playRounds output limit)
        | .played s d =>
          printAll (dealLines s.score.deals s.players d) fun _ =>
            saveRecord output s.score.deals d fun _ => acknowledged s (playRounds output limit)

/-- Plays a game as configured. -/
def playGame (c : Config) (seed : UInt64) (output : Option String) : Script :=
  match Session.start c seed with
  | .error e => fail 1 e.message
  | .ok s => acknowledged s (playRounds output (mostPasses * c.mode.deals))

/-- The configuration that options give without a file. -/
def configOf (o : Options) (seed : UInt64) : Config :=
  { players := o.players
    distribution := .numbered seed
    mode := if o.deals = 1 then .quickDeal else .tournament o.deals }

def play (o : Options) (freshSeed : UInt64) : Script :=
  let seed := o.seed.getD freshSeed
  match o.config with
  | none => playGame (configOf o seed) seed o.output
  | some path =>
    load path fun text =>
      match text with
      | none => fail 1 "io error: the configuration cannot be read"
      | some text =>
        match Config.ofText text with
        | .error e => fail 1 e.message
        | .ok c => playGame c seed o.output

def versionLine : String := "tarot-rs 0.1.0"

def usage : String :=
  "French Tarot deals played by bots\n\nUsage: tarot-rs [OPTIONS]\n\nOptions:\n"
    ++ "  -p, --players <PLAYERS>  Number of players (3 to 5) [default: 4]\n"
    ++ "  -s, --seed <SEED>        Seed for the deals and the bots; random when omitted\n"
    ++ "  -d, --deals <DEALS>      Number of deals to play [default: 1]\n"
    ++ "      --config <CONFIG>    Table configuration (JSON); overrides --players and --deals\n"
    ++ "  -o, --output <OUTPUT>    Write the deal log here "
    ++ "(one file per deal when several are played)\n"
    ++ "  -v, --verbose            Enable debug logging\n"
    ++ "  -h, --help               Print help\n"
    ++ "  -V, --version            Print version"

/-- The script of a command line. -/
def ofArguments (args : List String) (freshSeed : UInt64) : Script :=
  match parse args with
  | .run options => play options freshSeed
  | .version => printLast [versionLine]
  | .help => printLast [usage]
  | .invalid => fail 2 "error: invalid arguments\n\nFor more information, try '--help'."

end Script

end FrenchTarot.CommandLine
