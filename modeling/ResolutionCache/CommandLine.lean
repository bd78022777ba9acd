import ResolutionCache.LoadTest.Run

/-!
# The command line

The sizes of a load test are given as options, each with a number behind it, either as the next
argument or behind an equals sign. Two switches ask for more output and for help. Options that are
not given keep their defaults.
-/

namespace ResolutionCache.CommandLine

/-- What the command line asks for. -/
inductive Request where
  /-- Run a load test, showing also what is only of interest in detail if `verbose`. -/
  | run (options : LoadTestOptions) (verbose : Bool)
  /-- Show how to use the program. -/
  | help

/-- Why a command line cannot be understood. -/
inductive UsageError where
  | unknown (argument : String)
  | missingValue (option : String)
  | badValue (option value : String)

/-- The wording of an error. -/
def UsageError.message : UsageError → String
  | unknown argument => "error: unexpected argument '" ++ argument ++ "' found"
  | missingValue option => "error: a value is required for '" ++ option ++ "' but none was supplied"
  | badValue option value => "error: invalid value '" ++ value ++ "' for '" ++ option ++ "'"

/-- How to use the program. -/
def usage : String :=
  "\n".intercalate
    [ "Stress the dex cache under concurrent resolution and moving collections",
      "",
      "Options:",
      "      --threads <THREADS>                      Mutator threads per round [default: 4]",
      "      --iterations <ITERATIONS>                Lookups per thread and round [default: 20000]",
      "      --rounds <ROUNDS>                        Rounds, each followed by a collection [default: 3]",
      "      --ids <IDS>                              String, type and field ids [default: 4096]",
      "      --call-sites <CALL_SITES>                Call site ids in the dex file [default: 256]",
      "      --string-cache-size <STRING_CACHE_SIZE>  String cache capacity (power of two)",
      "      --type-cache-size <TYPE_CACHE_SIZE>      Type cache capacity (power of two)",
      "      --field-cache-size <FIELD_CACHE_SIZE>    Field cache capacity (power of two)",
      "  -v, --verbose                                Log at debug level",
      "  -h, --help                                   Print help" ]

/-- Whether an event is shown: without `verbose`, only what is of general interest; single moves and
visits never. -/
def isShown (verbose : Bool) (e : Event) : Bool :=
  match e.level with
  | .info => true
  | .debug => verbose
  | .trace => false

/-- The number written by decimal digits, if there is one and it is below the limit. -/
def number? (limit : Nat) (digits : List Char) : Option Nat :=
  if digits.isEmpty || !digits.all Char.isDigit then none
  else
    let n := digits.foldl (fun n c => 10 * n + (c.toNat - '0'.toNat)) 0
    if n < limit then some n else none

/-- What the options with a number do; `none` if the number is too large for the option. -/
def assign (o : LoadTestOptions) (name : String) :
    Option (List Char → Option LoadTestOptions) :=
  let word (digits : List Char) : Option Nat := number? UInt64.size digits
  let short (digits : List Char) : Option UInt32 := (number? UInt32.size digits).map Nat.toUInt32
  let size (digits : List Char) : Option UInt64 := (word digits).map Nat.toUInt64
  match name with
  | "--threads" => some fun v => (word v).map fun n => { o with threads := n }
  | "--iterations" => some fun v => (word v).map fun n => { o with iterations := n }
  | "--rounds" => some fun v => (word v).map fun n => { o with rounds := n }
  | "--ids" => some fun v => (short v).map fun n => { o with ids := n }
  | "--call-sites" => some fun v => (short v).map fun n => { o with callSites := n }
  | "--string-cache-size" => some fun v =>
    (size v).map fun n => { o with capacities := { o.capacities with string := some n } }
  | "--type-cache-size" => some fun v =>
    (size v).map fun n => { o with capacities := { o.capacities with type := some n } }
  | "--field-cache-size" => some fun v =>
    (size v).map fun n => { o with capacities := { o.capacities with field := some n } }
  | _ => none

/-- Reads arguments on top of what was asked for so far. -/
def parseFrom (o : LoadTestOptions) (verbose : Bool) : List String → Except UsageError Request
  | [] => .ok (.run o verbose)
  | argument :: rest =>
    if argument = "-h" || argument = "--help" then .ok .help
    else if argument = "-v" || argument = "--verbose" then parseFrom o true rest
    else
      let chars := argument.toList
      let name := String.ofList (chars.takeWhile (· ≠ '='))
      match assign o name, chars.dropWhile (· ≠ '=') with
      | none, _ => .error (.unknown argument)
      | some set, _ :: value =>
        match set value with
        | some o => parseFrom o verbose rest
        | none => .error (.badValue name (String.ofList value))
      | some set, [] =>
        match rest with
        | [] => .error (.missingValue name)
        | value :: rest =>
          match set value.toList with
          | some o => parseFrom o verbose rest
          | none => .error (.badValue name value)

/-- Reads the arguments of the command line. -/
def parse (arguments : List String) : Except UsageError Request :=
  parseFrom {} false arguments

end ResolutionCache.CommandLine
