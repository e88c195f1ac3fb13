import BankTrace.CommandLine.Given
import BankTrace.CommandLine.Value
import BankTrace.Trace.Settings

/-!
# Command line options

A command line is a list of words. A word that starts with a dash is a switch, unless it is a lone
dash, a negative number that is no switch, or holds a blank; every word behind `--` is an argument.
Switches of one letter can share a dash, and a letter that wants a value takes the rest of the word;
an `=` behind the first letter of a word does not count. A long switch may be cut short as long as
one switch only starts like that, and takes its value after `=` or from the next word. A value `--`
leaves the switch blank. The first argument that no switch takes is the manifest.

All words are sorted into switches and arguments first, so a switch that is cut too short is
reported before anything else; then the switches act from left to right.
-/

namespace BankTrace.CommandLine

/-- What the command line asks for. -/
structure Options where
  /-- The path of the manifest. -/
  manifest : String := "disnes.toml"
  /-- The banks to analyse, in this order. -/
  banks : Option (List (Given String)) := none
  /-- The order of the traversal. -/
  order : Given Order := .value .fifo
  /-- The number of workers. -/
  workers : Given Int := .value 1
  /-- The most steps of one traversal. -/
  maxSteps : Option (Given Int) := none
  /-- Further addresses to start from. -/
  entries : List (Given Int) := []
  /-- Mark data references, whatever the manifest says. -/
  dataRefs : Option Bool := none
  /-- Leave the log files alone. -/
  dryRun : Bool := false
  /-- The directory of the summary. -/
  outputDir : Option (Given String) := none
  /-- How much is printed. -/
  verbosity : Nat := 0
  deriving DecidableEq

/-- A switch. -/
inductive Switch where
  | help | bank | order | workers | maxSteps | entry | dataRefs | dryRun | output | verbose
  deriving DecidableEq

namespace Switch

/-- The names of a switch, the short one first. -/
def names : Switch → List String
  | help => ["-h", "--help"]
  | bank => ["-b", "--bank"]
  | order => ["--order"]
  | workers => ["-j", "--workers"]
  | maxSteps => ["--max-steps"]
  | entry => ["-e", "--entry"]
  | dataRefs => ["--data-refs"]
  | dryRun => ["-n", "--dry-run"]
  | output => ["-o", "--output"]
  | verbose => ["-v", "--verbose"]

/-- All switches in the order of their listing. -/
def all : List Switch :=
  [help, bank, order, workers, maxSteps, entry, dataRefs, dryRun, output, verbose]

/-- The switch wants a value. -/
def wantsValue : Switch → Bool
  | help | dataRefs | dryRun | verbose => false
  | _ => true

/-- Every name with its switch. -/
def named : List (List Char × Switch) :=
  all.flatMap fun switch => switch.names.map fun name => (name.toList, switch)

/-- The switch of that name. -/
def ofName? (name : List Char) : Option Switch := named.lookup name

/-- The names of a switch in a message. -/
def label (switch : Switch) : String := "/".intercalate switch.names

end Switch

/-- Why a command line cannot be followed. -/
inductive UsageError where
  /-- A switch lacks its value. -/
  | noValue (switch : Switch)
  /-- A switch that takes no value has one. -/
  | extraValue (switch : Switch) (value : String)
  /-- A value is not one of those allowed. -/
  | choice (switch : Switch) (value : String) (allowed : List String)
  /-- A value cannot be read. -/
  | value (switch : Switch) (error : ValueError)
  /-- More than one switch starts like the word. -/
  | ambiguous (word : String) (names : List String)
  /-- Words that nothing takes. -/
  | unrecognized (words : List String)
  deriving DecidableEq

/-- The wording of a refused command line. -/
def UsageError.message : UsageError → String
  | noValue switch => about switch ++ "expected one argument"
  | extraValue switch text =>
    about switch ++ "ignored explicit argument " ++ Quoted.render text
  | choice switch text allowed =>
    about switch ++ "invalid choice: " ++ Quoted.render text ++ " (choose from " ++
      ", ".intercalate (allowed.map Quoted.render) ++ ")"
  | .value switch error => about switch ++ error.message
  | ambiguous word names =>
    "ambiguous option: " ++ word ++ " could match " ++ ", ".intercalate names
  | unrecognized words => "unrecognized arguments: " ++ " ".intercalate words
where
  /-- The switch that a message is about. -/
  about (switch : Switch) : String := "argument " ++ switch.label ++ ": "

/-- Why reading a command line stops. -/
inductive Stop where
  /-- The user asks for help. -/
  | help
  /-- The command line cannot be followed. -/
  | usage (error : UsageError)
  deriving DecidableEq

/-- What a word is. -/
inductive Word where
  /-- An argument. -/
  | argument
  /-- The word `--`. -/
  | separator
  /-- A switch with the text that is attached to it; `short` says that one letter names it. -/
  | switch (found : Switch) (short : Bool) (attached : Option (List Char))
  /-- A switch that there is not. -/
  | unknown
  deriving DecidableEq

/-- The parts of a text before and behind its first `=`. -/
def cutAtEquals (s : List Char) : List Char × Option (List Char) :=
  match s.dropWhile (· ≠ '=') with
  | [] => (s, none)
  | _ :: value => (s.takeWhile (· ≠ '='), some value)

/-- One digit at least and nothing but digits. -/
def areDigits (s : List Char) : Bool := !s.isEmpty && s.all Digit.isDecimal

/-- A minus sign, digits and perhaps a point with digits behind it; a line feed may end the
word. -/
def isNegativeNumber (s : List Char) : Bool :=
  match s with
  | '-' :: rest =>
    let body := if rest.getLast? = some '\n' then rest.dropLast else rest
    areDigits body ||
      (match body.dropWhile Digit.isDecimal with
        | '.' :: places => areDigits places
        | _ => false)
  | _ => false

/-- A name is short when one letter follows its dash. -/
def isShort (name : List Char) : Bool := name.length = 2

/-- What a word that does not follow `--` is. -/
def Word.classify (word : String) : Except UsageError Word :=
  let s := word.toList
  match s with
  | '-' :: second :: rest =>
    match Switch.ofName? s, cutAtEquals s with
    | some found, _ => .ok (.switch found (isShort s) none)
    | none, (name, attached) =>
      match attached, Switch.ofName? name with
      | some value, some found => .ok (.switch found (isShort name) (some value))
      | _, _ =>
        let found :=
          if second = '-' then
            Switch.named.filterMap fun (long, target) =>
              if name.isPrefixOf long then
                some (long, Word.switch target (isShort long) attached)
              else none
          else
            Switch.named.filterMap fun (short, target) =>
              if short = ['-', second] then
                some (short, Word.switch target true (some rest))
              else none
        match found with
        | [(_, word)] => .ok word
        | [] => .ok (if isNegativeNumber s || s.contains ' ' then .argument else .unknown)
        | several => .error (.ambiguous word (several.map fun (name, _) => String.ofList name))
  | _ => .ok .argument

/-- Tell switches from arguments. -/
def Word.classifyAll : List String → Except UsageError (List (String × Word))
  | [] => .ok []
  | "--" :: rest => .ok (("--", .separator) :: rest.map fun word => (word, .argument))
  | word :: rest => do
    let kind ← classify word
    let others ← classifyAll rest
    return (word, kind) :: others

/-- What has been read of a command line. -/
structure Reading where
  options : Options := {}
  /-- The argument that no switch took. -/
  manifest : Option String := none
  /-- Words that nothing takes, in reverse order. -/
  extras : List String := []

namespace Reading

/-- A word that nothing takes. -/
def leave (r : Reading) (word : String) : Reading := { r with extras := word :: r.extras }

/-- An argument that no switch takes: the manifest, if it is the first. -/
def argument (r : Reading) (word : String) : Reading :=
  match r.manifest with
  | none => { r with manifest := some word }
  | some _ => r.leave word

/-- Let a switch without a value act. -/
def flag (r : Reading) (switch : Switch) : Except Stop Reading :=
  let o := r.options
  match switch with
  | .help => .error .help
  | .dataRefs => .ok { r with options := { o with dataRefs := some true } }
  | .dryRun => .ok { r with options := { o with dryRun := true } }
  | .verbose => .ok { r with options := { o with verbosity := o.verbosity + 1 } }
  | _ => .ok r

/-- Read the name of an order. -/
def parseOrder (text : String) : Except UsageError Order :=
  match Order.ofText? text with
  | some order => .ok order
  | none => .error (.choice .order text (Order.all.map Order.text))

/-- Let a switch act with what it is given. -/
def setting (r : Reading) (switch : Switch) (given : Given String) : Except UsageError Reading :=
  let o := r.options
  match switch with
  | .bank => .ok { r with options := { o with banks := some (o.banks.getD [] ++ [given]) } }
  | .order => do
    let order ← given.read parseOrder
    return { r with options := { o with order } }
  | .workers => do
    let workers ← given.read (number parseCount)
    return { r with options := { o with workers } }
  | .maxSteps => do
    let limit ← given.read (number parseCount)
    return { r with options := { o with maxSteps := some limit } }
  | .entry => do
    let entry ← given.read (number parseAddress)
    return { r with options := { o with entries := o.entries ++ [entry] } }
  | .output => .ok { r with options := { o with outputDir := some given } }
  | _ => .ok r
where
  /-- The number that a text denotes, or the complaint about it. -/
  number (reader : String → Except ValueError Int) (text : String) : Except UsageError Int :=
    (reader text).mapError (.value switch)

end Reading

/-- What a word with one or more switches asks for: switches without a value, then perhaps one that
wants a value. -/
structure Cluster where
  flags : List Switch := []
  /-- The last switch and the value that is attached to it. -/
  last : Option (Switch × Option String) := none

/-- A switch that no text follows. -/
def Cluster.single (found : Switch) : Cluster :=
  if found.wantsValue then { last := some (found, none) } else { flags := [found] }

/-- A switch and the text that is attached to it: its value, or behind a letter that wants none the
letters of further switches. -/
def Cluster.attach (found : Switch) (short : Bool) (text : List Char) : Except UsageError Cluster :=
  if found.wantsValue then .ok { last := some (found, some (String.ofList text)) }
  else
    match short, text with
    | true, letter :: letters =>
      match Switch.ofName? ['-', letter], letters with
      | some next, [] => .ok { flags := [found] ++ (single next).flags, last := (single next).last }
      | some next, _ =>
        (attach next true letters).map fun more => { more with flags := found :: more.flags }
      | none, _ => .error (.extraValue found (String.ofList text))
    | _, _ => .error (.extraValue found (String.ofList text))

/-- Split a word into its switches. -/
def Cluster.ofSwitch (found : Switch) (short : Bool) :
    Option (List Char) → Except UsageError Cluster
  | none => .ok (single found)
  | some text => attach found short text

/-- Read classified words from left to right. `fresh` says that the word before became the
manifest, which also takes a separator behind it. -/
def Reading.read (r : Reading) (fresh : Bool) : List (String × Word) → Except Stop Reading
  | [] => .ok r
  | (word, kind) :: rest =>
    match kind with
    | .argument => (r.argument word).read r.manifest.isNone rest
    | .separator =>
      (if fresh || r.manifest.isNone then r else r.leave word).read false rest
    | .unknown => (r.leave word).read false rest
    | .switch found short attached =>
      match Cluster.ofSwitch found short attached with
      | .error e => .error (.usage e)
      | .ok cluster =>
        match cluster.last with
        | none => do
          let r ← cluster.flags.foldlM Reading.flag r
          r.read false rest
        | some (switch, some value) => do
          let r ← cluster.flags.foldlM Reading.flag r
          let r ← (r.setting switch (.ofText value)).mapError .usage
          r.read false rest
        | some (switch, none) =>
          match rest with
          | (value, .argument) :: rest => do
            let r ← cluster.flags.foldlM Reading.flag r
            let r ← (r.setting switch (.ofText value)).mapError .usage
            r.read false rest
          | _ => .error (.usage (.noValue switch))

/-- Read a command line. -/
def Options.ofWords (words : List String) : Except Stop Options := do
  let classified ← (Word.classifyAll words).mapError .usage
  let r ← Reading.read {} false classified
  if r.extras = [] then
    return match r.manifest with
      | none => r.options
      | some manifest => { r.options with manifest }
  else throw (.usage (.unrecognized r.extras.reverse))

end BankTrace.CommandLine
