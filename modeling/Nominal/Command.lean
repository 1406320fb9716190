import Nominal.Command.Arguments
import Nominal.Identity.Tree
import Nominal.Registry

/-!
# The command line

Three requests on one registry: the types of references, the parameters of a parameter list, and the
tree of a type. Results go to the output; errors and the log go to the error output. A reference
that is refused does not stop the ones after it. Any other failure is not caught, and ends the run
where it stands.
-/

namespace Nominal.Command

/-- What a run prints and how it ends. -/
structure Output where
  /-- Zero if everything succeeded. -/
  exit : Nat
  /-- The output. -/
  stdout : String
  /-- The error output. -/
  stderr : String
  /-- The failure that nothing caught and that ended the run, if there was one. -/
  escaped : Option Failure := none
  deriving DecidableEq, Repr

/-- A line with its end. -/
def line (text : String) : String := text ++ "\n"

/-- Takes the events from a world, as the log shows them. -/
def takeLog (settings : Settings) (clock : String) (w : World) : String × World :=
  (String.join (w.events.toList.map fun (_, e) => settings.line clock e.level e.message),
   { w with events := #[] })

/-- The log's line for an error. -/
def errorLine (settings : Settings) (clock : String) (e : Error) : String :=
  settings.line clock Level.error e.report.format

/-- A world with one registry. -/
def start (settings : Settings) : World :=
  match (World.addRegistry (.uniform settings)).run {} with
  | .ok _ w | .error _ w => w

/-- The type of a reference in the first registry. -/
def resolve (ref : String) : World.Action TypeId :=
  World.typeOfReference 0 (.scalar (.text ref) 0)

/-- A run that succeeds. -/
def success (stdout stderr : String) : Output := { exit := 0, stdout := stdout, stderr := stderr }

/-- A run that ends with a failure that nothing catches. -/
def escape (log : String) (e : Failure) : Output :=
  { exit := 1, stdout := "", stderr := log, escaped := some e }

/-- A run in which resolving fails: a refusal is caught and reported, any other failure escapes. -/
def failure (settings : Settings) (clock log : String) : Failure → Output
  | .refused e => { exit := 1, stdout := "", stderr := log ++ errorLine settings clock e }
  | e => escape log e

/-- One run goes on with another one. -/
def Output.followedBy (out rest : Output) : Output where
  exit := max out.exit rest.exit
  stdout := out.stdout ++ rest.stdout
  stderr := out.stderr ++ rest.stderr
  escaped := rest.escaped

/-- Resolves a reference, and prints the text of its type. -/
def handle (settings : Settings) (clock : String) (w : World) (ref : String) : Output × World :=
  match (resolve ref).run w with
  | .ok t w =>
    let (log, w) := takeLog settings clock w
    match w.store.text t with
    | .ok text => (success (line (ref ++ " -> " ++ text)) log, w)
    | .error e => (escape log e, w)
  | .error e w =>
    let (log, w) := takeLog settings clock w
    (failure settings clock log e, w)

/-- Handles references one after the other, until a failure escapes. No world is left then. -/
def parseAll (settings : Settings) (clock : String) : World → List String → Output × Option World
  | w, [] => (success "" "", some w)
  | w, ref :: refs =>
    let (out, w) := handle settings clock w ref
    if out.escaped.isSome then (out, none)
    else
      let (rest, w) := parseAll settings clock w refs
      (out.followedBy rest, w)

/-- The line of the log that tells how many types there are. -/
def summary (settings : Settings) (clock : String) (w : World) : String :=
  let (names, complex) := match w.registries[0]? with
    | some r => (r.names.size, r.interner.count)
    | none => (0, 0)
  settings.line clock Level.info
    (toString names ++ " named type(s), " ++ toString complex ++ " complex type(s)")

/-- The types of references, then how many types there are. -/
def parse (settings : Settings) (clock : String) (refs : List String) : Output :=
  let (log, w) := takeLog settings clock (start settings)
  let (out, w) := parseAll settings clock w refs
  { out with stderr := log ++ out.stderr ++ (w.map (summary settings clock)).getD "" }

/-- The parameters of a parameter list, one a line. -/
def split (settings : Settings) (clock : String) (text : String) : Output :=
  match Reference.splitParams settings.strict text.toList text 0 with
  | .ok params => success (String.join (params.map line)) ""
  | .error fault => failure settings clock "" (.refused (.malformed fault))

/-- The tree of the type of a reference. -/
def tree (settings : Settings) (clock : String) (ref : String) : Output :=
  match (resolve ref).run (start settings) with
  | .ok t w =>
    let (log, w) := takeLog settings clock w
    match (Showing.tree w.heap w.store (some t) 0).outcome.1 with
    | .ok lines => success (String.join (lines.map line)) log
    | .error e => escape log e
  | .error e w => failure settings clock (takeLog settings clock w).1 e

/-- Runs the command line. Arguments that are not in order end it with two, and print nothing. -/
def run (clock : String) (args : List String) : Output :=
  match ofArguments? args with
  | none => { exit := 2, stdout := "", stderr := "" }
  | some (options, request) =>
    let settings := options.settings
    match request with
    | .parse refs => parse settings clock refs
    | .split text => split settings clock text
    | .tree ref => tree settings clock ref

end Nominal.Command
