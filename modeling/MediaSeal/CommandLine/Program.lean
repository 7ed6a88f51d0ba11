import MediaSeal.Call.Simulation
import MediaSeal.CommandLine.Arguments
import MediaSeal.CommandLine.LogFilter
import MediaSeal.Scenario.Reading

/-!
# The simulation program

Reads a scenario, applies what the command line changes, plays it, and logs
one line before and one after. Failures show in the exit code: two for a
command line that is refused, one for a scenario that cannot be run or a call
that an audit finds fault with, and a hundred and one for a run that breaks off
in the middle.
-/

namespace MediaSeal.Program

/-- What a run of the program leaves behind. -/
structure Result where
  exitCode : Nat
  /-- Lines logged. -/
  lines : List String
  /-- What is said about a failure. -/
  complaint : Option String
deriving DecidableEq, Repr

/-- Where the program's log lines come from. -/
def logTarget : String := "framecryptor_sim"

/-- The scenario with the changes that the command line asks for. -/
def adjust (scenario : Scenario) (arguments : Arguments) : Scenario :=
  { scenario with
    frames := arguments.frames.getD scenario.frames
    workers := arguments.workers.getD scenario.workers
    ratchetEvery := arguments.ratchetEvery.getD scenario.ratchetEvery
    algorithm := arguments.algorithm.getD scenario.algorithm
    seed := arguments.seed.getD scenario.seed }

/-- The scenario to play; `content` is what is in the scenario file, if that
can be read. The file must hold a sensible scenario by itself. -/
def scenario (arguments : Arguments) (content : Option ByteArray) :
    Except ScenarioError Scenario := do
  let scenario ← match arguments.config with
    | some _ => Scenario.ofFile content
    | none => .ok Scenario.default
  let scenario := adjust scenario arguments
  scenario.validate
  return scenario

/-- The line before a run. -/
def startLine (scenario : Scenario) : String :=
  s!"simulation starting frames={scenario.frames} workers={scenario.workers} " ++
    s!"ratchet_every={scenario.ratchetEvery} algorithm={scenario.algorithm} seed={scenario.seed}"

/-- The line after a run. -/
def endLine (report : Report) : String :=
  let generation := match report.receiverGeneration with
    | some generation => s!"Some({generation})"
    | none => "None"
  let outcomes := ", ".intercalate (report.receiverOutcomes.map (·.label))
  s!"simulation finished sent={report.sent} delivered={report.delivered} " ++
    s!"dropped_at_sender={report.droppedAtSender} " ++
    s!"dropped_at_receiver={report.droppedAtReceiver} ratchets={report.ratchets} " ++
    s!"receiver_generation={generation} receiver_states=[{outcomes}]"

/-- The exit code where a call is not played to its end. -/
def exitCode : RunError → Nat
  | .call _ => 1
  | .noRoom => 101

/-- A run with arguments that were understood. -/
def play (arguments : Arguments) (content : Option ByteArray) : Result :=
  let log (line : String) : List String :=
    if LogFilter.admits (arguments.logLevel.getD "info") .info logTarget then [line] else []
  match scenario arguments content with
  | .error error => ⟨1, [], some error.message⟩
  | .ok scenario =>
    let started := log (startLine scenario)
    match scenario.run scenario.rounds with
    | .error error => ⟨exitCode error, started, some error.message⟩
    | .ok report =>
      let lines := started ++ log (endLine report)
      if report.violations.isEmpty then ⟨0, lines, none⟩
      else ⟨1, lines, some s!"{report.violations.length} invariant violations"⟩

/-- The scenario file that a command line names. -/
def file? (words : List String) : Option String :=
  match Arguments.parse words with
  | .ok (.run arguments) => arguments.config
  | _ => none

/-- A run of the program on a command line; `content` is what is in the
scenario file that it names, if that can be read. -/
def run (words : List String) (content : Option ByteArray) : Result :=
  match Arguments.parse words with
  | .error error => ⟨2, [], some error.message⟩
  | .ok .help | .ok .version => ⟨0, [], none⟩
  | .ok (.run arguments) => play arguments content

end MediaSeal.Program
