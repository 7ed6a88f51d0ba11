import MediaSeal.CommandLine.Program

/-!
# Command line

Reads the scenario file that the command line names, runs the program, and
writes out what it logged.
-/

namespace MediaSeal

/-- What the program says about itself when asked. -/
def usage : String :=
  "Drive a sender and receiver frame cryptor back to back\n\n" ++
  "Options:\n" ++
  "  -c, --config <CONFIG>                Scenario file (TOML)\n" ++
  "      --frames <FRAMES>                Frames to send\n" ++
  "      --workers <WORKERS>              Pipeline threads\n" ++
  "      --ratchet-every <RATCHET_EVERY>  Sender ratchets after every n frames (0 = never)\n" ++
  "      --algorithm <ALGORITHM>          Cipher (aes-gcm, aes-cbc)\n" ++
  "      --seed <SEED>                    RNG seed\n" ++
  "      --log-level <LOG_LEVEL>          Log level (trace, debug, info, warn, error)\n" ++
  "  -h, --help                           Print help\n" ++
  "  -V, --version                        Print version"

/-- The content of a file, if it can be read. -/
def readFile? (path : String) : IO (Option ByteArray) := do
  try
    return some (← IO.FS.readBinFile path)
  catch _ => return none

end MediaSeal

/-- Runs the simulation that the command line asks for. -/
def main (words : List String) : IO UInt32 := do
  let content ← match MediaSeal.Program.file? words with
    | some path => MediaSeal.readFile? path
    | none => pure none
  match MediaSeal.Arguments.parse words with
  | .ok .help => IO.println MediaSeal.usage
  | .ok .version => IO.println "framecryptor-sim 0.1.0"
  | _ => pure ()
  let result := MediaSeal.Program.run words content
  for line in result.lines do
    IO.println line
  if let some complaint := result.complaint then
    IO.eprintln s!"Error: {complaint}"
  return UInt32.ofNat result.exitCode
