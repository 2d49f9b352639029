import UtilityCss.CommandLine.Program

/-!
# Entry point
-/

open UtilityCss in
/-- Run the program on the arguments of the process. -/
def main (args : List String) : IO UInt32 := do
  let outcome := CommandLine.run (args.map String.toList)
  IO.print (String.ofList outcome.output)
  if let some error := outcome.error then IO.eprintln (String.ofList error.message)
  return UInt32.ofNat outcome.exitCode
