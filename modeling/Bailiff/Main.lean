-- SUMMARY: The command line of the harness in a working directory that is empty at first.
import Bailiff.Console.Run

namespace Bailiff

/-- The environment variables of the harness. -/
def environmentNames : List String :=
  ["SERVER_ARGS", "WORKER_ARGS", "SERVER_ADDR", "SPAWN_SERVER", "SPAWN_WORKERS", "HARNESS_LOGLEVEL",
    "JUDGE_TOOLS_BIN", "SHELL", "HARNESS_STORE_ROOT"]

/-- A world with nothing but its directories. -/
def emptyWorld (environment : Value) : Console.World :=
  { files := ⟨[(["work"], .directory), (["tmp"], .directory), (["package-root"], .directory)]⟩
    base := ["work"]
    environment
    suffix := Stores.suffix (List.replicate Stores.suffixLength 0) }

end Bailiff

open Bailiff in
/-- Runs the words of the command line and prints what they lead to. -/
def main (words : List String) : IO UInt32 := do
  let mut fields : List (String × Value) := []
  for name in environmentNames do
    match ← IO.getEnv name with
    | some text => fields := fields ++ [(name, .text text)]
    | none => pure ()
  let response := Console.run (emptyWorld (.record fields)) words
  IO.print response.stdout
  IO.eprint response.stderr
  return UInt32.ofNat (response.exitCode % 256).toNat
