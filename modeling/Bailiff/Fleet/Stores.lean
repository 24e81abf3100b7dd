-- SUMMARY: The names of the temporary stores, and how names are made unique.
import Bailiff.Files.Path
import Bailiff.Number.Shortest
import Bailiff.Text.Basic

namespace Bailiff.Stores

def serverStem : String := "harness-server."

def workerStem : String := "harness-worker."

/-- Whether a name is that of a store. -/
def isStoreName (name : String) : Bool :=
  serverStem.toList.isPrefixOf name.toList || workerStem.toList.isPrefixOf name.toList

/-- The beginning of the path of a server store. -/
def serverPath (root : String) : String := Path.join [root, serverStem]

/-- The path of a worker store. -/
def workerPath (root base index : String) : String :=
  Path.join [root, workerStem ++ base ++ "-" ++ index]

/-- The characters of random names. -/
def alphabet : List Char := "abcdefghijklmnopqrstuvwxyzABCDEFGHIJKLMNOPQRSTUVWXYZ0123456789".toList

/-- The number of characters in a random name. -/
def suffixLength : Nat := 7

/-- A name of one character for each random octet. -/
def suffix (octets : List Nat) : String :=
  String.ofList (octets.map fun b => alphabet.getD (b % alphabet.length) 'a')

/-- An index with leading zeros up to a width. -/
def padded (index : String) (width : Nat) : String := Text.padStart index width '0'

/-- The number of a worker, counted from one, in at least two digits. -/
def workerIndex (number : Nat) : String := padded (Binary64.integerText number) 2

/-- The label of a worker. -/
def workerLabel (number : Nat) : String := "worker-" ++ workerIndex number

end Bailiff.Stores
