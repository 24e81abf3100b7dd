-- SUMMARY: Guessing which word was meant by one that is not known.
import Bailiff.Text.Basic

/-!
# Suggestions

Words are compared by the number of insertions, deletions, replacements and swaps of neighbours that
lead from one to the other, where no part is changed twice. Only words that are close are suggested,
and of these the closest.
-/

namespace Bailiff.Console

/-- The largest number of changes that is still close. -/
def maxChanges : Nat := 3

/-- One more row of the table of changes. Its entries are the numbers of changes from the units read
so far, `a` the last of them, to the beginnings of the other word. `above` is the row before and
`twoAbove` the one before that, with the unit `before` that belongs between them. -/
def nextRow (a : Nat) (before : Option Nat) (above twoAbove : List Nat) (word : List Nat) : List Nat :=
  go (above.headD 0 + 1) none above twoAbove word [above.headD 0 + 1]
where
  /-- Goes along the row. `left` is the entry to the left, `last` the unit read before, and the rows
  above begin at the entry to the upper left. -/
  go (left : Nat) (last : Option Nat) (above twoAbove : List Nat) :
      List Nat → List Nat → List Nat
    | [], row => row
    | b :: rest, row =>
      let cost := if a = b then 0 else 1
      let plain := min (min (above.tail.headD 0 + 1) (left + 1)) (above.headD 0 + cost)
      let swapped := match last, before, twoAbove.head? with
        | some c, some d, some n => if a = c ∧ d = b then min plain (n + 1) else plain
        | _, _, _ => plain
      let twoAbove := if last.isSome then twoAbove.tail else twoAbove
      go swapped (some b) above.tail twoAbove rest (row ++ [swapped])

/-- The rows of the table of changes down to the last. -/
def lastRow (word : List Nat) : Option Nat → List Nat → List Nat → List Nat → List Nat
  | _, above, _, [] => above
  | before, above, twoAbove, a :: rest =>
    lastRow word (some a) (nextRow a before above twoAbove word) above rest

/-- The number of changes from one word to another. Words of very different lengths count as
different all through. -/
def changes (a b : List Nat) : Nat :=
  if maxChanges < a.length - b.length ∨ maxChanges < b.length - a.length then max a.length b.length
  else (lastRow b none (List.range (b.length + 1)) [] a).getLastD 0

/-- Whether two words of these lengths are similar after a number of changes: more than two fifths
stay. -/
def isSimilar (a b changed : Nat) : Bool := 2 * max a b < 5 * (max a b - changed)

/-- The candidates closest to a word, among those that are close. -/
def closest (word : String) (candidates : List String) : List String :=
  let close := candidates.filterMap fun c =>
    let (a, b) := (Text.units word, Text.units c)
    let n := changes a b
    if 1 < b.length ∧ n ≤ maxChanges ∧ isSimilar a.length b.length n then some (n, c) else none
  match (close.map (·.1)).min? with
  | none => []
  | some best => (close.filter (·.1 = best)).map (·.2)

/-- The text without its first two characters. -/
def withoutDashes (s : String) : String := String.ofList (s.toList.drop 2)

/-- What is added to a message about a word that is not known. For a word with two dashes only what
comes after them is compared. -/
def suggestion (word : String) (candidates : List String) : String :=
  let candidates := candidates.eraseDups
  let found :=
    if ['-', '-'].isPrefixOf word.toList then
      (Text.sortByUnits (closest (withoutDashes word) (candidates.map withoutDashes))).map ("--" ++ ·)
    else Text.sortByUnits (closest word candidates)
  match found with
  | [] => ""
  | [one] => "\n(Did you mean " ++ one ++ "?)"
  | more => "\n(Did you mean one of " ++ ", ".intercalate more ++ "?)"

end Bailiff.Console
