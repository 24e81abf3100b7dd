-- SUMMARY: The renderings of one failure: details come after what is short, and colours are taken off without a trace.
import Bailiff.Proofs.Report.Styles
import Bailiff.Proofs.Text.Joined

/-!
# Renderings of a failure

The four renderings of a failure, short or with details, with or without colour, are made of the same lines. Details
follow the short lines (`Failure.render_debug`). A coloured line is one whose label and whose text are each styled on
their own (`ReportLine.isColoured`), and without the sequences it is the line without colour
(`ReportLine.strips_render`). `Failure.renderings_agree` says this of all failures.
-/

namespace Bailiff

/-! ## Texts without sequences -/

/-- No sequence begins in the text. -/
def IsPlainText (text : String) : Prop := escape ∉ text.toList

instance (text : String) : Decidable (IsPlainText text) := inferInstanceAs (Decidable (escape ∉ text.toList))

theorem IsPlainText.append {s t : String} (hs : IsPlainText s) (ht : IsPlainText t) : IsPlainText (s ++ t) := by
  rw [IsPlainText, String.toList_append, List.mem_append, not_or]
  exact ⟨hs, ht⟩

theorem isPlainText_intercalate {sep : String} {texts : List String} (hsep : IsPlainText sep)
    (h : ∀ text ∈ texts, IsPlainText text) : IsPlainText (sep.intercalate texts) := by
  intro hmem
  rw [String.toList_intercalate] at hmem
  rcases mem_joined hmem with hin | ⟨part, hpart, hin⟩
  · exact hsep hin
  · obtain ⟨text, htext, rfl⟩ := List.mem_map.mp hpart
    exact h text htext hin

theorem IsPlainText.indentLines {text : String} (h : IsPlainText text) : IsPlainText (indentLines text) := by
  refine isPlainText_intercalate (by decide) fun line hline => ?_
  obtain ⟨part, hpart, rfl⟩ := List.mem_map.mp hline
  have hplain : IsPlainText (String.ofList part) := by
    intro hin
    rw [String.toList_ofList] at hin
    have hmem : escape ∈ ['\n'].intercalate (text.toList.splitOn '\n') := mem_joined_of_mem hpart hin
    rw [List.intercalate_splitOn] at hmem
    exact h hmem
  exact IsPlainText.append (by decide) hplain

/-! ## Lines -/

namespace ReportLine

/-- The text of a line as it is shown: a trace is indented. -/
def body (l : ReportLine) : String := if l.kind = .stack then indentLines l.text else l.text

/-- What stands between a label and its text. -/
def separator (l : ReportLine) : String := if l.kind = .stack then "\n" else " "

/-- A line in colour: its label and its text are each in styles of their own. -/
inductive IsColoured (l : ReportLine) : String → Prop where
  | unlabelled {text : String} (hlabel : l.kind.label? = none) (htext : IsStyled l.kind.textStyles l.body text) :
      IsColoured l text
  | labelled {name label text : String} (hname : l.kind.label? = some name)
      (hlabel : IsStyled l.kind.labelStyles name label) (htext : IsStyled l.kind.textStyles l.body text) :
      IsColoured l (label ++ l.separator ++ text)

variable {l : ReportLine}

theorem render_unlabelled (colour : Bool) (h : l.kind.label? = none) :
    l.render colour = styled colour l.kind.textStyles l.body := by
  simp only [render, h, body]

theorem render_labelled (colour : Bool) {label : String} (h : l.kind.label? = some label) :
    l.render colour = styled colour l.kind.labelStyles label ++ l.separator ++ styled colour l.kind.textStyles l.body := by
  simp only [render, h, body, separator]

theorem isColoured (l : ReportLine) : l.IsColoured (l.render true) := by
  cases hlabel : l.kind.label? with
  | none =>
    rw [render_unlabelled true hlabel]
    exact .unlabelled hlabel (isStyled_styled _ _)
  | some name =>
    rw [render_labelled true hlabel]
    exact .labelled hlabel (isStyled_styled _ _) (isStyled_styled _ _)

theorem isPlainText_label {kind : LineKind} {label : String} (h : kind.label? = some label) : IsPlainText label := by
  cases kind <;> cases h <;> decide

theorem isPlainText_separator (l : ReportLine) : IsPlainText l.separator := by
  unfold separator
  split <;> decide

theorem isPlainText_body (h : IsPlainText l.text) : IsPlainText l.body := by
  unfold body
  split
  · exact h.indentLines
  · exact h

theorem strips_render (h : IsPlainText l.text) : Strips (l.render true).toList (l.render false).toList := by
  have htext := strips_styled l.kind.textStyles (isPlainText_body h)
  cases hlabel : l.kind.label? with
  | none =>
    rw [render_unlabelled true hlabel, render_unlabelled false hlabel]
    exact htext
  | some label =>
    have hstyled := strips_styled l.kind.labelStyles (isPlainText_label hlabel)
    rw [render_labelled true hlabel, render_labelled false hlabel]
    simp only [String.toList_append]
    exact (hstyled.append (strips_chars l.isPlainText_separator)).append htext

theorem isPlainText_render (h : IsPlainText l.text) : IsPlainText (l.render false) := by
  cases hlabel : l.kind.label? with
  | none =>
    rw [render_unlabelled false hlabel]
    exact isPlainText_body h
  | some label =>
    rw [render_labelled false hlabel]
    exact ((isPlainText_label hlabel).append l.isPlainText_separator).append (isPlainText_body h)

end ReportLine

/-! ## Failures -/

namespace Failure

variable {f : Failure} {detail : Detail}

/-- The lines that are shown on demand only. -/
def extraLines (colour : Bool) (f : Failure) : List String :=
  (f.detailLines ++ f.traceLines).map (·.render colour)

/-! ### Details -/

theorem shortLines_ne_nil (f : Failure) : f.shortLines ≠ [] := by
  cases f <;> exact List.cons_ne_nil _ _

theorem render_short (colour : Bool) (f : Failure) :
    f.render .short colour = "\n".intercalate (f.shortLines.map (·.render colour)) := by
  rw [render, lines]

theorem render_debug (colour : Bool) (f : Failure) :
    f.render .debug colour = "\n".intercalate (f.shortLines.map (·.render colour) ++ f.extraLines colour) := by
  rw [render, lines, extraLines, List.append_assoc, List.map_append]

/-- With details, what is short is followed by nothing, or by a line end and the other lines. -/
theorem render_debug_cases (colour : Bool) (f : Failure) :
    (f.extraLines colour = [] ∧ f.render .debug colour = f.render .short colour)
      ∨ f.render .debug colour = f.render .short colour ++ "\n" ++ "\n".intercalate (f.extraLines colour) := by
  rw [render_debug, render_short]
  by_cases hextra : f.extraLines colour = []
  · exact .inl ⟨hextra, by rw [hextra, List.append_nil]⟩
  · exact .inr (String.intercalate_append_of_ne_nil (List.map_eq_nil_iff.not.mpr f.shortLines_ne_nil) hextra)

/-! ### Colour -/

theorem withoutRenditions_render (h : ∀ l ∈ f.lines detail, IsPlainText l.text) :
    withoutRenditions (f.render detail true).toList = (f.render detail false).toList := by
  rw [render, render, String.toList_intercalate, String.toList_intercalate]
  refine (strips_intercalate (by decide) ?_).eq
  rw [List.map_map, List.map_map, List.forall₂_map_left_iff, List.forall₂_map_right_iff, List.forall₂_same]
  exact fun l hl => ReportLine.strips_render (h l hl)

theorem isPlainText_render (h : ∀ l ∈ f.lines detail, IsPlainText l.text) : IsPlainText (f.render detail false) := by
  rw [render]
  refine isPlainText_intercalate (by decide) fun line hline => ?_
  obtain ⟨l, hl, rfl⟩ := List.mem_map.mp hline
  exact ReportLine.isPlainText_render (h l hl)

theorem useColour_no_terminal (wish : Option Bool) (forbidden : Bool) : useColour false wish forbidden = false := rfl

/-- What is short comes first in what has details, in colour or without. A rendering in colour is made of coloured
lines, and if no text has a sequence of its own, it is the rendering without colour as soon as the sequences are taken
out. What is not shown on a terminal has no colour, whatever is wished, and no sequence. -/
theorem renderings_agree (f : Failure) :
    (∀ colour, (f.extraLines colour = [] ∧ f.render .debug colour = f.render .short colour)
        ∨ f.render .debug colour = f.render .short colour ++ "\n" ++ "\n".intercalate (f.extraLines colour))
      ∧ (∀ detail, (∀ l ∈ f.lines detail, IsPlainText l.text) →
        withoutRenditions (f.render detail true).toList = (f.render detail false).toList)
      ∧ (∀ detail, ∃ shown, f.render detail true = "\n".intercalate shown
        ∧ List.Forall₂ ReportLine.IsColoured (f.lines detail) shown)
      ∧ ∀ detail wish forbidden, f.render detail (useColour false wish forbidden) = f.render detail false
        ∧ ((∀ l ∈ f.lines detail, IsPlainText l.text) →
          IsPlainText (f.render detail (useColour false wish forbidden))) := by
  refine ⟨fun colour => f.render_debug_cases colour, fun detail h => withoutRenditions_render h, fun detail => ?_,
    fun detail wish forbidden => ?_⟩
  · refine ⟨(f.lines detail).map (·.render true), rfl, ?_⟩
    rw [List.forall₂_map_right_iff, List.forall₂_same]
    exact fun l _ => l.isColoured
  · rw [useColour_no_terminal]
    exact ⟨rfl, isPlainText_render⟩

/-- A report with a hint, a cause and a trace of three lines. -/
def lockedReport : Failure :=
  .report .storage "Batch failed." "database is locked" (some "Close the other batch.") none
    (some (.because .storage "Failed to record result" (.plain "SQLITE_BUSY")))
    (.text "UserFacingError: database is locked\nat record:1\nat batch:2")

theorem renderings_agree_locked :
    (∀ l ∈ lockedReport.lines .debug, IsPlainText l.text)
      ∧ withoutRenditions (lockedReport.render .debug true).toList = (lockedReport.render .debug false).toList
      ∧ IsPlainText (lockedReport.render .debug (useColour false (some true) false)) := by
  have hplain : ∀ l ∈ lockedReport.lines .debug, IsPlainText l.text := by decide
  obtain ⟨-, hwithout, -, hterminal⟩ := renderings_agree lockedReport
  exact ⟨hplain, hwithout .debug hplain, (hterminal .debug (some true) false).2 hplain⟩

end Failure

end Bailiff
