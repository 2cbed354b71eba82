import Redex.Proofs.Interaction

/-!
# Errors in print

An error is announced with the place that is being worked on, and with a diagnosis if it blames a
span of a text. In plain output the diagnosis is the text itself, whatever the span, and a row with
a caret below it (`diagnosis_plain`). If only one line of one file is being worked on, then the
place in front of the error is the name of the file and the number of the line (`heading_single`).
-/

namespace Redex

/-! ## The diagnosis -/

namespace Text

theorem clampBound_mono {start stop : Int} (inside : 0 ≤ start) (ordered : start ≤ stop)
    (length : Nat) : clampBound length start ≤ clampBound length stop := by
  unfold clampBound
  rw [if_neg (by omega), if_neg (by omega)]
  omega

/-- A span, what stands in front of it and what stands behind it make up the text. -/
theorem before_slice_after (s : String) {start stop : Int} (inside : 0 ≤ start)
    (ordered : start ≤ stop) : before s start ++ slice s start stop ++ after s stop = s := by
  have below := clampBound_mono inside ordered s.length
  apply String.toList_inj.1
  simp only [before, slice, after, String.toList_append, String.toList_ofList]
  generalize clampBound s.length start = i at *
  generalize clampBound s.length stop = j at *
  have rest : (s.toList.drop i).drop (j - i) = s.toList.drop j := by
    rw [List.drop_drop]
    congr 1
    omega
  rw [List.append_assoc, ← rest, List.take_append_drop, List.take_append_drop]

end Text

namespace Report

/-- In plain output a diagnosis shows the source as it is, and a caret below the first column of the
span with a tail up to the last. -/
theorem diagnosis_plain {report : Report} (inside : 0 ≤ report.start) (colour : Text.Colour) :
    report.diagnosis .plain colour =
      "  " ++ report.source ++ "\n" ++
        "  " ++ Text.repeated report.start ' ' ++ ("^" ++ Text.repeated report.tailLength '~') := by
  have ordered : report.start ≤ report.shownStop := by
    unfold shownStop
    omega
  have whole := Text.before_slice_after report.source inside ordered
  conv_rhs => rw [← whole]
  simp only [diagnosis, Text.Style.paint_plain, String.append_assoc]

end Report

/-- The diagnosis of a syntax error: the source and a caret below the column that is to blame. -/
theorem SyntaxError.diagnosis_plain {error : SyntaxError} (one : error.stop = error.column + 1)
    (colour : Text.Colour) :
    error.report.diagnosis .plain colour =
      "  " ++ error.source ++ "\n" ++ "  " ++ Text.repeated error.column ' ' ++ "^" := by
  have single : error.report.stop = error.report.start + 1 := congrArg Int.ofNat one
  rw [Report.diagnosis_plain (Int.natCast_nonneg error.column), Report.tailLength_of_column single]
  rfl

/-! ## Places in front of errors -/

theorem Traceback.heading_single (style : Text.Style) (path : String) {line : String}
    (text : line ≠ "") (number : Int) :
    heading style [⟨path, some line, some number⟩] =
      style.bold (path ++ ":" ++ toString number ++ ": ") := by
  have active : [(⟨path, some line, some number⟩ : Place)].filter Place.isActive =
      [⟨path, some line, some number⟩] := by
    simp [Place.isActive, text]
  have single : ¬1 < [(⟨path, some line, some number⟩ : Place)].length := by simp
  rw [heading, active, if_neg single]
  rfl

end Redex
