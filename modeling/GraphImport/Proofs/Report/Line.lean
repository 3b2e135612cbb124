import GraphImport.Proofs.Json.Values
import GraphImport.Proofs.Text.Styling
import GraphImport.Report.Output

/-!
# The report on a line

The JSON report of problems takes one line, whatever the problems say, and reading the line gives
the document back.
-/

namespace GraphImport.Report

open Document (Value)
open Json

theorem chars_document (problems : List String) : chars (document problems) =
    '\x7b' :: (stringText "valid" ++ ':' :: ' ' :: (chars (.bool problems.isEmpty) ++
      ',' :: ' ' :: (stringText "problems" ++ ':' :: ' ' ::
        (chars (.list (problems.map .text)) ++ ['\x7d'])))) := by
  simp [document, Value.record, chars, entryChars, keyText]

/-- A report is printed as a record of two fields. -/
theorem isWritten_document (problems : List String) : IsWritten (document problems) := by
  obtain ⟨valid, hvalid, hvalid'⟩ := exists_name "valid"
  obtain ⟨name, hname, hname'⟩ := exists_name "problems"
  obtain ⟨flag, hflag, hflag'⟩ := isWritten_bool problems.isEmpty
  obtain ⟨items, hitems, hitems'⟩ := isWritten_list problems
  refine ⟨.record noGap (.more valid noGap blankGap flag noGap blankGap
    (.last name noGap blankGap items noGap)), ?_, ?_⟩
  · rw [chars_document]
    simp [Written.chars, Fields.chars, noGap, blankGap, hvalid, hname, hflag, hitems]
  · simp only [Written.value, Fields.entries, hvalid', hname', hflag', hitems']
    rfl

/-- A report is read back from its line. -/
theorem read_jsonLine (problems : List String) :
    Json.read (jsonLine problems) = .ok (document problems) := by
  obtain ⟨w, hchars, hvalue⟩ := isWritten_document problems
  have hread := read_page { before := noGap, root := w, after := noGap }
  have htext : Page.chars { before := noGap, root := w, after := noGap } =
      chars (document problems) := by
    simp [Page.chars, noGap, hchars]
  rw [htext, hvalue] at hread
  exact hread

/-- A report is written in printable ASCII characters. -/
theorem jsonLine_plain (problems : List String) : ∀ c ∈ (jsonLine problems).toList, IsPlain c := by
  have hlist : ∀ c ∈ chars (.list (problems.map .text)), IsPlain c := by
    change ∀ c ∈ '[' :: itemChars true (problems.map .text) ++ [']'], IsPlain c
    rw [List.forall_mem_append, List.forall_mem_cons]
    exact ⟨⟨by decide, itemChars_plain problems true⟩, Text.forall_mem_of_all (by decide)⟩
  rw [jsonLine, render, String.toList_ofList, chars_document]
  simp only [List.forall_mem_cons, List.forall_mem_append]
  exact ⟨by decide, stringText_plain _, by decide, by decide, chars_bool_plain _, by decide,
    by decide, stringText_plain _, by decide, by decide, hlist, by decide, by simp⟩

/-- Different problems make different reports. -/
theorem document_injective : Function.Injective document := by
  intro problems others h
  simp only [document, Value.record, List.map_cons, List.map_nil, Value.map.injEq,
    List.cons.injEq, Prod.mk.injEq, Value.list.injEq] at h
  exact (List.map_inj_right fun _ _ htext => Value.text.inj htext).mp h.2.1.2

/-- The report stands on one line. -/
theorem newline_notMem_jsonLine (problems : List String) : '\n' ∉ (jsonLine problems).toList :=
  fun h => absurd (jsonLine_plain problems _ h) (by decide)

/-- Echoing a report leaves nothing out. -/
theorem ofProblems_json (problems : List String) :
    ofProblems .json problems = .ofLine (jsonLine problems) := by
  have hbare : '\x1b' ∉ (jsonLine problems).toList :=
    fun h => absurd (jsonLine_plain problems _ h) (by decide)
  exact congrArg Output.ofLine (Text.unstyled_of_notMem hbare)

/-- Problems in JSON are one line of printable ASCII characters on standard output, and nothing
else. The line belongs to the JSON grammar, and however the grammar derives it, it means the report
of exactly these problems. So no other problems print the same line. -/
theorem ofProblems_json_faithful (problems : List String) :
    ∃ line : String, (ofProblems .json problems).stdout = line ++ "\n" ∧
      (ofProblems .json problems).stderr = [] ∧
      (∀ c ∈ line.toList, IsPlain c) ∧
      (∃ page : Page, page.chars = line.toList) ∧
      (∀ page : Page, page.chars = line.toList → page.root.value =
        .record [("valid", .bool problems.isEmpty), ("problems", .list (problems.map .text))]) ∧
      Json.read line = .ok
        (.record [("valid", .bool problems.isEmpty), ("problems", .list (problems.map .text))]) ∧
      ∀ others, (ofProblems .json others).stdout = line ++ "\n" → others = problems := by
  simp only [ofProblems_json]
  refine ⟨jsonLine problems, rfl, rfl, jsonLine_plain problems, ?_, ?_, read_jsonLine problems, ?_⟩
  · obtain ⟨w, hchars, _⟩ := isWritten_document problems
    refine ⟨{ before := noGap, root := w, after := noGap }, ?_⟩
    simp [Page.chars, noGap, hchars, jsonLine, render]
  · intro page hpage
    have hread := read_page page
    rw [hpage, String.ofList_toList, read_jsonLine] at hread
    exact (Except.ok.inj hread).symm
  · intro others hothers
    have hline : jsonLine others = jsonLine problems := String.append_left_inj "\n" |>.mp hothers
    have hread := read_jsonLine others
    rw [hline, read_jsonLine] at hread
    exact (document_injective (Except.ok.inj hread)).symm

end GraphImport.Report
