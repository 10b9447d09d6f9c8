import AheadOfTime.Compilation.Javac
import AheadOfTime.Proofs.Compilation.Accounts
import AheadOfTime.Proofs.Compilation.Host

/-!
# The gate after a compilation

Sources count as compiled exactly if the host says so and none of its messages is an error.
Anything else is an error that says something, and with `javac` it takes nothing but the exit
status and the headers in the output to tell which it is.
-/

namespace AheadOfTime

theorem Text.feed_append_ne_empty (text : String) : "\n" ++ text ≠ "" :=
  fun empty => absurd (String.append_eq_empty_iff.1 empty).1 (by decide)

namespace Diagnostic

theorem errors_eq_nil_iff {diagnostics : List Diagnostic} :
    errors diagnostics = [] ↔ ∀ diagnostic ∈ diagnostics, diagnostic.severity ≠ .error := by
  rw [← not_iff_not, ← ne_eq, errors_ne_nil_iff]
  simp only [not_forall, not_not, exists_prop]

/-- Each error begins with a line feed, so a report is empty only without errors. -/
theorem errorReport_eq_empty_iff {diagnostics : List Diagnostic} :
    errorReport diagnostics = "" ↔ errors diagnostics = [] := by
  rw [errorReport]
  cases errors diagnostics with
  | nil =>
      exact iff_of_true String.join_nil rfl
  | cons error errors =>
      refine iff_of_false ?_ (List.cons_ne_nil error errors)
      rw [List.map_cons, String.join_cons, String.append_assoc]
      exact Text.feed_append_ne_empty _

/-- A report says of each error what it is about and where, after a line feed. -/
theorem errorReport_eq (diagnostics : List Diagnostic) :
    errorReport diagnostics =
      String.join ((diagnostics.filter fun diagnostic => diagnostic.severity = .error).map
        fun error =>
          "\n" ++ error.message ++
            (match error.source with
            | some source => " " ++ source.text
            | none => "") ++
            match error.line, error.column with
            | some line, some column => " " ++ toString line ++ ":" ++ toString column
            | some line, none => " " ++ toString line
            | none, _ => "") := by
  refine congrArg String.join (List.map_congr_left fun error _ => ?_)
  rw [display, ← String.append_assoc, ← String.append_assoc]
  rfl

end Diagnostic

namespace HostReport

/-- Whether a host has compiled: it says so, and no message is an error. -/
structure IsAccepted (report : HostReport) : Prop where
  succeeded : report.success = true
  noErrors : ∀ diagnostic ∈ report.diagnostics, diagnostic.severity ≠ .error

/-- Whether a text tells why a program has not compiled: all errors, each on a line of its own
with its message, its source file and its position as far as they are known, or without errors
the failure and the lines that belong to no message. -/
structure IsExplanation (report : HostReport) (program text : String) : Prop where
  nonempty : text ≠ ""
  ofErrors : (∃ diagnostic ∈ report.diagnostics, diagnostic.severity = .error) →
    text = String.join ((report.diagnostics.filter fun diagnostic =>
      diagnostic.severity = .error).map fun error =>
        "\n" ++ error.message ++
          (match error.source with
          | some source => " " ++ source.text
          | none => "") ++
          match error.line, error.column with
          | some line, some column => " " ++ toString line ++ ":" ++ toString column
          | some line, none => " " ++ toString line
          | none, _ => "")
  ofStatus : (∀ diagnostic ∈ report.diagnostics, diagnostic.severity ≠ .error) →
    text = "\n" ++ program ++ " exited with a failure status" ++
      String.join (report.unparsed.map fun line => "\n" ++ line)

/-- What comes of a report: the messages if it is accepted, else a failure with the messages and
an explanation. -/
structure IsJudged (report : HostReport) (program : String)
    (verdict : Except CompilationError (List Diagnostic)) : Prop where
  accepted_iff : (∃ diagnostics, verdict = .ok diagnostics) ↔ report.IsAccepted
  accepted : ∀ diagnostics, verdict = .ok diagnostics → diagnostics = report.diagnostics
  failed : ∀ error, verdict = .error error →
    ∃ text, error = .failed text report.diagnostics ∧ report.IsExplanation program text

variable (report : HostReport)

theorem isClean_iff : report.isClean = true ↔ report.IsAccepted := by
  rw [isClean, Bool.and_eq_true, List.isEmpty_iff, Diagnostic.errors_eq_nil_iff]
  exact ⟨fun ⟨succeeded, noErrors⟩ => ⟨succeeded, noErrors⟩,
    fun isAccepted => ⟨isAccepted.succeeded, isAccepted.noErrors⟩⟩

/-- Whether there are errors can be told from their report. -/
theorem failureText_eq_of_errorReport (program : String) :
    report.failureText program =
      if Diagnostic.errorReport report.diagnostics = "" then
        "\n" ++ program ++ " exited with a failure status" ++
          String.join (report.unparsed.map fun line => "\n" ++ line)
      else
        Diagnostic.errorReport report.diagnostics := by
  simp only [failureText, List.isEmpty_iff, Diagnostic.errorReport_eq_empty_iff]

theorem isExplanation_failureText (program : String) :
    report.IsExplanation program (report.failureText program) := by
  rw [failureText_eq_of_errorReport]
  by_cases empty : Diagnostic.errorReport report.diagnostics = ""
  · have noErrors := Diagnostic.errors_eq_nil_iff.1 (Diagnostic.errorReport_eq_empty_iff.1 empty)
    rw [if_pos empty]
    refine ⟨?_, ?_, fun _ => rfl⟩
    · rw [String.append_assoc, String.append_assoc]
      exact Text.feed_append_ne_empty _
    · rintro ⟨diagnostic, member, isError⟩
      exact absurd isError (noErrors diagnostic member)
  · rw [if_neg empty]
    refine ⟨empty, fun _ => Diagnostic.errorReport_eq _, fun noErrors => absurd ?_ empty⟩
    exact Diagnostic.errorReport_eq_empty_iff.2 (Diagnostic.errors_eq_nil_iff.2 noErrors)

theorem isJudged_verdict (program : String) :
    report.IsJudged program (report.verdict program) := by
  rw [verdict]
  by_cases clean : report.isClean = true
  · rw [if_pos clean]
    refine ⟨iff_of_true ⟨_, rfl⟩ (report.isClean_iff.1 clean), ?_, ?_⟩
    · rintro _ ⟨⟩
      rfl
    · rintro _ ⟨⟩
  · rw [if_neg clean]
    refine ⟨iff_of_false ?_ (mt report.isClean_iff.2 clean), ?_, ?_⟩
    · rintro ⟨_, ⟨⟩⟩
    · rintro _ ⟨⟩
    · rintro _ ⟨⟩
      exact ⟨_, rfl, report.isExplanation_failureText program⟩

end HostReport

namespace Javac

open CompilerOutput (IsHeader)

variable (javac : Javac) (launcher : Launcher) {request : CompileRequest} {files : FileTree}

theorem invoke_of_none
    (missing : (javac.launch launcher (javac.arguments request) files).1 = none) :
    (javac.invoke launcher request files).1 = .error (.notLaunched javac.program) := by
  obtain ⟨result, after, launched⟩ : ∃ result after,
      javac.launch launcher (javac.arguments request) files = (result, after) := ⟨_, _, rfl⟩
  rw [launched] at missing
  subst missing
  rw [invoke, launched]

theorem invoke_of_some {result : ProgramResult}
    (ended : (javac.launch launcher (javac.arguments request) files).1 = some result) :
    (javac.invoke launcher request files).1 = .ok (report result) := by
  obtain ⟨answer, after, launched⟩ : ∃ answer after,
      javac.launch launcher (javac.arguments request) files = (answer, after) := ⟨_, _, rfl⟩
  rw [launched] at ended
  subst ended
  rw [invoke, launched]

/-- A result is accepted by its exit status and the headers in what has been written. -/
theorem isAccepted_report_iff (result : ProgramResult) :
    (report result).IsAccepted ↔ result.success = true ∧
      ∀ line ∈ Text.lines (result.errorOutput ++ result.output).toList,
        ¬ IsHeader .error line := by
  have noErrors : (∀ diagnostic ∈ (report result).diagnostics, diagnostic.severity ≠ .error) ↔
      ∀ line ∈ Text.lines (result.errorOutput ++ result.output).toList,
        ¬ IsHeader .error line := by
    rw [← Diagnostic.errors_eq_nil_iff, ← not_iff_not, ← ne_eq]
    refine (CompilerOutput.errors_read_ne_nil_iff _).trans ?_
    simp only [not_forall, not_not, exists_prop]
  rw [← noErrors]
  exact ⟨fun isAccepted => ⟨isAccepted.succeeded, isAccepted.noErrors⟩,
    fun ⟨succeeded, noErrors⟩ => ⟨succeeded, noErrors⟩⟩

end Javac

/-- The gate. Without sources nothing is compiled: no host is asked, and no file changes. Else the
host is asked once, for these sources and this directory, unless the directory cannot be made, and
its report is judged by its success and its errors. With `javac` the exit status and the headers
in all that it has written decide. -/
theorem Host.compile_gates_on_report (sources : List Path) (classes : Path)
    (before : Workspace) :
    (sources = [] → ∀ host : Host, host.compile sources classes before = (.ok [], before)) ∧
    (sources ≠ [] → ∀ made, before.files.makeDirectories classes = (made, false) →
      ∀ host : Host, host.compile sources classes before =
        (.error (.noDirectory classes), ⟨made, before.requests⟩)) ∧
    (sources ≠ [] → ∀ made, before.files.makeDirectories classes = (made, true) →
      (∀ host : Host,
        (host.compile sources classes before).2 =
          ⟨(host.invoke ⟨sources, classes⟩ made).2, before.requests ++ [⟨sources, classes⟩]⟩ ∧
        match (host.invoke ⟨sources, classes⟩ made).1 with
        | .error error => (host.compile sources classes before).1 = .error error
        | .ok report =>
            report.IsJudged host.program (host.compile sources classes before).1) ∧
      ∀ (javac : Javac) (launcher : Launcher),
        match (javac.launch launcher (javac.arguments ⟨sources, classes⟩) made).1 with
        | none =>
            ((javac.host launcher).compile sources classes before).1 =
              .error (.notLaunched javac.program)
        | some result =>
            (∃ diagnostics,
              ((javac.host launcher).compile sources classes before).1 = .ok diagnostics) ↔
            result.success = true ∧
              ∀ line ∈ Text.lines (result.errorOutput ++ result.output).toList,
                ¬ CompilerOutput.IsHeader .error line) := by
  refine ⟨?_, fun nonempty made missing host => host.compile_of_no_directory nonempty missing,
    fun nonempty made present => ⟨fun host => ⟨?_, ?_⟩, fun javac launcher => ?_⟩⟩
  · rintro rfl host
    exact host.compile_nil
  · rw [host.compile_of_directory nonempty present, host.ask_eq]
  · rw [host.compile_of_directory nonempty present, host.ask_eq]
    cases (host.invoke ⟨sources, classes⟩ made).1 with
    | error error =>
        rfl
    | ok report =>
        exact report.isJudged_verdict host.program
  · rw [(javac.host launcher).compile_of_directory nonempty present, Host.ask_eq]
    split
    · next missing =>
      have answer : ((javac.host launcher).invoke ⟨sources, classes⟩ made).1 =
          .error (.notLaunched javac.program) :=
        javac.invoke_of_none launcher missing
      rw [answer]
      rfl
    · next result ended =>
      have answer : ((javac.host launcher).invoke ⟨sources, classes⟩ made).1 =
          .ok (Javac.report result) :=
        javac.invoke_of_some launcher ended
      rw [answer]
      refine (HostReport.isJudged_verdict _ _).accepted_iff.trans ?_
      exact Javac.isAccepted_report_iff result

end AheadOfTime
