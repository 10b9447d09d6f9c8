import AheadOfTime.Compilation

/-!
# What asking a host does

A compilation goes one of three ways.  Without sources there is nothing to do, and where the
directory for classes cannot be made no host is asked.  Otherwise the host is asked once, and
what it reports gives the verdict.
-/

namespace AheadOfTime.Host

variable (host : Host) {sources : List Path} {classes : Path} {before : Workspace}
  {made : FileTree}

theorem compile_nil : host.compile [] classes before = (.ok [], before) := by
  rfl

theorem compile_of_no_directory (nonempty : sources ≠ [])
    (missing : before.files.makeDirectories classes = (made, false)) :
    host.compile sources classes before =
      (.error (.noDirectory classes), ⟨made, before.requests⟩) := by
  rw [compile, if_neg (mt List.isEmpty_iff.1 nonempty), missing]

theorem compile_of_directory (nonempty : sources ≠ [])
    (present : before.files.makeDirectories classes = (made, true)) :
    host.compile sources classes before =
      host.ask ⟨sources, classes⟩ ⟨made, before.requests⟩ := by
  rw [compile, if_neg (mt List.isEmpty_iff.1 nonempty), present]

variable (request : CompileRequest) (workspace : Workspace)

/-- Whatever a host answers, it has been asked once more, and its report is judged. -/
theorem ask_eq : host.ask request workspace =
    ((host.invoke request workspace.files).1.bind fun report => report.verdict host.program,
      ⟨(host.invoke request workspace.files).2, workspace.requests ++ [request]⟩) := by
  rw [ask]
  rcases host.invoke request workspace.files with ⟨_ | _, _⟩
  · rfl
  · rfl

end AheadOfTime.Host
