import LayoutRebuild.Diagnostic.Basic

/-!
# Collecting diagnostics

A sink holds what has been emitted and not yet been taken out.  Queries are about the diagnostics
that it holds, with one exception: the count of errors is about the whole run, so that draining the
sink for the log does not make a failed run look clean.
-/

namespace LayoutRebuild

/-- The diagnostics that are held, and the errors emitted in the whole run. -/
structure DiagnosticSink where
  held : List Diagnostic
  errorCount : Nat
deriving DecidableEq, Inhabited

namespace DiagnosticSink

/-- Nothing emitted. -/
def empty : DiagnosticSink := ⟨[], 0⟩

/-- Adds one diagnostic at the end. -/
def emit (sink : DiagnosticSink) (d : Diagnostic) : DiagnosticSink where
  held := sink.held ++ [d]
  errorCount := if d.severity = .error then sink.errorCount + 1 else sink.errorCount

/-- Adds several diagnostics in order. -/
def emitAll (sink : DiagnosticSink) (ds : List Diagnostic) : DiagnosticSink := ds.foldl emit sink

@[simp]
theorem held_emitAll (sink : DiagnosticSink) (ds : List Diagnostic) :
    (sink.emitAll ds).held = sink.held ++ ds := by
  induction ds generalizing sink with
  | nil => exact (List.append_nil _).symm
  | cons d rest ih => exact (ih (sink.emit d)).trans (List.append_assoc ..)

@[simp]
theorem errorCount_emitAll (sink : DiagnosticSink) (ds : List Diagnostic) :
    (sink.emitAll ds).errorCount = sink.errorCount + ds.countP (·.severity = .error) := by
  induction ds generalizing sink with
  | nil => rfl
  | cons d rest ih =>
    refine (ih (sink.emit d)).trans ?_
    by_cases h : d.severity = .error
    · simp [emit, h]
      omega
    · simp [emit, h]

/-- Takes out everything that is held. -/
def takeAll (sink : DiagnosticSink) : List Diagnostic × DiagnosticSink :=
  (sink.held, { sink with held := [] })

/-- Whether any error has been emitted. -/
def hasErrors (sink : DiagnosticSink) : Bool := 0 < sink.errorCount

/-- The number of diagnostics that are at least so serious. -/
def countAtLeast (sink : DiagnosticSink) (severity : Severity) : Nat :=
  sink.held.countP fun d => severity ≤ d.severity

/-- The greatest severity. -/
def worstSeverity? (sink : DiagnosticSink) : Option Severity :=
  (sink.held.map (·.severity)).max?

/-- Whether there is a diagnostic with the code. -/
def containsCode (sink : DiagnosticSink) (code : DiagnosticCode) : Bool :=
  sink.held.any (·.code = code)

/-- The diagnostics with the code. -/
def withCode (sink : DiagnosticSink) (code : DiagnosticCode) : List Diagnostic :=
  sink.held.filter (·.code = code)

end DiagnosticSink

end LayoutRebuild
