import LayoutRebuild.Diagnostic.Sink
import Mathlib.Data.List.DropRight

/-!
# Draining a sink loses nothing

A sink is asked to record diagnostics, to hand them out, and for what it holds, in any order
(`SinkRun`).  Whatever has been emitted has been taken out or is held, in the order of emission, and the
errors are counted whether they are held or not; every request keeps this (`Accounts.serve`).  What is
held is then what has been emitted since the sink was drained last, and the queries about it agree with
each other (`drained_then_held`).
-/

namespace LayoutRebuild

/-! ## The order of severities -/

namespace Severity

theorem le_iff {a b : Severity} : a ≤ b ↔ a.rank ≤ b.rank := Iff.rfl

theorem rank_inj {a b : Severity} (h : a.rank = b.rank) : a = b := by
  cases a <;> cases b <;> simp_all [rank]

instance : Std.IsLinearOrder Severity where
  le_refl a := Nat.le_refl a.rank
  le_trans _ _ _ hab hbc := Nat.le_trans hab hbc
  le_antisymm _ _ hab hba := rank_inj (Nat.le_antisymm hab hba)
  le_total a b := Nat.le_total a.rank b.rank

instance : Std.LawfulOrderMax Severity where
  max_le_iff a b c := by
    have hmax : max a b = if a ≤ b then b else a := rfl
    rw [hmax]
    split
    next hle => exact ⟨fun h => ⟨Std.le_trans hle h, h⟩, And.right⟩
    next hlt => exact ⟨fun h => ⟨h, Std.le_trans (Std.le_of_not_ge hlt) h⟩, And.left⟩
  max_eq_or a b := by
    have hmax : max a b = if a ≤ b then b else a := rfl
    rw [hmax]
    split
    · exact .inr rfl
    · exact .inl rfl

end Severity

/-! ## Queries about what is held -/

namespace DiagnosticSink

variable {sink : DiagnosticSink}

theorem hasErrors_iff : sink.hasErrors = true ↔ 0 < sink.errorCount := decide_eq_true_iff

theorem countAtLeast_pos_iff {severity : Severity} :
    0 < sink.countAtLeast severity ↔ ∃ d ∈ sink.held, severity ≤ d.severity := by
  rw [countAtLeast, List.countP_pos_iff]
  simp

/-- The greatest severity is the last one that something held is at least as serious as. -/
theorem worstSeverity?_eq_some_iff {severity : Severity} :
    sink.worstSeverity? = some severity ↔ 0 < sink.countAtLeast severity ∧
      ∀ other : Severity, severity.rank < other.rank → sink.countAtLeast other = 0 := by
  rw [worstSeverity?, List.max?_eq_some_iff, countAtLeast_pos_iff, List.forall_mem_map]
  constructor
  · rintro ⟨hmem, hmost⟩
    obtain ⟨d, hd, rfl⟩ := List.mem_map.mp hmem
    refine ⟨⟨d, hd, Std.le_refl _⟩, fun other hother => ?_⟩
    rw [← Nat.le_zero, ← Nat.not_lt, countAtLeast_pos_iff]
    rintro ⟨d', hd', hle⟩
    have hle' := hmost d' hd'
    rw [Severity.le_iff] at hle hle'
    omega
  · rintro ⟨⟨d, hd, hle⟩, hnone⟩
    have hmost : ∀ d' ∈ sink.held, d'.severity ≤ severity := by
      intro d' hd'
      rw [Severity.le_iff, ← Nat.not_lt]
      intro hgreater
      have hcount := countAtLeast_pos_iff.mpr ⟨d', hd', Std.le_refl d'.severity⟩
      rw [hnone d'.severity hgreater] at hcount
      exact Nat.lt_irrefl 0 hcount
    exact ⟨List.mem_map.mpr ⟨d, hd, Std.le_antisymm (hmost d hd) hle⟩, hmost⟩

theorem containsCode_iff {code : DiagnosticCode} :
    sink.containsCode code = true ↔ sink.withCode code ≠ [] := by
  rw [containsCode, withCode, List.any_eq_true, ne_eq, List.filter_eq_nil_iff]
  simp

end DiagnosticSink

/-! ## Requests -/

/-- What can be asked of a sink. -/
inductive SinkRequest where
  | emit (d : Diagnostic)
  | takeAll
  | diagnostics
  | hasErrors
  | errorCount
  | countAtLeast (severity : Severity)
  | worstSeverity
  | containsCode (code : DiagnosticCode)
  | withCode (code : DiagnosticCode)

namespace SinkRequest

/-- The kind of answer that a request gets. -/
def Answer : SinkRequest → Type
  | emit _ => Unit
  | takeAll | diagnostics | withCode _ => List Diagnostic
  | hasErrors | containsCode _ => Bool
  | errorCount | countAtLeast _ => Nat
  | worstSeverity => Option Severity

/-- What a sink answers to a request, and the sink afterwards. -/
def serve (sink : DiagnosticSink) : (q : SinkRequest) → q.Answer × DiagnosticSink
  | emit d => ((), sink.emit d)
  | takeAll => sink.takeAll
  | diagnostics => (sink.held, sink)
  | hasErrors => (sink.hasErrors, sink)
  | errorCount => (sink.errorCount, sink)
  | countAtLeast severity => (sink.countAtLeast severity, sink)
  | worstSeverity => (sink.worstSeverity?, sink)
  | containsCode code => (sink.containsCode code, sink)
  | withCode code => (sink.withCode code, sink)

/-- The diagnostic that a request emits, if it is one to emit. -/
def emitted? : SinkRequest → Option Diagnostic
  | emit d => some d
  | _ => none

/-- Whether a request drains the sink. -/
def drains : SinkRequest → Bool
  | takeAll => true
  | _ => false

/-- What has been emitted by some requests, in order. -/
def emitted (requests : List SinkRequest) : List Diagnostic := requests.filterMap emitted?

/-- What has been emitted since the last request that drained the sink. -/
def undrained (requests : List SinkRequest) : List Diagnostic :=
  emitted (requests.rtakeWhile fun q => !q.drains)

theorem emitted_concat (requests : List SinkRequest) (q : SinkRequest) :
    emitted (requests ++ [q]) = emitted requests ++ q.emitted?.toList := by
  rw [emitted, List.filterMap_append, ← emitted]
  cases q <;> rfl

theorem undrained_concat (requests : List SinkRequest) (q : SinkRequest) :
    undrained (requests ++ [q]) =
      if q.drains then [] else undrained requests ++ q.emitted?.toList := by
  unfold undrained
  cases hq : q.drains with
  | true =>
    rw [List.rtakeWhile_concat_neg _ _ _ (by simp [hq])]
    rfl
  | false =>
    rw [List.rtakeWhile_concat_pos _ _ _ (by simp [hq]), emitted_concat]
    rfl

end SinkRequest

/-- The requests that have been made of a sink, with the answers, and the sink as it is now. -/
structure SinkRun where
  answers : List (Σ q : SinkRequest, q.Answer)
  sink : DiagnosticSink

namespace SinkRun

open SinkRequest

/-- One more request is made. -/
def serve (run : SinkRun) (q : SinkRequest) : SinkRun where
  answers := run.answers ++ [⟨q, (q.serve run.sink).1⟩]
  sink := (q.serve run.sink).2

/-- Some requests are made of a new sink, one after the other. -/
def ofRequests (requests : List SinkRequest) : SinkRun := requests.foldl serve ⟨[], .empty⟩

theorem ofRequests_concat (requests : List SinkRequest) (q : SinkRequest) :
    ofRequests (requests ++ [q]) = (ofRequests requests).serve q := by
  rw [ofRequests, List.foldl_concat, ← ofRequests]

/-- The diagnostics that an answer hands out for good. -/
def batch : (Σ q : SinkRequest, q.Answer) → List Diagnostic
  | ⟨.takeAll, taken⟩ => taken
  | _ => []

/-- All that has been taken out, one batch after the other. -/
def taken (run : SinkRun) : List Diagnostic := run.answers.flatMap batch

theorem taken_serve (run : SinkRun) (q : SinkRequest) :
    (run.serve q).taken = run.taken ++ batch ⟨q, (q.serve run.sink).1⟩ := by
  rw [taken, serve, List.flatMap_append, List.flatMap_singleton, taken]

/-! ## What every request keeps -/

/-- The sink accounts for what has been emitted: it has been taken out or is held, the errors among it
are counted, and held is what has come since the sink was drained last. -/
structure Accounts (requests : List SinkRequest) (run : SinkRun) : Prop where
  taken_append_held : run.taken ++ run.sink.held = emitted requests
  errorCount_eq : run.sink.errorCount = (emitted requests).countP (·.severity = .error)
  held_eq : run.sink.held = undrained requests

variable {requests : List SinkRequest} {run : SinkRun}

/-- A request that neither emits nor drains leaves everything as it was. -/
theorem Accounts.query (h : Accounts requests run) {q : SinkRequest} (hemits : q.emitted? = none)
    (hdrains : q.drains = false) (hbatch : batch ⟨q, (q.serve run.sink).1⟩ = [])
    (hsink : (q.serve run.sink).2 = run.sink) : Accounts (requests ++ [q]) (run.serve q) := by
  have hsame : (run.serve q).sink = run.sink := hsink
  have hemitted : emitted (requests ++ [q]) = emitted requests := by
    rw [emitted_concat, hemits, Option.toList_none, List.append_nil]
  refine ⟨?_, ?_, ?_⟩
  · rw [taken_serve, hbatch, List.append_nil, hsame, hemitted, h.taken_append_held]
  · rw [hsame, hemitted, h.errorCount_eq]
  · rw [hsame, h.held_eq, undrained_concat, hdrains, hemits]
    exact (List.append_nil _).symm

theorem Accounts.emit (h : Accounts requests run) (d : Diagnostic) :
    Accounts (requests ++ [.emit d]) (run.serve (.emit d)) := by
  have hsink : (run.serve (.emit d)).sink = run.sink.emitAll [d] := rfl
  have hemitted : emitted (requests ++ [.emit d]) = emitted requests ++ [d] := emitted_concat ..
  refine ⟨?_, ?_, ?_⟩
  · have hbatch : (run.serve (.emit d)).taken = run.taken :=
      (taken_serve ..).trans (List.append_nil _)
    rw [hbatch, hsink, DiagnosticSink.held_emitAll, hemitted, ← h.taken_append_held,
      List.append_assoc]
  · rw [hsink, DiagnosticSink.errorCount_emitAll, hemitted, List.countP_append, h.errorCount_eq]
  · rw [hsink, DiagnosticSink.held_emitAll, h.held_eq, undrained_concat]
    rfl

/-- What is taken out is what was held, and nothing is held any more. -/
theorem Accounts.takeAll (h : Accounts requests run) :
    Accounts (requests ++ [.takeAll]) (run.serve .takeAll) := by
  have hemitted : emitted (requests ++ [.takeAll]) = emitted requests :=
    (emitted_concat ..).trans (List.append_nil _)
  refine ⟨?_, ?_, ?_⟩
  · rw [taken_serve, hemitted, ← h.taken_append_held]
    exact List.append_nil _
  · rw [hemitted, ← h.errorCount_eq]
    rfl
  · rw [undrained_concat]
    rfl

theorem Accounts.serve (h : Accounts requests run) (q : SinkRequest) :
    Accounts (requests ++ [q]) (run.serve q) := by
  cases q with
  | emit d => exact h.emit d
  | takeAll => exact h.takeAll
  | diagnostics | hasErrors | errorCount | countAtLeast | worstSeverity | containsCode | withCode =>
    exact h.query rfl rfl rfl rfl

theorem accounts_ofRequests (requests : List SinkRequest) :
    Accounts requests (ofRequests requests) := by
  induction requests using List.reverseRecOn with
  | nil => exact ⟨rfl, rfl, rfl⟩
  | append_singleton requests q ih =>
    rw [ofRequests_concat]
    exact ih.serve q

/-- Whatever is asked of a new sink, and in whatever order: what has been taken out, followed by what is
held, is what has been emitted.  The errors are counted over the whole run.  All other queries are about
what has been emitted since the sink was drained last, and they agree with each other. -/
theorem drained_then_held (requests : List SinkRequest) :
    let run := ofRequests requests
    run.taken ++ run.sink.held = emitted requests ∧
    run.sink.held = undrained requests ∧
    run.sink.errorCount = (emitted requests).countP (·.severity = .error) ∧
    (run.sink.hasErrors = true ↔ 0 < run.sink.errorCount) ∧
    (∀ severity, run.sink.countAtLeast severity =
      (undrained requests).countP (severity ≤ ·.severity)) ∧
    (∀ severity, run.sink.worstSeverity? = some severity ↔
      0 < run.sink.countAtLeast severity ∧
      ∀ other : Severity, severity.rank < other.rank → run.sink.countAtLeast other = 0) ∧
    (∀ code, run.sink.withCode code = (undrained requests).filter (·.code = code)) ∧
    ∀ code, run.sink.containsCode code = true ↔ run.sink.withCode code ≠ [] := by
  intro run
  have haccounts : Accounts requests run := accounts_ofRequests requests
  have hheld := haccounts.held_eq
  refine ⟨haccounts.taken_append_held, hheld, haccounts.errorCount_eq, DiagnosticSink.hasErrors_iff,
    fun severity => ?_, fun severity => DiagnosticSink.worstSeverity?_eq_some_iff, fun code => ?_,
    fun code => DiagnosticSink.containsCode_iff⟩
  · rw [DiagnosticSink.countAtLeast, hheld]
  · rw [DiagnosticSink.withCode, hheld]

end SinkRun

end LayoutRebuild
