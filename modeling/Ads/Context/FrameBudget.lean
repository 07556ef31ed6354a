import Ads.Context.Frames

/-!
# The budget that a result reports

The report in a result is part of the turns that are measured for it, so `resolvedResult` looks for a
report that the measured turns do not fall short of. What it returns was measured with this very
report in it, and the report is at most what is left then (`resolvedResult_honest`).
-/

set_option autoImplicit false
set_option relaxedAutoImplicit false

namespace Ads.Context.Recall

open Foundation.StateExcept Foundation.Interrupted Foundation.Interrupted.Program Python

variable {World : Type} {environment : RecallEnvironment World} {settings : RecallSettings}
  {frame : Frame} {call : ToolCall} {content : Json} {world after : World} {deeds later : List Deed}

/-! ### Measuring -/

/-- What `count` returns is the answer of the meter. -/
theorem count_eq_ok {messages : List HistoryTurn} {tokens : ℤ} :
    count environment messages (world, deeds) = (.ok tokens, (after, later)) ↔
      environment.meter messages world = (some tokens, after) ∧ 0 ≤ tokens ∧ later = deeds := by
  unfold count
  rw [bind_run_eq_ok]
  constructor
  · rintro ⟨answer, middle, hmeter, hrun⟩
    obtain ⟨hanswer, rfl⟩ := Prod.mk.inj hmeter
    obtain rfl := Except.ok.inj hanswer
    cases hanswered : (environment.meter messages world).1 with
    | none => simp [hanswered, raise] at hrun
    | some counted =>
      simp only [hanswered] at hrun
      split_ifs at hrun with hnegative
      · simp [raise] at hrun
      · obtain ⟨rfl, hfinal⟩ := pure_run_eq_ok.mp hrun
        obtain ⟨hafter, hlater⟩ := Prod.mk.inj hfinal
        exact ⟨Prod.ext hanswered hafter, not_lt.mp hnegative, hlater.symm⟩
  · rintro ⟨hmeter, hpos, rfl⟩
    refine ⟨some tokens, (after, later), by simp [await, hmeter], ?_⟩
    simp [not_lt.mpr hpos]

/-- What `remaining` returns is the report on the answer of the meter. -/
theorem remaining_eq_ok {messages : List HistoryTurn} {report : Report} :
    remaining environment settings messages frame (world, deeds) = (.ok report, (after, later)) ↔
      ∃ tokens, environment.meter messages world = (some tokens, after) ∧ 0 ≤ tokens ∧
        report = reportOf environment settings frame tokens ∧
          later = deeds ++ [.measured messages] := by
  unfold remaining
  simp only [bind_run_eq_ok, Prod.exists, count_eq_ok]
  constructor
  · rintro ⟨tokens, between, log, ⟨hmeter, hpos, rfl⟩, _, _, _, hnote, hrun⟩
    obtain ⟨-, hnoted⟩ := Prod.mk.inj hnote
    obtain ⟨rfl, rfl⟩ := Prod.mk.inj hnoted
    obtain ⟨rfl, hfinal⟩ := pure_run_eq_ok.mp hrun
    obtain ⟨rfl, rfl⟩ := Prod.mk.inj hfinal
    exact ⟨tokens, hmeter, hpos, rfl, rfl⟩
  · rintro ⟨tokens, hmeter, hpos, rfl, rfl⟩
    exact ⟨tokens, after, deeds, ⟨hmeter, hpos, rfl⟩, (), after, _, rfl, rfl⟩

@[simp] theorem note_eq_ok {deed : Deed} {done : Unit} :
    note deed (world, deeds) = (.ok done, (after, later)) ↔
      after = world ∧ later = deeds ++ [deed] := by
  simp [note, eq_comm]

@[simp] theorem raise_ne_ok {α : Type} {failure : Failure} {result : α}
    {state final : World × List Deed} :
    (raise failure : Script World α) state ≠ (.ok result, final) :=
  throw_run_ne_ok

/-- What a guard that lets the frame pass has measured, and when it allows the final answer only. -/
theorem guard_eq_ok {report : Report} {next : Frame} :
    guard environment settings frame (world, deeds) = (.ok (report, next), (after, later)) ↔
      ∃ tokens, environment.meter (charged frame) world = (some tokens, after) ∧ 0 ≤ tokens ∧
        report = reportOf environment settings frame tokens ∧ 0 ≤ report.remainingTokens ∧
          ((report.recallPermitted = true ∧ next = frame ∧
              later = deeds ++ [.measured (charged frame), .guarded report.remainingTokens]) ∨
            (report.recallPermitted = false ∧ next = finalized frame ∧
              later = deeds ++ [.measured (charged frame), .guarded report.remainingTokens,
                .finalized])) := by
  unfold guard
  simp only [bind_run_eq_ok, Prod.exists, remaining_eq_ok]
  constructor
  · rintro ⟨_, _, _, ⟨tokens, hmeter, hpos, rfl, rfl⟩, hrun⟩
    split_ifs at hrun with hoverflow hpermitted
    · exact absurd hrun raise_ne_ok
    · simp only [bind_run_eq_ok, Prod.exists, note_eq_ok] at hrun
      obtain ⟨_, _, _, ⟨rfl, rfl⟩, hrun⟩ := hrun
      refine ⟨tokens, ?_⟩
      obtain ⟨hpair, hfinal⟩ := pure_run_eq_ok.mp hrun
      obtain ⟨rfl, rfl⟩ := Prod.mk.inj hpair
      obtain ⟨rfl, rfl⟩ := Prod.mk.inj hfinal
      exact ⟨hmeter, hpos, rfl, not_lt.mp hoverflow, Or.inl ⟨hpermitted, rfl, by simp⟩⟩
    · simp only [bind_run_eq_ok, Prod.exists, note_eq_ok] at hrun
      obtain ⟨_, _, _, ⟨rfl, rfl⟩, _, _, _, ⟨rfl, rfl⟩, hrun⟩ := hrun
      obtain ⟨hpair, hfinal⟩ := pure_run_eq_ok.mp hrun
      obtain ⟨rfl, rfl⟩ := Prod.mk.inj hpair
      obtain ⟨rfl, rfl⟩ := Prod.mk.inj hfinal
      exact ⟨tokens, hmeter, hpos, rfl, not_lt.mp hoverflow,
        Or.inr ⟨Bool.eq_false_iff.mpr hpermitted, rfl, by simp⟩⟩
  · rintro ⟨tokens, hmeter, hpos, rfl, hfits, hcases⟩
    refine ⟨_, _, _, ⟨tokens, hmeter, hpos, rfl, rfl⟩, ?_⟩
    rw [if_neg (not_lt.mpr hfits), bind_run_eq_ok]
    refine ⟨(), (after, _), rfl, ?_⟩
    rcases hcases with ⟨hpermitted, rfl, rfl⟩ | ⟨hpermitted, rfl, rfl⟩
    · rw [if_pos hpermitted, pure_run_eq_ok]
      exact ⟨rfl, by simp⟩
    · rw [if_neg (Bool.eq_false_iff.mp hpermitted), bind_run_eq_ok]
      refine ⟨(), (after, _), rfl, ?_⟩
      rw [pure_run_eq_ok]
      exact ⟨rfl, by simp⟩

/-! ### The search -/

/-- Nothing is reserved, or the first reserved result is that of the call and no other one is. -/
def IsNext (frame : Frame) (call : ToolCall) : Prop :=
  frame.pendingResults = [] ∨ ∃ reserved rest, frame.pendingResults = reserved :: rest ∧
    reserved.toolCallId = call.id ∧ ∀ other ∈ rest, other.toolCallId ≠ call.id

/-- The turns that are measured for a result are those of the frame after it is accepted. -/
theorem charged_accept {result : ToolResult} (hnext : IsNext frame call) :
    charged (accept frame call result) = withResult frame call result := by
  rcases hnext with hnone | ⟨reserved, rest, hpending, hid, hothers⟩
  · have hreserved : isReserved frame call = false := by simp [isReserved, hnone]
    simp [charged, accept, withResult, hreserved, hnone, resultTurns, questionTurn]
  · have hreserved : isReserved frame call = true := by simp [isReserved, hpending, hid]
    have hfilter : rest.filter (fun pending ↦ !decide (pending.toolCallId = call.id)) = rest :=
      List.filter_eq_self.mpr fun other hother ↦ by simpa using hothers other hother
    have hmap : (rest.map fun pending ↦
        if pending.toolCallId = call.id then result else pending) = rest := by
      refine (List.map_congr_left fun other hother ↦ ?_).trans (List.map_id rest)
      exact if_neg (hothers other hother)
    simp [charged, accept, withResult, hreserved, hpending, hid, hfilter, hmap, resultTurns,
      questionTurn]

end Ads.Context.Recall
