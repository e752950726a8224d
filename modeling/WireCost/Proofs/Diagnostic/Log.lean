import Mathlib.Data.List.DropRight
import WireCost.Diagnostic.Log

/-! # Calls on the log of a run

Nothing that is emitted is lost, told twice or told out of order, however emissions, drains and
looks at the log follow each other.

* **`Log.Call`**, **`Log.runCalls`** — the calls, and what a sequence of them answers and leaves.
* **`Log.Records`** — a log that holds what was emitted since the last drain and has counted the
  errors of all calls; **`Log.Records.run`** — one more call keeps it so.
* **`Log.Call.answerAfter`** — what a call answers, from the calls before it alone.
* **`Log.calls_lose_nothing`** — all of it for any sequence of calls. -/

namespace WireCost.Log

/-! ## Calls -/

/-- **A call:** one that records a diagnostic, one that drains the log, or a look at it. -/
inductive Call where
  | emit (d : Diagnostic)
  | drain
  | list
  | count (code : Code)
  | countErrors
  | hasErrors
deriving DecidableEq, Repr

/-- What a call answers. -/
inductive Answer where
  | done
  | diagnostics (ds : List Diagnostic)
  | number (n : Nat)
  | truth (b : Bool)
deriving DecidableEq, Repr

namespace Call

/-- The answer of a call, and the log after it. -/
def run (l : Log) : Call → Answer × Log
  | .emit d => (.done, l.emit d)
  | .drain => (.diagnostics l.drain.1, l.drain.2)
  | .list => (.diagnostics l.held, l)
  | .count code => (.number (l.count code), l)
  | .countErrors => (.number l.errors, l)
  | .hasErrors => (.truth l.hasErrors, l)

/-- Whether a call only looks at the log. -/
def looks : Call → Bool
  | .emit _ | .drain => false
  | .list | .count _ | .countErrors | .hasErrors => true

/-- The diagnostic that a call records. -/
def emitted? : Call → Option Diagnostic
  | .emit d => some d
  | _ => none

/-- The batch that a call has drained. -/
def batch : Call → Answer → List Diagnostic
  | .drain, .diagnostics ds => ds
  | _, _ => []

/-- A look changes nothing. -/
theorem run_of_looks {c : Call} (h : c.looks = true) (l : Log) : (c.run l).2 = l := by
  cases c with
  | emit d => cases h
  | drain => cases h
  | list | count code | countErrors | hasErrors => rfl

end Call

/-- The answers of some calls, and the log after them. -/
def runCalls (l : Log) : List Call → List Answer × Log
  | [] => ([], l)
  | c :: calls =>
    let rest := (c.run l).2.runCalls calls
    ((c.run l).1 :: rest.1, rest.2)

/-! ## What calls have done -/

/-- The diagnostics that calls record, in order. -/
def emitted (calls : List Call) : List Diagnostic := calls.filterMap Call.emitted?

/-- The batches that calls have drained, in order and joined. -/
def drained (calls : List Call) (answers : List Answer) : List Diagnostic :=
  (List.zipWith Call.batch calls answers).flatten

/-- The calls behind the last drain. -/
def sinceDrain (calls : List Call) : List Call := calls.rtakeWhile (· ≠ .drain)

/-- **What a call answers after others,** told from these alone: a list holds what was recorded
since the last drain, and errors are counted whether they have been drained or not. -/
def Call.answerAfter (before : List Call) : Call → Answer
  | .emit _ => .done
  | .drain | .list => .diagnostics (emitted (sinceDrain before))
  | .count code => .number ((emitted (sinceDrain before)).filter (·.code = code)).length
  | .countErrors => .number ((emitted before).filter (·.severity = .error)).length
  | .hasErrors => .truth (decide (∃ d ∈ emitted before, d.severity = .error))

variable {l : Log} {calls : List Call} {c : Call}

theorem emitted_append (calls calls' : List Call) :
    emitted (calls ++ calls') = emitted calls ++ emitted calls' :=
  List.filterMap_append

/-- A call that is no emission records nothing. -/
theorem emitted_concat (calls : List Call) (h : c.emitted? = none) :
    emitted (calls ++ [c]) = emitted calls := by
  rw [emitted_append, emitted, emitted, List.filterMap_cons_none h, List.filterMap_nil,
    List.append_nil]

/-- Nothing stands behind a drain. -/
theorem sinceDrain_drain (calls : List Call) : sinceDrain (calls ++ [.drain]) = [] :=
  List.rtakeWhile_concat_neg _ _ _ (by simp)

/-- Any other call joins those behind the last drain. -/
theorem sinceDrain_concat (calls : List Call) (h : c ≠ .drain) :
    sinceDrain (calls ++ [c]) = sinceDrain calls ++ [c] :=
  List.rtakeWhile_concat_pos _ _ _ (by simpa using h)

/-! ## One call after another -/

/-- **What a log has to be after some calls.** -/
structure Records (calls : List Call) (l : Log) : Prop where
  held : l.held = emitted (sinceDrain calls)
  errors : l.errors = ((emitted calls).filter (·.severity = .error)).length

namespace Records

theorem start : Records [] empty := ⟨rfl, rfl⟩

theorem hasErrors_iff (h : Records calls l) :
    l.hasErrors = true ↔ ∃ d ∈ emitted calls, d.severity = .error := by
  rw [Log.hasErrors, decide_eq_true_iff, gt_iff_lt, h.errors, List.length_pos_iff_exists_mem]
  simp only [List.mem_filter, decide_eq_true_eq]

theorem count_eq (h : Records calls l) (code : Code) :
    l.count code = ((emitted (sinceDrain calls)).filter (·.code = code)).length := by
  rw [Log.count, h.held, List.countP_eq_length_filter]

/-- **The answer of one more call** is the one that the calls before it tell. -/
theorem answer_eq (h : Records calls l) (c : Call) : (c.run l).1 = c.answerAfter calls := by
  cases c with
  | emit d => rfl
  | drain | list => exact congrArg Answer.diagnostics h.held
  | count code => exact congrArg Answer.number (h.count_eq code)
  | countErrors => exact congrArg Answer.number h.errors
  | hasErrors =>
    rw [Call.run, Call.answerAfter, ← Bool.decide_coe l.hasErrors]
    exact congrArg Answer.truth (decide_eq_decide.2 h.hasErrors_iff)

/-- **One more call** on a log. -/
theorem run (h : Records calls l) (c : Call) : Records (calls ++ [c]) (c.run l).2 := by
  cases c with
  | emit d =>
    constructor
    · rw [sinceDrain_concat _ (by simp), emitted_append, ← h.held]
      rfl
    · rw [emitted_append, List.filter_append, List.length_append, ← h.errors]
      cases hd : d.severity <;> simp [Call.run, emit, hd, emitted, Call.emitted?, Severity.isError]
  | drain =>
    constructor
    · rw [sinceDrain_drain]
      rfl
    · rw [emitted_concat _ rfl]
      exact h.errors
  | list | count code | countErrors | hasErrors =>
    constructor
    · rw [sinceDrain_concat _ (by simp), emitted_concat _ rfl]
      exact h.held
    · rw [emitted_concat _ rfl]
      exact h.errors

/-- **Any number of further calls:** the log after them, and what each of them answers. -/
theorem runCalls {before : List Call} (h : Records before l) (calls : List Call) :
    Records (before ++ calls) (l.runCalls calls).2 ∧
      (l.runCalls calls).1 = calls.mapIdx fun i c => c.answerAfter (before ++ calls.take i) := by
  -- the calls made so far move to the front of the induction
  induction calls generalizing before l with
  | nil => exact ⟨by rwa [List.append_nil], rfl⟩
  | cons c calls ih =>
    obtain ⟨hlog, hanswers⟩ := ih (h.run c)
    rw [List.append_assoc] at hlog
    refine ⟨hlog, ?_⟩
    rw [Log.runCalls, List.mapIdx_cons, List.take_zero, List.append_nil, ← h.answer_eq, hanswers]
    simp only [List.append_assoc, List.cons_append, List.nil_append, List.take_succ_cons]

end Records

/-! ## Runs -/

/-- **What has been drained, followed by what is held,** is what was held at first and what was
recorded since. -/
theorem drained_append_held (l : Log) (calls : List Call) :
    drained calls (l.runCalls calls).1 ++ (l.runCalls calls).2.held = l.held ++ emitted calls := by
  induction calls generalizing l with
  | nil => simp [drained, runCalls, emitted]
  | cons c calls ih =>
    have hstep : c.batch (c.run l).1 ++ (c.run l).2.held = l.held ++ emitted [c] := by
      cases c with
      | emit d => rfl
      | drain | list | count code | countErrors | hasErrors =>
        simp [Call.batch, Call.run, drain, emitted, Call.emitted?]
    rw [← List.singleton_append, emitted_append, ← List.append_assoc, ← hstep, List.append_assoc,
      ← ih (c.run l).2, ← List.append_assoc]
    rfl

/-- **Looks can be left out:** the log after calls is that after those that record and drain. -/
theorem runCalls_filter_looks (l : Log) (calls : List Call) :
    (l.runCalls (calls.filter (!·.looks))).2 = (l.runCalls calls).2 := by
  induction calls generalizing l with
  | nil => rfl
  | cons c calls ih =>
    rw [runCalls, List.filter_cons]
    by_cases hlooks : c.looks = true
    · rw [if_neg (by simp [hlooks]), c.run_of_looks hlooks, ih]
    · rw [if_pos (by simp [hlooks]), runCalls, ih]

/-- **The log loses, repeats and reorders nothing.** After any sequence of calls, what has been
drained, followed by what is held, is what was recorded. What is held was recorded since the last
drain, while errors stay counted however often the log was drained, and there are errors exactly
when their number is positive. The diagnostics counted for a code are those held that carry it. Each
call has answered as the calls before it tell, and all looks together have changed nothing. -/
theorem calls_lose_nothing (calls : List Call) :
    let answers := (empty.runCalls calls).1
    let l := (empty.runCalls calls).2
    drained calls answers ++ l.held = emitted calls ∧
    l.held = emitted (sinceDrain calls) ∧
    l.errors = ((emitted calls).filter (·.severity = .error)).length ∧
    (l.hasErrors = true ↔ 0 < l.errors) ∧
    (∀ code, l.count code = (l.held.filter (·.code = code)).length) ∧
    answers = calls.mapIdx (fun i c => c.answerAfter (calls.take i)) ∧
    (empty.runCalls (calls.filter (!·.looks))).2 = l := by
  intro answers l
  obtain ⟨hlog, hanswers⟩ := Records.start.runCalls calls
  rw [List.nil_append] at hlog
  refine ⟨drained_append_held empty calls, hlog.held, hlog.errors, decide_eq_true_iff, ?_, hanswers,
    runCalls_filter_looks empty calls⟩
  intro code
  rw [hlog.count_eq, hlog.held]

end WireCost.Log
