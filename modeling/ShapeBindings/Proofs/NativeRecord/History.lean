import Mathlib.Data.List.DropRight
import Mathlib.Data.List.Induction
import Mathlib.Data.List.Nodup
import ShapeBindings.Proofs.NativeRecord.Wrappers
import ShapeBindings.Proofs.Text.Utf8

/-!
# The history of a record

Calls are made and the record is taken, in any order (`RecordEvent`).  `Record.after` is the record after a history,
`Record.answers` what its events are answered.  Both can be told from the history alone.

* `recorded`: what is on record of some calls, which are those that are not refused;
* `step_recorded`: what one event does when the calls since the last taking are on record;
* `after_eq_recorded`, `getElem?_answers`: the record and the answers of a whole history;
* `answers_eraseIdx`: a call that fails can be left out;
* `record_of_history`: all of these, with what each call hands over.
-/

namespace ShapeBindings

open Record

/-- What can happen to a record. -/
inductive RecordEvent where
  /-- A wrapper is called. -/
  | call (c : WrapperCall)
  /-- The calls are taken off the record. -/
  | take
  deriving DecidableEq

/-- What an event is answered. -/
inductive RecordAnswer where
  /-- The call returns a handle. -/
  | returned (h : Handle)
  /-- The call fails. -/
  | failed (e : CallFailure)
  /-- The calls that were on record. -/
  | taken (calls : List NativeCall)
  deriving DecidableEq

namespace Record

/-- The answer to an event, and the record after it. -/
def step (r : Record) : RecordEvent → RecordAnswer × Record
  | .call c =>
    match r.run c with
    | (.ok h, r') => (.returned h, r')
    | (.error e, r') => (.failed e, r')
  | .take => (.taken r.take.1, r.take.2)

/-- The record after a history. -/
def after (r : Record) (history : List RecordEvent) : Record := history.foldl (fun r e => (r.step e).2) r

/-- The answers to the events of a history. -/
def answers (r : Record) : List RecordEvent → List RecordAnswer
  | [] => []
  | e :: history => (r.step e).1 :: answers (r.step e).2 history

@[simp] theorem after_nil (r : Record) : r.after [] = r := rfl

@[simp] theorem after_cons (r : Record) (e : RecordEvent) (history : List RecordEvent) :
    r.after (e :: history) = (r.step e).2.after history := rfl

theorem after_append (r : Record) (before later : List RecordEvent) :
    r.after (before ++ later) = (r.after before).after later :=
  List.foldl_append

theorem answers_append (r : Record) (before later : List RecordEvent) :
    r.answers (before ++ later) = r.answers before ++ (r.after before).answers later := by
  induction before generalizing r with
  | nil => rfl
  | cons e before ih => rw [List.cons_append, answers, ih, answers, List.cons_append, after_cons]

@[simp] theorem length_answers (r : Record) (history : List RecordEvent) :
    (r.answers history).length = history.length := by
  induction history generalizing r with
  | nil => rfl
  | cons e history ih => rw [answers, List.length_cons, ih, List.length_cons]

theorem getElem?_answers (r : Record) (history : List RecordEvent) (i : Nat) :
    (r.answers history)[i]? = history[i]?.map fun e => ((r.after (history.take i)).step e).1 := by
  induction history generalizing r i with
  | nil => rfl
  | cons e history ih =>
    cases i with
    | zero => rfl
    | succ i =>
      rw [answers, List.getElem?_cons_succ, ih, List.getElem?_cons_succ, List.take_succ_cons, after_cons]

end Record

/-! ### What is told from a history -/

/-- The call of an event. -/
def RecordEvent.call? : RecordEvent → Option WrapperCall
  | call c => some c
  | take => none

/-- The calls since the record was last taken, those that fail among them. -/
def sinceTake (history : List RecordEvent) : List WrapperCall :=
  (history.rtakeWhile (·.call?.isSome)).filterMap (·.call?)

@[simp] theorem sinceTake_call (history : List RecordEvent) (c : WrapperCall) :
    sinceTake (history ++ [RecordEvent.call c]) = sinceTake history ++ [c] := by
  rw [sinceTake, List.rtakeWhile_concat_pos _ _ _ rfl, List.filterMap_append]
  rfl

@[simp] theorem sinceTake_take (history : List RecordEvent) : sinceTake (history ++ [RecordEvent.take]) = [] := by
  rw [sinceTake, List.rtakeWhile_concat_neg _ _ _ (by simp [RecordEvent.call?])]
  rfl

/-- The handle of the call at a place. -/
def resultAt (j : Nat) : Handle := firstResult + UInt64.ofNat j

/-- What is on record of some calls: those that are not refused, in order, with their values and handles. -/
def recorded (calls : List WrapperCall) : Record :=
  (calls.filter (·.refusal?.isNone)).mapIdx fun j c => ⟨c.symbol, c.values.map CallerValue.recorded, resultAt j⟩

theorem recorded_concat_of_none {c : WrapperCall} (hc : c.refusal? = none) (calls : List WrapperCall) :
    recorded (calls ++ [c]) =
      recorded calls ++ [⟨c.symbol, c.values.map CallerValue.recorded, resultAt (recorded calls).length⟩] := by
  have hfilter : (calls ++ [c]).filter (·.refusal?.isNone) = calls.filter (·.refusal?.isNone) ++ [c] := by
    simp [hc]
  rw [recorded, hfilter, List.mapIdx_concat, recorded, List.length_mapIdx]

theorem recorded_concat_of_some {c : WrapperCall} {e : CallFailure} (hc : c.refusal? = some e)
    (calls : List WrapperCall) : recorded (calls ++ [c]) = recorded calls := by
  simp [recorded, hc]

/-- The answer to an event after some calls. -/
def RecordEvent.answer (calls : List WrapperCall) : RecordEvent → RecordAnswer
  | call c =>
    match c.refusal? with
    | none => .returned (resultAt (recorded calls).length)
    | some e => .failed e
  | take => .taken (recorded calls)

/-! ### Histories -/

/-- One event, when the calls since the record was last taken are on record. -/
theorem step_recorded (history : List RecordEvent) (e : RecordEvent) :
    (recorded (sinceTake history)).step e =
      (e.answer (sinceTake history), recorded (sinceTake (history ++ [e]))) := by
  cases e with
  | take =>
    rw [sinceTake_take]
    rfl
  | call c =>
    rw [sinceTake_call, step, run, c.handsOver.nativeArgs, RecordEvent.answer]
    cases hc : c.refusal? with
    | none =>
      rw [recorded_concat_of_none hc]
      rfl
    | some e => rw [recorded_concat_of_some hc]

theorem after_eq_recorded (history : List RecordEvent) : after [] history = recorded (sinceTake history) := by
  induction history using List.reverseRecOn with
  | nil => rfl
  | append_singleton history e ih => rw [after_append, ih, after_cons, after_nil, step_recorded]

/-! ### Handles -/

theorem toNat_resultAt {j : Nat} (hj : 1000 + j < 2 ^ 64) : (resultAt j).toNat = 1000 + j := by
  have hadd : (resultAt j).toNat = (1000 + j % 2 ^ 64) % 2 ^ 64 := by
    rw [resultAt, UInt64.toNat_add, UInt64.toNat_ofNat']
    rfl
  rw [hadd]
  omega

theorem resultAt_inj {i j : Nat} (hi : i < 2 ^ 64) (hj : j < 2 ^ 64) (h : resultAt i = resultAt j) : i = j := by
  have hofNat : UInt64.ofNat i = UInt64.ofNat j := by simpa [resultAt] using h
  have htoNat := congrArg UInt64.toNat hofNat
  rw [UInt64.toNat_ofNat', UInt64.toNat_ofNat'] at htoNat
  omega

theorem map_result_recorded (calls : List WrapperCall) :
    (recorded calls).map (·.result) = (List.range (recorded calls).length).map resultAt := by
  refine List.ext_getElem (by simp) fun i h _ => ?_
  simp [recorded]

theorem nodup_results {calls : List WrapperCall} (h : (recorded calls).length ≤ 2 ^ 64) :
    ((recorded calls).map (·.result)).Nodup := by
  rw [map_result_recorded, List.nodup_map_iff_inj_on List.nodup_range]
  intro i hi j hj hij
  rw [List.mem_range] at hi hj
  exact resultAt_inj (by omega) (by omega) hij

/-! ### Calls that fail -/

section Failed

variable {c : WrapperCall} {e : CallFailure} (hc : c.refusal? = some e)

include hc

theorem step_failed (r : Record) : r.step (.call c) = (.failed e, r) := by
  rw [step, run, c.handsOver.nativeArgs, hc]

theorem after_failed (r : Record) (before later : List RecordEvent) :
    r.after (before ++ .call c :: later) = r.after (before ++ later) := by
  rw [after_append, after_append, after_cons, step_failed hc]

theorem answers_eraseIdx (r : Record) (before later : List RecordEvent) :
    (r.answers (before ++ .call c :: later)).eraseIdx before.length = r.answers (before ++ later) := by
  have hlen : (r.answers before).length ≤ before.length := (length_answers r before).le
  rw [answers_append, answers_append, answers, step_failed hc, List.eraseIdx_append_of_length_le hlen, length_answers,
    Nat.sub_self, List.eraseIdx_cons_zero]

end Failed

/-! ### All together -/

/-- The events of a history, each with the calls since the record was last taken. -/
theorem getElem?_answers_nil (history : List RecordEvent) (i : Nat) :
    (answers [] history)[i]? = history[i]?.map (RecordEvent.answer (sinceTake (history.take i))) := by
  rw [getElem?_answers, after_eq_recorded]
  have hstep : (fun e => ((recorded (sinceTake (history.take i))).step e).1) =
      RecordEvent.answer (sinceTake (history.take i)) := by
    funext e
    rw [step_recorded]
  rw [hstep]

/-- **A record holds what was called since it was last taken.**  The calls are those of the wrappers of the bundled
header, and hand over what their callers give, a text as the characters that its octets are read as.  Whatever is called
and taken, starting from an empty record, every taking gives the calls since the one before that did not fail, in order,
and each of them returns the handle under which it is on record: the first 1000, and each later one the next.  No two of
them have the same handle, as long as there are no more of them than handles.  A call that fails can be left out of the
history: nothing else changes. -/
theorem record_of_history :
    Header.parse Header.standardSymbolPrefix Stdlib.header = .ok Stdlib.table ∧
      (∀ c : WrapperCall, c.HandsOver) ∧
      (∀ s : String, Text.decodeLossy (Text.encode s) = s.toList) ∧
      (∀ (history : List RecordEvent) (i : Nat),
        (answers [] history)[i]? = history[i]?.map (RecordEvent.answer (sinceTake (history.take i)))) ∧
      (∀ j : Nat, 1000 + j < 2 ^ 64 → (resultAt j).toNat = 1000 + j) ∧
      (∀ calls : List WrapperCall, (recorded calls).length ≤ 2 ^ 64 → ((recorded calls).map (·.result)).Nodup) ∧
      ∀ (before later : List RecordEvent) (c : WrapperCall) (e : CallFailure), c.refusal? = some e →
        after [] (before ++ .call c :: later) = after [] (before ++ later) ∧
          (answers [] (before ++ .call c :: later)).eraseIdx before.length = answers [] (before ++ later) := by
  refine ⟨Stdlib.parse_header, WrapperCall.handsOver, Text.decodeLossy_encode, getElem?_answers_nil,
    fun j hj => toNat_resultAt hj, fun calls h => nodup_results h, ?_⟩
  intro before later c e hc
  exact ⟨after_failed hc [] before later, answers_eraseIdx hc [] before later⟩

/-- A count that is too large, a text with a NUL and one that is not well formed, between two takings and after them. -/
def mixedHistory : List RecordEvent :=
  [.call (.circle 1 ⟨2, 3⟩), .call (.polygon 1 4294967295 ⟨2, 3⟩), .call (.text [104, 101, 0, 108] ⟨1, 2⟩),
   .call (.text [104, 255] ⟨1, 2⟩), .take, .call (.moveit 4 ⟨1, 2, 3⟩), .take]

theorem record_of_history_mixed :
    (answers [] mixedHistory)[1]? = some (RecordAnswer.failed (.countTooLarge "polygon" "n")) ∧
      (answers [] mixedHistory)[2]? = some (RecordAnswer.failed (.interiorNul 2)) ∧
      (answers [] mixedHistory)[4]? = some (RecordAnswer.taken
        [⟨"libfivestd_circle", [.tree 1, .vec2 ⟨2, 3⟩], 1000⟩,
         ⟨"libfivestd_text", [.str "h\uFFFD", .vec2 ⟨1, 2⟩], 1001⟩]) ∧
      (answers [] mixedHistory)[5]? = some (RecordAnswer.returned 1000) ∧
      (answers [] mixedHistory).eraseIdx 1 = answers [] (mixedHistory.eraseIdx 1) ∧
      (WrapperCall.moveit 4 ⟨1, 2, 3⟩).Generated := by
  obtain ⟨-, hcalls, -, hanswers, -, -, hfailed⟩ := record_of_history
  rw [hanswers, hanswers, hanswers, hanswers]
  have herase := hfailed [.call (.circle 1 ⟨2, 3⟩)] (mixedHistory.drop 2) (.polygon 1 4294967295 ⟨2, 3⟩) _ rfl
  exact ⟨by decide +kernel, by decide +kernel, by decide +kernel, by decide +kernel, herase.2,
    (hcalls _).generated (by decide)⟩

end ShapeBindings
