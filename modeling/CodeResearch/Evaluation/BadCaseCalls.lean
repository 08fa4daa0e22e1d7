import CodeResearch.Evaluation.BadCases

/-!
# Calls on bad cases in flight

Transitions and analyses are in flight between two of their store calls, with the
records that they go on to write. Any of them may be cut off there. The events are
remembered whose case a call has saved after it appended them.
-/
namespace CodeResearch.Evaluation

open ControlPlane (Timestamp)

/-- A call before its next store call. -/
inductive BadCaseCall
  /-- `transition` before it reads the case -/
  | reading (badCaseId : String) (target : BadCaseStatus) (request : BadCaseTransitionRequest)
      (actorScope : String)
  /-- before it lists the results and the promotions -/
  | verifying (current : BadCase) (target : BadCaseStatus) (request : BadCaseTransitionRequest)
      (actorScope : String)
  /-- before it saves the verification -/
  | approving (current : BadCase) (target : BadCaseStatus) (request : BadCaseTransitionRequest)
      (actorScope : String) (verification : BadCaseVerification)
  /-- before the event is appended; an analysis goes on to its occurrence -/
  | appending (event : BadCaseEvent) (next : BadCase) (occurrence : Option BadCaseOccurrence)
  /-- before the case is saved, after the event if there is one -/
  | saving (event : Option BadCaseEvent) (next : BadCase) (occurrence : Option BadCaseOccurrence)
  /-- `analyze` before it looks for the occurrence -/
  | looking (case : EvaluationCase) (result : CaseResult) (trigger : TriggerType)
      (subjectId : String) (now : Timestamp)
  /-- before it looks for the fingerprint -/
  | finding (case : EvaluationCase) (result : CaseResult) (trigger : TriggerType)
      (subjectId : String) (now : Timestamp)
  /-- before the occurrence is appended -/
  | recording (occurrence : BadCaseOccurrence)
  deriving DecidableEq

inductive BadCaseLabel
  | transition (badCaseId : String) (target : BadCaseStatus) (request : BadCaseTransitionRequest)
      (actorScope : String)
  | analyze (case : EvaluationCase) (result : CaseResult) (subjectId : String) (clock : Timestamp)
  /-- a call makes its next store call -/
  | advance (k : ℕ) (now : Timestamp)
  /-- a transition has listed the results of its verification run and the promotions -/
  | verify (k : ℕ) (results : List CaseResult) (promotions : List RegressionCasePromotion)
  /-- a call is cut off before its next store call, or that call raises -/
  | raise (k : ℕ)

structure BadCaseSystem where
  store : BadCaseStore
  calls : List BadCaseCall
  /-- the events whose case was saved by the call that appended them -/
  answered : List BadCaseEvent

variable (ids : StableIds)

def afterVerified (current : BadCase) (target : BadCaseStatus) (request : BadCaseTransitionRequest)
    (actorScope : String) (verificationId : Option String) (now : Timestamp) :
    Option BadCaseCall :=
  match checkClosing current target request verificationId with
  | .ok _ => some (.appending (transitionEvent ids current target request actorScope now)
      (current.moveTo target request verificationId now) none)
  | .error _ => none

def afterRead (current : BadCase) (target : BadCaseStatus) (request : BadCaseTransitionRequest)
    (actorScope : String) (now : Timestamp) : Option BadCaseCall :=
  match checkTransition current target request with
  | .ok _ =>
    if target = .verified then some (.verifying current target request actorScope)
    else afterVerified ids current target request actorScope current.verificationId now
  | .error _ => none

/-- An analysis once it has looked for its fingerprint. -/
def afterFound (case : EvaluationCase) (result : CaseResult) (trigger : TriggerType)
    (subjectId : String) (now : Timestamp) : Option BadCase → BadCaseCall
  | none =>
    let new := newBadCase ids case result trigger now
    .saving none new (some (newOccurrence ids case result new.badCaseId subjectId now))
  | some existing =>
    let occurrence := newOccurrence ids case result existing.badCaseId subjectId now
    if existing.status = .closed then
      .appending (recurrenceEvent ids existing now) (existing.recur result now) (some occurrence)
    else .saving none (existing.recur result now) (some occurrence)

namespace BadCaseSystem

def init : BadCaseSystem := ⟨.empty, [], []⟩

/-- A call goes on as `next`, or ends. -/
def resume (s : BadCaseSystem) (k : ℕ) (next : Option BadCaseCall) : BadCaseSystem :=
  { s with calls := next.toList ++ s.calls.eraseIdx k }

def advance (s : BadCaseSystem) (k : ℕ) (now : Timestamp) : BadCaseCall → Option BadCaseSystem
  | .reading badCaseId target request actorScope => some <| s.resume k <|
    (s.store.cases.find? badCaseId).bind fun current =>
      afterRead ids current target request actorScope now
  | .verifying _ _ _ _ => none
  | .approving current target request actorScope verification => some <|
    match s.store.saveVerification verification with
    | .ok store => { s.resume k (afterVerified ids current target request actorScope
        (some verification.verificationId) now) with store }
    | .error _ => s.resume k none
  | .appending event next occurrence => some <|
    match s.store.appendEvent event with
    | .ok store => { s.resume k (some (.saving (some event) next occurrence)) with store }
    | .error _ => s.resume k none
  | .saving event next occurrence => some <|
    match s.store.saveBadCase next with
    | .ok store =>
      { s.resume k (occurrence.map .recording) with
        store
        answered := event.toList ++ s.answered }
    | .error _ => s.resume k none
  | .looking case result trigger subjectId now => some <| s.resume k <|
    if (s.store.occurrences.find? (occurrenceIdOf ids case result)).isSome then none
    else some (.finding case result trigger subjectId now)
  | .finding case result trigger subjectId now => some <| s.resume k <|
    some (afterFound ids case result trigger subjectId now
      (s.store.findByFingerprint (caseFingerprint ids case result)))
  | .recording occurrence => some <|
    match s.store.appendOccurrence occurrence with
    | .ok store => { s.resume k none with store }
    | .error _ => s.resume k none

def step (s : BadCaseSystem) : BadCaseLabel → Option BadCaseSystem
  | .transition badCaseId target request actorScope =>
    some { s with calls := .reading badCaseId target request actorScope :: s.calls }
  | .analyze case result subjectId clock =>
    match result.triggerType with
    | some trigger => some { s with
        calls := .looking case result trigger subjectId (result.finishedAt.getD clock) :: s.calls }
    | none => some s
  | .advance k now => s.calls[k]?.bind (s.advance ids k now)
  | .verify k results promotions => s.calls[k]?.bind fun
    | .verifying current target request actorScope => some <| s.resume k <|
      match checkVerification current request results promotions with
      | .ok verification => some (.approving current target request actorScope verification)
      | .error _ => none
    | _ => none
  | .raise k => s.calls[k]?.map fun _ => s.resume k none

def machine : Machine BadCaseSystem BadCaseLabel := ⟨step ids⟩

end BadCaseSystem

end CodeResearch.Evaluation
