import CodeResearch.Alignment.Verifier

/-!
# Processing a run

`process_run` reads the status of its run, skips the stages that are behind it and replays
the others. It is a straight program of store calls, each a transaction of its own, which
is laid out once the status is read; every check of a lease and of a cancellation is such a
call as well.
-/
namespace CodeResearch.Alignment

open ControlPlane (Timestamp)
open DomainJobs (AlignmentStatus)

structure LeaseRow where
  owner : String
  token : String
  expiresAt : Timestamp
  deriving DecidableEq

structure RunRecord where
  status : AlignmentStatus := .queued
  cancelRequested : Bool := false
  lease : Option LeaseRow := none
  profiles : List PaperModuleProfile := []
  candidates : List AlignmentCandidate := []
  features : List AlignmentFeatureVector := []
  scores : List AlignmentCandidateScore := []
  decisions : List AlignmentDecision := []
  verifications : List AlignmentVerification := []
  deriving DecidableEq

/-- The functions that the stages of a run compute with on its facts. -/
structure Stages where
  ids : AlignmentIds
  verificationIds : VerificationIds
  /-- `extract_paper_module_profiles` -/
  profiles : List PaperModuleProfile
  /-- `generate_alignment_candidates`, with the hits of the retrieval service -/
  candidates : PaperModuleProfile → List AlignmentCandidate
  hasEntity : String → Bool
  /-- `extract_feature_vector` -/
  feature : PaperModuleProfile → AlignmentCandidate → AlignmentFeatureVector
  /-- `score_feature_vector` -/
  score : AlignmentFeatureVector → AlignmentCandidateScore
  verifierEnabled : Bool
  provider : Option Provider
  /-- the texts that rows are stored as, which they are loaded in the order of -/
  profileJson : PaperModuleProfile → String
  candidateJson : AlignmentCandidate → String
  featureJson : AlignmentFeatureVector → String
  scoreJson : AlignmentCandidateScore → String
  decisionJson : AlignmentDecision → String

/-- `ORDER BY 1`. -/
def byText {α : Type*} (text : α → String) (l : List α) : List α :=
  l.insertionSort fun a b => text a ≤ text b

/-- What a stage computes, saves or loads. -/
inductive StageTable
  | profiles | candidates | features | scores | decisions
  /-- the decisions and the verifications of the verifier -/
  | finals | verifications
  deriving DecidableEq

inductive Op
  /-- the first call of `process_run` -/
  | getRun
  | assertLease
  /-- `update_status` from one status -/
  | enter (status allowed : AlignmentStatus)
  /-- `update_status` reads the run again after its update matched no row -/
  | confirm (status : AlignmentStatus)
  | checkCancel (stage : AlignmentStatus)
  | compute (table : StageTable)
  | save (table : StageTable)
  | load (table : StageTable)
  | activate
  /-- `_mark_failed_if_needed`, or the same of `process_run`, reads the status -/
  | markFailed
  | failFrom (status : AlignmentStatus)
  | release
  deriving DecidableEq

/-- `_stage_commit_guard`. -/
def commitGuard (stage : AlignmentStatus) : List Op := [.assertLease, .checkCancel stage]

def replayStage (stage allowed : AlignmentStatus) (table : StageTable) : List Op :=
  [.enter stage allowed, .compute table] ++ commitGuard stage ++ [.save table]

def verifyStage (allowed : AlignmentStatus) : List Op :=
  replayStage .verifying allowed .finals ++ [.save .verifications]

def finishFrom (verifierEnabled : Bool) (stage : AlignmentStatus) : List Op :=
  if verifierEnabled then verifyStage stage ++ commitGuard .verifying ++ [.activate, .release]
  else commitGuard stage ++ [.activate, .release]

def scoringFrom (verifierEnabled : Bool) (stage : AlignmentStatus) : List Op :=
  replayStage .scoring stage .scores ++ [.compute .decisions] ++ commitGuard .scoring ++
    [.save .decisions] ++ finishFrom verifierEnabled .scoring

def featurizingFrom (verifierEnabled : Bool) (stage : AlignmentStatus) : List Op :=
  replayStage .featurizing stage .features ++ scoringFrom verifierEnabled .featurizing

def recallingFrom (verifierEnabled : Bool) (stage : AlignmentStatus) : List Op :=
  replayStage .recalling stage .candidates ++ featurizingFrom verifierEnabled .recalling

/-- What `process_run` does from a status on. -/
def program (verifierEnabled : Bool) (stage : AlignmentStatus) : List Op :=
  .assertLease :: match stage with
  | .ready => commitGuard .ready ++ [.activate, .release]
  | .queued | .profiling =>
    replayStage .profiling stage .profiles ++ recallingFrom verifierEnabled .profiling
  | .recalling => .load .profiles :: recallingFrom verifierEnabled .recalling
  | .featurizing =>
    [.load .profiles, .load .candidates] ++ featurizingFrom verifierEnabled .featurizing
  | .scoring =>
    [.load .profiles, .load .candidates, .load .features] ++ scoringFrom verifierEnabled .scoring
  | .verifying | .active | .failed | .superseded | .cancelled =>
    [.load .profiles, .load .candidates, .load .features, .load .scores, .load .decisions] ++
      finishFrom verifierEnabled stage

/-- The variables of `process_run`. -/
structure Locals where
  profiles : List PaperModuleProfile := []
  candidates : List AlignmentCandidate := []
  features : List AlignmentFeatureVector := []
  scores : List AlignmentCandidateScore := []
  decisions : List AlignmentDecision := []
  finals : List AlignmentDecision := []
  verifications : List AlignmentVerification := []
  deriving DecidableEq

/-- A call of `process_run` with what it has left to do, and the coordinator around it. -/
structure Process where
  /-- the token of the lease that the call was given -/
  token : Option String
  ops : List Op := [.getRun]
  locals : Locals := {}
  deriving DecidableEq

namespace Stages

variable (g : Stages)

def profileById (profiles : List PaperModuleProfile) : String → Option PaperModuleProfile :=
  dictBy PaperModuleProfile.profileId profiles

def decisionByProfile (decisions : List AlignmentDecision) : String → Option AlignmentDecision :=
  dictBy AlignmentDecision.profileId decisions

def featuresOf (l : Locals) : Option (List AlignmentFeatureVector) :=
  (l.candidates.filter fun c => g.hasEntity c.codeEntityId).mapM fun c =>
    (profileById l.profiles c.profileId).map fun p => g.feature p c

def candidatesOf (l : Locals) (p : PaperModuleProfile) : List AlignmentCandidate :=
  l.candidates.filter fun c => c.profileId = p.profileId

def scoresOf (l : Locals) (p : PaperModuleProfile) : List AlignmentCandidateScore :=
  l.scores.filter fun s => s.profileId = p.profileId

/-- `_verify`. -/
def verify (l : Locals) : Option (List (AlignmentDecision × AlignmentVerification)) :=
  l.profiles.mapM fun p => (decisionByProfile l.decisions p.profileId).map fun d =>
    verifyProfile g.ids g.verificationIds g.provider p (candidatesOf l p) (scoresOf l p) d

/-- What a stage computes from the variables. A missing key raises. -/
def compute (l : Locals) : StageTable → Option Locals
  | .profiles => some { l with profiles := g.profiles }
  | .candidates => some { l with candidates := l.profiles.flatMap g.candidates }
  | .features => (g.featuresOf l).map fun features => { l with features }
  | .scores => some { l with scores := l.features.map g.score }
  | .decisions =>
    some { l with
      decisions := l.profiles.map fun p =>
        buildProfileDecision g.ids p (candidatesOf l p) (scoresOf l p) }
  | .finals | .verifications => (g.verify l).map fun results =>
    { l with finals := results.map Prod.fst, verifications := results.map Prod.snd }

/-- `_replace_models` and `save_decisions`, whose deletions cascade. -/
def save (s : RunRecord) (l : Locals) : StageTable → RunRecord
  | .profiles =>
    { s with
      profiles := l.profiles, candidates := [], features := [], scores := [], decisions := [] }
  | .candidates => { s with candidates := l.candidates, features := [], scores := [] }
  | .features => { s with features := l.features }
  | .scores => { s with scores := l.scores }
  | .decisions => { s with decisions := l.decisions }
  | .finals => { s with decisions := l.finals }
  | .verifications => { s with verifications := l.verifications }

/-- `_load_models`. -/
def load (s : RunRecord) (l : Locals) : StageTable → Locals
  | .profiles => { l with profiles := byText g.profileJson s.profiles }
  | .candidates => { l with candidates := byText g.candidateJson s.candidates }
  | .features => { l with features := byText g.featureJson s.features }
  | .scores => { l with scores := byText g.scoreJson s.scores }
  | .decisions => { l with decisions := byText g.decisionJson s.decisions }
  | .finals | .verifications => l

end Stages

/-- The statuses that `_mark_failed_if_needed` leaves alone. -/
def TerminalStatus (status : AlignmentStatus) : Prop :=
  status ∈ [AlignmentStatus.active, .failed, .cancelled, .superseded]

instance (status : AlignmentStatus) : Decidable (TerminalStatus status) :=
  inferInstanceAs (Decidable (_ ∈ _))

def RunRecord.Held (s : RunRecord) (token : Option String) : Prop :=
  token.isSome ∧ s.lease.map LeaseRow.token = token

instance (s : RunRecord) (token : Option String) : Decidable (s.Held token) :=
  inferInstanceAs (Decidable (_ ∧ _))

namespace Process

variable (g : Stages) (p : Process)

def continueWith (ops : List Op) : Process := { p with ops }

/-- An `AlignmentStoreError` other than a cancellation or a lost lease. -/
def raiseStoreError : Process := p.continueWith [.markFailed, .release]

/-- Any other error, which `process_run` marks itself before the coordinator does. -/
def raiseError : Process := p.continueWith [.markFailed, .markFailed, .release]

def advance (s : RunRecord) (now : Timestamp) : RunRecord × Process :=
  match p.ops with
  | [] => (s, p)
  | op :: rest =>
    let next := p.continueWith rest
    match op with
    | .getRun =>
      if s.cancelRequested then (s, p.continueWith [.enter .cancelled s.status, .release])
      else (s, p.continueWith (program g.verifierEnabled s.status))
    | .assertLease =>
      if p.token.isSome ∧ ¬ (s.Held p.token ∧ ∃ lease ∈ s.lease, now < lease.expiresAt) then
        (s, p.continueWith [.release])
      else (s, next)
    | .enter status allowed =>
      if s.status = allowed then ({ s with status }, next)
      else (s, p.continueWith (.confirm status :: rest))
    | .confirm status => if s.status = status then (s, next) else (s, p.raiseStoreError)
    | .checkCancel stage =>
      if s.cancelRequested then (s, p.continueWith [.enter .cancelled stage, .release])
      else (s, next)
    | .compute table =>
      match g.compute p.locals table with
      | some locals => (s, { next with locals })
      | none => (s, p.raiseError)
    | .save table => (Stages.save s p.locals table, next)
    | .load table => (s, { next with locals := g.load s p.locals table })
    | .activate =>
      if s.status ∈ [AlignmentStatus.scoring, .verifying, .ready] ∧
          s.profiles.length = s.decisions.length then
        ({ s with status := .active }, next)
      else (s, p.raiseStoreError)
    | .markFailed =>
      if TerminalStatus s.status then (s, next)
      else (s, p.continueWith (.failFrom s.status :: rest))
    | .failFrom status =>
      if s.status = status then ({ s with status := .failed }, next) else (s, next)
    | .release => (if s.Held p.token then { s with lease := none } else s, next)

end Process

end CodeResearch.Alignment
