import CodeResearch.Retrieval.Citations
import Mathlib.Algebra.Order.Ring.Unbundled.Rat

/-!
# The evidence discipline of answers

Whatever a draft cites, the answer that the validator, the verifier and the finalizer
make of it cites attached evidence only, and speaks through claims that cite some of it.
The validator retains what the one of retrieval retains.
-/
namespace CodeResearch.Research

open Retrieval (ResearchAnswer AnswerClaim)

def answerOf (draft : DraftResearchAnswer) (context : ContextBundle) : AgentResearchAnswer :=
  finalize (verifyClaims (validateCitations draft context).1)

def Attached (context : ContextBundle) (citation : AnswerCitation) : Prop :=
  ∃ item ∈ context.items, ∃ evidence ∈ item.evidence,
    citation.contextId = item.contextId ∧ citation.entityId = item.entityId ∧
      citation.evidenceId = evidence.evidenceId ∧ citation.path = evidence.path ∧
        citation.startLine = evidence.startLine ∧ citation.endLine = evidence.endLine ∧
          citation.paperId = evidence.paperId ∧ citation.pageNumber = evidence.pageNumber

def CitesOneOf (citations : List AnswerCitation) (claim : ValidatedAnswerClaim) : Prop :=
  ∃ citation ∈ citations, citation.citationId ∈ claim.citationIds

def SpeaksClaims (answer : AgentResearchAnswer) : Prop :=
  ∃ sentences, answer.answer = "\n".intercalate sentences ∧
    ∀ sentence ∈ sentences, ∃ claim ∈ answer.claims,
      claim.text = sentence ∧ CitesOneOf answer.citations claim

/-- The two validators are given the same citations and claims. -/
structure SameInput (draft : DraftResearchAnswer) (generated : ResearchAnswer) : Prop where
  citations : generated.citations = draft.citations
  claims : generated.claims.map AnswerClaim.citationIds =
    draft.claims.map DraftAnswerClaim.citationIds

/-- What the evidence says about an answer that was made of a draft. -/
structure Disciplined (draft : DraftResearchAnswer) (context : ContextBundle)
    (answer : AgentResearchAnswer) : Prop where
  claims : answer.claims.map (fun claim => (claim.claimId, claim.text)) =
    draft.claims.map fun claim => (claim.claimId, claim.text)
  attached : ∀ citation ∈ answer.citations, Attached context citation
  supported : ∀ claim ∈ answer.claims,
    claim.supportStatus = .supported ↔ CitesOneOf answer.citations claim
  unsupported : answer.unsupportedClaims =
    (answer.claims.filter fun claim => claim.supportStatus ≠ .supported).map (·.text)
  evidenceOnly : answer.evidenceOnly = true ↔ ∀ claim ∈ answer.claims,
    claim.supportStatus ≠ .supported
  confidence : answer.evidenceOnly = true → answer.confidence ≤ 1 / 5
  agrees : ∀ generated, SameInput draft generated →
    (Retrieval.validate generated context).answer.citations = answer.citations ∧
      (Retrieval.validate generated context).answer.claims.map AnswerClaim.citationIds =
        answer.claims.map fun claim => claim.citationIds

section Passes

variable (draft : DraftResearchAnswer) (context : ContextBundle)

theorem lookupEvidence_some {context : ContextBundle} {contextId evidenceId : String}
    {item : ContextItem} {evidence : RetrievalEvidence}
    (h : lookupEvidence context contextId evidenceId = some (item, evidence)) :
    item ∈ context.items ∧ evidence ∈ item.evidence ∧ item.contextId = contextId ∧
      evidence.evidenceId = evidenceId := by
  have hmem := List.mem_of_find?_eq_some h
  have hkey := List.find?_some h
  simp only [List.mem_reverse, List.mem_flatMap, List.mem_map, Prod.mk.injEq] at hmem
  obtain ⟨item', hitem, evidence', hevidence, rfl, rfl⟩ := hmem
  exact ⟨hitem, hevidence, of_decide_eq_true hkey⟩

theorem attached_of_validCitation {context : ContextBundle} {citation valid : AnswerCitation}
    (h : validCitation context citation = some valid) : Attached context valid := by
  obtain ⟨⟨item, evidence⟩, hfound, hvalid⟩ := Option.bind_eq_some_iff.mp h
  obtain ⟨hitem, hevidence, _, _⟩ := lookupEvidence_some hfound
  dsimp only at hvalid
  split_ifs at hvalid
  rw [← Option.some.inj hvalid]
  exact ⟨item, hitem, evidence, hevidence, rfl, rfl, rfl, rfl, rfl, rfl, rfl, rfl⟩

theorem claims_answerOf :
    (answerOf draft context).claims = (validateCitations draft context).1.claims.map fun claim =>
      if claim.citationIds ≠ [] then ⟨claim, .supported, none⟩
      else ⟨claim, .unsupported, some "No valid citation supports this claim."⟩ := rfl

theorem citations_answerOf :
    (answerOf draft context).citations = draft.citations.filterMap (validCitation context) := rfl

variable {claim : ValidatedAnswerClaim}

theorem supportStatus_answerOf (h : claim ∈ (answerOf draft context).claims) :
    claim.supportStatus = if claim.citationIds ≠ [] then .supported else .unsupported := by
  rw [claims_answerOf] at h
  obtain ⟨checked, _, rfl⟩ := List.mem_map.mp h
  by_cases hcites : checked.citationIds = [] <;> simp [hcites]

theorem citationIds_answerOf :
    (answerOf draft context).claims.map (fun claim => claim.citationIds) =
      draft.claims.map fun claim => claim.citationIds.filter
        (· ∈ (draft.citations.filterMap (validCitation context)).map AnswerCitation.citationId) := by
  rw [claims_answerOf, validateCitations, List.map_map, List.map_map]
  apply List.map_congr_left
  intro claim _
  simp only [Function.comp_apply]
  split_ifs <;> rfl

theorem citesOneOf_iff (h : claim ∈ (answerOf draft context).claims) :
    CitesOneOf (answerOf draft context).citations claim ↔ claim.citationIds ≠ [] := by
  have hids : claim.citationIds ∈ (answerOf draft context).claims.map fun c => c.citationIds :=
    List.mem_map_of_mem h
  rw [citationIds_answerOf] at hids
  obtain ⟨drafted, _, hfilter⟩ := List.mem_map.mp hids
  rw [CitesOneOf, citations_answerOf]
  constructor
  · intro ⟨citation, _, hcited⟩ hempty
    rw [hempty] at hcited
    cases hcited
  · intro hcites
    obtain ⟨citationId, hcited⟩ := List.exists_mem_of_ne_nil _ hcites
    have hretained := hcited
    rw [← hfilter, List.mem_filter] at hretained
    obtain ⟨citation, hcitation, rfl⟩ := List.mem_map.mp (of_decide_eq_true hretained.2)
    exact ⟨citation, hcitation, hcited⟩

theorem supported_iff (h : claim ∈ (answerOf draft context).claims) :
    claim.supportStatus = .supported ↔ CitesOneOf (answerOf draft context).citations claim := by
  rw [citesOneOf_iff draft context h, supportStatus_answerOf draft context h]
  split_ifs with hcites <;> simp [hcites]

def visible (claims : List ValidatedAnswerClaim) : List String :=
  (claims.filter fun claim => claim.supportStatus = .supported).map (·.text)

/-- Without partially supported claims the finalizer shows the supported ones. -/
theorem finalize_of_not_partial {validated : ValidatedResearchAnswer}
    (h : ∀ claim ∈ validated.claims, claim.supportStatus ≠ .partiallySupported) :
    (finalize validated).evidenceOnly = decide (visible validated.claims = []) ∧
      (finalize validated).answer =
        (if visible validated.claims ≠ [] then "\n".intercalate (visible validated.claims)
        else "现有证据不足，以下仅返回已检索到的证据。") ∧
      (finalize validated).confidence =
        if visible validated.claims = [] then min validated.confidence (1 / 5)
        else validated.confidence := by
  have hpartial : (validated.claims.filter fun claim =>
      claim.supportStatus = .partiallySupported) = [] := by
    rw [List.filter_eq_nil_iff]
    intro claim hclaim
    simpa using h claim hclaim
  simp only [finalize, hpartial, List.map_nil, List.append_nil]
  exact ⟨rfl, rfl, rfl⟩

/-- The finalizer shows the supported claims, or says that there are none. -/
theorem answerOf_visible :
    (answerOf draft context).evidenceOnly =
        decide (visible (answerOf draft context).claims = []) ∧
      (answerOf draft context).answer =
        (if visible (answerOf draft context).claims ≠ [] then
          "\n".intercalate (visible (answerOf draft context).claims)
        else "现有证据不足，以下仅返回已检索到的证据。") ∧
      ((answerOf draft context).evidenceOnly = true → (answerOf draft context).confidence ≤ 1 / 5) := by
  have hstatus : ∀ claim ∈ (answerOf draft context).claims,
      claim.supportStatus ≠ .partiallySupported := by
    intro claim hclaim
    rw [supportStatus_answerOf draft context hclaim]
    split_ifs <;> simp
  obtain ⟨honly, hanswer, hconfidence⟩ := finalize_of_not_partial hstatus
  refine ⟨honly, hanswer, ?_⟩
  intro hevidence
  have hnone := of_decide_eq_true (honly.symm.trans hevidence)
  rw [answerOf, hconfidence, if_pos hnone]
  exact min_le_right _ _

theorem evidenceOnly_iff : (answerOf draft context).evidenceOnly = true ↔
    ∀ claim ∈ (answerOf draft context).claims, claim.supportStatus ≠ .supported := by
  rw [(answerOf_visible draft context).1, decide_eq_true_eq, visible, List.map_eq_nil_iff,
    List.filter_eq_nil_iff]
  simp

theorem speaksClaims_of_visible (h : (answerOf draft context).evidenceOnly = false) :
    SpeaksClaims (answerOf draft context) := by
  obtain ⟨honly, hanswer, _⟩ := answerOf_visible draft context
  have hshown := of_decide_eq_false (honly.symm.trans h)
  refine ⟨visible (answerOf draft context).claims, by rw [hanswer, if_pos hshown], ?_⟩
  intro sentence hsentence
  obtain ⟨claim, hclaim, rfl⟩ := List.mem_map.mp hsentence
  obtain ⟨hmem, hsupported⟩ := List.mem_filter.mp hclaim
  exact ⟨claim, hmem, rfl, (supported_iff draft context hmem).mp (of_decide_eq_true hsupported)⟩

theorem disciplined_answerOf : Disciplined draft context (answerOf draft context) := by
  constructor
  · rw [claims_answerOf, validateCitations, List.map_map, List.map_map]
    apply List.map_congr_left
    intro claim _
    simp only [Function.comp_apply]
    split_ifs <;> rfl
  · intro citation hcitation
    obtain ⟨_, _, hvalid⟩ := List.mem_filterMap.mp hcitation
    exact attached_of_validCitation hvalid
  · intro claim hclaim
    exact supported_iff draft context hclaim
  · change List.map _ _ = _
    congr 1
    apply List.filter_congr
    intro claim hclaim
    have hclaim : claim ∈ (answerOf draft context).claims := hclaim
    rw [supportStatus_answerOf draft context hclaim]
    split_ifs <;> rfl
  · exact evidenceOnly_iff draft context
  · exact (answerOf_visible draft context).2.2
  · intro generated hsame
    rw [Retrieval.validate_citations, Retrieval.validate_citationIds, hsame.citations,
      citations_answerOf, citationIds_answerOf]
    refine ⟨rfl, ?_⟩
    have hclaims := congrArg (List.map fun ids : List String => ids.filter
      (· ∈ (draft.citations.filterMap (validCitation context)).map AnswerCitation.citationId))
      hsame.claims
    simpa only [List.map_map, Function.comp_def] using hclaims

/-- The answer to a draft is disciplined, and speaks through its claims unless none of
them is supported. -/
theorem answerOf_discipline :
    Disciplined draft context (answerOf draft context) ∧
      ((answerOf draft context).evidenceOnly = false → SpeaksClaims (answerOf draft context)) ∧
      ((answerOf draft context).evidenceOnly = true →
        (answerOf draft context).answer = "现有证据不足，以下仅返回已检索到的证据。") := by
  refine ⟨disciplined_answerOf draft context, speaksClaims_of_visible draft context, ?_⟩
  intro honly
  obtain ⟨hdecide, hanswer, _⟩ := answerOf_visible draft context
  have hnone := of_decide_eq_true (hdecide.symm.trans honly)
  rw [hanswer, if_neg (not_not_intro hnone)]

end Passes

/-- The notice of an answer without claims is the text of no claim. -/
theorem notice_speaks_no_claim :
    ¬ ∀ draft context, SpeaksClaims (answerOf draft context) := by
  intro h
  obtain ⟨sentences, hanswer, hclaims⟩ := h ⟨"", [], [], 0⟩ ⟨[]⟩
  have hnone : sentences = [] := by
    rw [List.eq_nil_iff_forall_not_mem]
    intro sentence hsentence
    obtain ⟨claim, hclaim, _⟩ := hclaims sentence hsentence
    cases hclaim
  rw [hnone] at hanswer
  exact absurd hanswer (by decide)

end CodeResearch.Research
