import Mathlib.Data.List.Basic

/-!
# The copy of a reason

A turn that ends without an answer ends with a reason code; each code has words
of its own, as each implies a different next step.
-/

namespace McpAssistant.Services.ReasonCopy

def reasonCopy : List (String × String) := [
  ("policy_denied",
    "Your account does not have access to that. Ask an administrator if " ++
    "you need it."),
  ("cursor_scope_mismatch",
    "Those results belong to a different question. Ask again to get a " ++
    "fresh set."),
  ("budget_exhausted", "This account has used its Ask AI budget for this month."),
  ("input_screened",
    "I can't help with that request. I can answer questions about the " ++
    "company's jobs, invoices, quotations, customers, suppliers, stock and " ++
    "documents."),
  ("budget_unconfigured",
    "Ask AI has no budget set for this account. Ask an administrator to " ++
    "set one."),
  ("budget_unverifiable",
    "I could not check this account's Ask AI budget right now. Try again " ++
    "in a moment."),
  ("capability_disabled",
    "That kind of question is switched off in this system. It is not a " ++
    "permission problem."),
  ("unsupported_operator",
    "I cannot compare that field the way the question asks. It is stored " ++
    "as text here, so I cannot treat it as a number or a range."),
  ("measure_filter_unsupported", "I cannot filter on a calculated total in this system yet."),
  ("optional_join_unsupported", "I cannot combine those two record types in this system yet."),
  ("fanout_unsafe",
    "That question would join records in a way that double-counts, so I " ++
    "did not run it."),
  ("anchor_not_root",
    "That subject cannot lead this list. Ask for the list the other way " ++
    "round."),
  ("no_join_path", "Those two record types are not connected in a way I can query."),
  ("unsupported_relative_period", "I cannot work out that date range. Give exact dates instead."),
  ("invalid_business_timezone", "The business time zone is not configured, so I cannot use dates."),
  ("capability_unavailable",
    "I can't answer questions that need live business data yet — I can " ++
    "help with documents, policies, and records you open from Global " ++
    "Search."),
  ("document_unavailable",
    "Document search is temporarily offline in this deployment. Showing " ++
    "authorized business records only."),
  ("result_page_disabled", "Paging through results is not available in Ask AI."),
  ("continuation_unavailable", "I lost track of that earlier answer. Please ask again."),
  ("continuation_rejected",
    "That choice can no longer be used. Ask the question again to get " ++
    "fresh choices."),
  ("continuation_expired", "That question has expired. Ask it again to get fresh choices."),
  ("model_route_unavailable", "The answering model is not available right now. Please try again."),
  ("upstream_circuit_open", "The answering service is recovering. Please try again shortly."),
  ("conversation_store_unavailable",
    "I could not reach the conversation history. Please try again."),
  ("transcript_store_busy", "The conversation history is busy. Please try again."),
  ("member_not_found",
    "I do not have a field or grouping by that name. Try asking with one " ++
    "of the measures or fields this system records."),
  ("value_not_found",
    "I can search that field, but nothing matches that name or number. " ++
    "Check the spelling, or it may not be recorded here."),
  ("grain_unexpressible", "I cannot report that at the level of detail the question asks for."),
  ("needs_prior_answer",
    "One part of that question needs the answer to another part first, so " ++
    "I cannot answer both at once. Ask the first part on its own, then ask " ++
    "the next part."),
  ("period_dimension_missing", "Those records carry no date I can group or filter by."),
  ("detail_unavailable",
    "That detail is not recorded in this system, so I have nothing to " ++
    "report for it."),
  ("budget", "That question needed more work than one turn allows. Try narrowing it."),
  ("timeout",
    "That took too long to finish. Try again in a moment, or narrow the " ++
    "question."),
  ("unavailable", "The data service is not reachable right now. Try again in a moment."),
  ("no_progress", "I could not make progress on that question."),
  ("adapter_invalid", "I could not build a safe query for that question."),
  ("request_conflict",
    "That request clashed with one already handled or still running. Ask " ++
    "the question again for a fresh answer."),
  ("cursor_expired", "Those results have expired. Ask the question again."),
  ("cursor_invalid", "I cannot continue from that page of results. Ask the question again."),
  ("cancelled", "Stopped."),
  ("data_contract_mismatch",
    "One of the fields in that answer holds data of a different type than " ++
    "the catalog declares.")
]

/-- Says only what is known: the turn did not finish and no answer is claimed. -/
def fallbackCopy : String :=
  "I could not complete that question, and I have no answer to give for it."

/-- The copy of a reason code.  A message the producing layer wrote is used only
for a code without copy here. -/
def copyForReason (reasonCode : Option String) (fallback : Option String) : String :=
  match reasonCode.bind fun code => reasonCopy.lookup code with
  | some copy => copy
  | none => (fallback.filter fun text => text ≠ "").getD fallbackCopy

end McpAssistant.Services.ReasonCopy
