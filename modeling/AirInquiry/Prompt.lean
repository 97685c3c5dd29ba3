import AirInquiry.Text.Search

/-!
# Prompts

What the language model is told: for each of its four jobs an instruction, and the text that puts a
question before it together with what it needs to know.
-/

set_option autoImplicit false
set_option relaxedAutoImplicit false

namespace AirInquiry.Prompt

/-- The instruction for planning. -/
def planningInstruction : String :=
  "You plan GraphQL lookups over an air-quality (AQI) database.\n" ++
  "Split the user question into a TodoList:\n" ++
  "- `first_task` is required; its sub_questions run in parallel.\n" ++
  "- `second_task` is optional and runs after `first_task`; use it only when a " ++
  "step needs the results of the first.\n" ++
  "- Every sub-question names exactly one table in `table_name`, a precise " ++
  "`question` and a short `description` of how to query it.\n" ++
  "- AQI values live in `distric_stats`; `districts` has names only. To get the " ++
  "AQI of a named district, query `distric_stats` and mention the district name in " ++
  "the sub-question.\n" ++
  "- Keep sub-questions in the user's language."

/-- A question put before the planner, with the known tables and the date of the day. -/
def planningQuestion (question tables today : String) : String :=
  "<query>" ++ question ++ "</query>\n\n<tables>\n" ++ tables ++ "\n</tables>\n\nToday is " ++
    today ++ ". Return the TodoList."

/-- The instruction for selecting fields. -/
def selectionInstruction : String :=
  "You select the database fields a GraphQL query needs to answer a question about " ++
  "air quality.\n" ++
  "Set a field to true only when it is needed to answer the question, false " ++
  "otherwise.\n" ++
  "Always select `id` when anything is selected.\n" ++
  "For `distric_stats`, fill the `district` relationship with \x7b\"name\": true\x7d " ++
  "whenever district names are useful; otherwise set it to null.\n" ++
  "Return the table schema object with a boolean for every field."

/-- A question put before the selection of fields, with the schema of a table. -/
def selectionQuestion (question description schema : String) : String :=
  "Question: " ++ question ++ "\n\nTask description: " ++ description ++
    "\n\nTable schema:\n" ++ schema

/-- The instruction for constraints. -/
def constraintInstruction : String :=
  "You write GraphQL (Hasura) query constraints for air-quality questions.\n" ++
  "Output \x7b\"where\", \"order_by\", \"limit\", \"offset\"\x7d; use null for anything not " ++
  "needed.\n" ++
  "Operators: _eq _neq _gt _gte _lt _lte _in _nin _between _like _ilike _is_null " ++
  "_is_not_null.\n" ++
  "A condition is \x7b\"field\", \"op\", \"value\"\x7d; `_in`/`_nin` take a list, `_between` " ++
  "takes [low, high], null checks take true/false.\n" ++
  "Combine with \x7b\"_and\": [...]\x7d, \x7b\"_or\": [...]\x7d, " ++
  "\x7b\"_not\": \x7b...\x7d\x7d.\n" ++
  "Filter on a related table with \x7b\"field\": \"district\", \"nested\": \x7b\"field\": " ++
  "\"name\", \"op\": \"_ilike\", \"value\": \"%Ba Đình%\"\x7d\x7d.\n" ++
  "For current or latest values order by date desc then hour desc with limit 1.\n" ++
  "Resolve relative dates (today, yesterday, this week) against today's date given " ++
  "below; `date` values use YYYY-MM-DD.\n" ++
  "Only reference fields listed in the selected fields."

/-- The results of earlier steps as they are added to a question. -/
def priorText : Option String → String
  | none => ""
  | some prior =>
    "\n\nResults of previous steps (use their ids/values to filter):\n" ++ prior

/-- A question put before the search for constraints, with the candidate fields, the date of the day
and, if there are any, the results of earlier steps. -/
def constraintQuestion (question description fields today : String) (prior : Option String) :
    String :=
  "Question: " ++ question ++ "\n\nTask description: " ++ description ++
    "\n\nToday's date: " ++ today ++ "\n\nSelected fields:\n" ++ fields ++ priorText prior

/-- The instruction for answering. -/
def answerInstruction : String :=
  "You answer questions about air quality in Vietnam using only the data provided.\n" ++
  "Answer in the language of the question, concisely, with concrete numbers, dates " ++
  "and district names from the data.\n" ++
  "If the data is empty say that no data was found; do not invent values.\n" ++
  "If some lookups failed, mention that the answer may be incomplete."

/-- A question put before the answer, with the data found, the queries posted and what failed. -/
def answerQuestion (question data queries failures : String) : String :=
  "Question: " ++ question ++ "\n\nData:\n" ++ data ++ "\n\nExecuted queries:\n" ++ queries ++
    "\n\nFailures:\n" ++ failures

end AirInquiry.Prompt
