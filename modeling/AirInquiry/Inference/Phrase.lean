import AirInquiry.Text.Lowercase
import AirInquiry.Text.Phrase

/-!
# What a question says about time

A question can ask for the latest rows or the oldest ones, in English or Vietnamese, and it can be
about the day on which it is asked. Phrases count in any case of letters, and a phrase for the
latest rows outweighs one for the oldest.
-/

set_option autoImplicit false
set_option relaxedAutoImplicit false

namespace AirInquiry.Inference

/-- Which rows a question asks for. -/
inductive Recency where
  | latest
  | oldest
  deriving DecidableEq, Repr

/-- The phrases for the latest rows. -/
def latestPhrases : List String :=
  ["current", "latest", "now", "hiện tại", "mới nhất", "bây giờ", "hiện nay"]

/-- The phrases for the oldest rows. -/
def oldestPhrases : List String := ["oldest", "earliest", "cũ nhất"]

/-- The phrases for the day on which a question is asked. -/
def todayPhrases : List String := ["today", "hôm nay"]

/-- Whether a question mentions one of the phrases. -/
def mentionsAny (question : String) (phrases : List String) : Bool :=
  let text := Text.lowercaseChars question.toList
  phrases.any fun phrase ↦ Text.mentions text phrase.toList

/-- Which rows a question asks for, if it says so. -/
def recencyOf (question : String) : Option Recency :=
  if mentionsAny question latestPhrases then some .latest
  else if mentionsAny question oldestPhrases then some .oldest
  else none

/-- Whether a question is about the day on which it is asked. -/
def isAboutToday (question : String) : Bool := mentionsAny question todayPhrases

end AirInquiry.Inference
