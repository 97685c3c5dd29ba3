import AirInquiry.Peer.Session
import AirInquiry.Proofs.Plan.Findings

/-!
# Plans that are made

The language model is asked for a plan exactly if the question is not blank, and once. There is a
plan exactly if its reply can be read as one and has an inquiry with a text in the first phase. The
plan then has the inquiries of the reply that have a text, in their order and as they are before any
lookup (`Plan.IsCleaned`). What the reply says of lookups makes no difference
(`Plan.make_isCleaned`).
-/

set_option autoImplicit false
set_option relaxedAutoImplicit false

namespace AirInquiry.Plan

/-- The inquiries of a phase that have a text, in order, with nothing that a lookup brings. -/
def inquiriesToAsk (phase : Phase) : List Inquiry :=
  (phase.inquiries.filter fun inquiry ↦ !Text.isBlankText inquiry.question).map fun inquiry ↦
    ⟨inquiry.question, inquiry.description, inquiry.table, [], "", none⟩

/-- The plan asks what the reply asks for, in both phases, and the first one is not empty. There is a
second phase only if something is asked in it, and it counts. -/
structure IsCleaned (reply plan : Plan) : Prop where
  first_eq : plan.first.inquiries = inquiriesToAsk reply.first
  first_ne_nil : plan.first.inquiries ≠ []
  second_iff : ∀ phase, plan.second = some phase ↔ phase.inquiries ≠ [] ∧
    ∃ given, reply.second = some given ∧ phase.inquiries = inquiriesToAsk given
  phaseCount_iff : plan.phaseCount = 2 ↔ plan.second.isSome = true

/-- Two replies that say the same but for what lookups bring, which has the right types in both. The
keys of their objects increase, as they do in all values that are read. -/
structure SaysTheSame (value other : Json) : Prop where
  isOrdered : value.IsOrdered ∧ other.IsOrdered
  findingsFit : FindingsFit value ∧ FindingsFit other
  withoutFindings_eq : withoutFindings value = withoutFindings other

/-! ### Cleaning -/

variable {reply plan : Plan} {phase : Phase}

theorem inquiries_cleanPhase (phase : Phase) :
    (cleanPhase phase).inquiries = inquiriesToAsk phase := by
  rw [cleanPhase, List.filter_map]
  rfl

theorem cleanPhase_eq_iff {given : Phase} :
    cleanPhase given = phase ↔ phase.inquiries = inquiriesToAsk given := by
  rw [← inquiries_cleanPhase]
  constructor
  · rintro rfl
    rfl
  · intro h
    obtain ⟨inquiries⟩ := phase
    exact (congrArg Phase.mk h).symm

theorem isEmpty_cleanPhase (phase : Phase) :
    (cleanPhase phase).isEmpty = true ↔ inquiriesToAsk phase = [] := by
  rw [Phase.isEmpty, inquiries_cleanPhase, List.isEmpty_iff]

theorem inquiriesToAsk_ne_nil_iff : inquiriesToAsk phase ≠ [] ↔
    ∃ inquiry ∈ phase.inquiries, Text.isBlankText inquiry.question = false := by
  rw [inquiriesToAsk, Ne, List.map_eq_nil_iff, List.filter_eq_nil_iff]
  simp

theorem filter_cleanPhase_eq_some_iff {second : Option Phase} :
    (second.map cleanPhase).filter (fun phase ↦ !phase.isEmpty) = some phase ↔
      phase.inquiries ≠ [] ∧
        ∃ given, second = some given ∧ phase.inquiries = inquiriesToAsk given := by
  rw [Option.filter_eq_some_iff, Option.map_eq_some_iff, and_comm]
  refine and_congr ?_ (exists_congr fun given ↦ and_congr_right fun _ ↦ cleanPhase_eq_iff)
  rw [Phase.isEmpty, Bool.not_eq_true', List.isEmpty_eq_false_iff]

theorem clean_eq_ok_iff : clean reply = .ok plan ↔ IsCleaned reply plan := by
  unfold clean
  extract_lets first
  constructor
  · intro h
    split at h
    · cases h
    · next hfirst =>
      cases h
      rw [isEmpty_cleanPhase, ← inquiries_cleanPhase] at hfirst
      refine ⟨inquiries_cleanPhase _, hfirst, fun phase ↦ filter_cleanPhase_eq_some_iff, ?_⟩
      rw [phaseCount, presentSecond, Option.filter_filter]
      simp
  · rintro ⟨hfirst, hsome, hsecond, -⟩
    have hclean : first = plan.first := cleanPhase_eq_iff.2 hfirst
    have hempty : first.isEmpty = false := by
      rw [hclean, Phase.isEmpty, List.isEmpty_eq_false_iff]
      exact hsome
    have hlater : (reply.second.map cleanPhase).filter (fun phase ↦ !phase.isEmpty) =
        plan.second := by
      refine Option.ext fun phase ↦ ?_
      rw [filter_cleanPhase_eq_some_iff, hsecond]
    rw [hempty, if_neg Bool.false_ne_true, hclean, hlater]

theorem exists_clean_eq_ok_iff : (∃ plan, clean reply = .ok plan) ↔
    ∃ inquiry ∈ reply.first.inquiries, Text.isBlankText inquiry.question = false := by
  rw [← inquiriesToAsk_ne_nil_iff, Ne, ← isEmpty_cleanPhase]
  unfold clean
  extract_lets first
  split
  · next hempty => simp [first, hempty]
  · next hempty => simp [first, hempty]

/-- Cleaning depends only on what a reply asks. -/
theorem clean_congr {first second : Plan} (h : first.asks = second.asks) :
    clean first = clean second := by
  obtain ⟨hfirst, hsecond⟩ := Prod.mk.inj h
  have hphase : ∀ phase, cleanPhase phase =
      ⟨phase.asks.filter fun item ↦ !Text.isBlankText item.question⟩ := fun _ ↦ rfl
  have hlater : first.second.map cleanPhase = second.second.map cleanPhase := by
    have hcompose := congrArg (Option.map fun asks : List Inquiry ↦
      Phase.mk (asks.filter fun item ↦ !Text.isBlankText item.question)) hsecond
    rwa [Option.map_map, Option.map_map] at hcompose
  rw [clean, clean, hphase, hphase, hfirst, hlater]

/-! ### Replies -/

/-- The plan that comes of a reply of the model. -/
def outcome (reply : Completion.Reply) : Except Error Plan :=
  ofReply (Completion.typed "todo_list" ofJson reply)

theorem outcome_of_ok {value : Json} (h : ofJson value = .ok reply) :
    outcome (.ok value) = clean reply := by
  rw [outcome, Completion.typed, h, Except.mapError, ofReply]

theorem outcome_of_error {value : Json} {mismatch : Json.Mismatch}
    (h : ofJson value = .error mismatch) :
    outcome (.ok value) =
      .error (.completion (.missesSchema "todo_list" mismatch.message)) := by
  rw [outcome, Completion.typed, h, Except.mapError, ofReply]

theorem outcome_eq_ok_iff {reply : Completion.Reply} : outcome reply = .ok plan ↔
    ∃ value given, reply = .ok value ∧ ofJson value = .ok given ∧ clean given = .ok plan := by
  cases reply with
  | error error => simp [outcome, Completion.typed, ofReply]
  | ok value =>
    cases hread : ofJson value with
    | error mismatch => simp [outcome_of_error hread, hread]
    | ok given => simp [outcome_of_ok hread, hread]

theorem SaysTheSame.outcome_eq {value other : Json} (h : SaysTheSame value other) :
    outcome (.ok value) = outcome (.ok other) := by
  have hasks : (ofJson value).map asks = (ofJson other).map asks := by
    rw [map_asks_ofJson h.isOrdered.1 h.findingsFit.1,
      map_asks_ofJson h.isOrdered.2 h.findingsFit.2, h.withoutFindings_eq]
  cases hvalue : ofJson value with
  | error mismatch =>
    cases hother : ofJson other with
    | error reason =>
      rw [hvalue, hother] at hasks
      cases hasks
      rw [outcome_of_error hvalue, outcome_of_error hother]
    | ok second =>
      rw [hvalue, hother] at hasks
      cases hasks
  | ok first =>
    cases hother : ofJson other with
    | error reason =>
      rw [hvalue, hother] at hasks
      cases hasks
    | ok second =>
      rw [hvalue, hother] at hasks
      rw [outcome_of_ok hvalue, outcome_of_ok hother]
      exact clean_congr (Except.ok.inj hasks)

/-! ### Making a plan -/

section Making

variable {σ : Type} (catalog : Catalog) (today question : String) (peers : Peers σ)
  (session : Session σ)

/-- What the model replies if it is asked for a plan. -/
def replyTo : Completion.Reply :=
  (session.complete peers (request catalog today (Text.trim question))).1.reply

variable {catalog today question peers session}

theorem run_make_of_blank (h : Text.trim question = "") :
    (make catalog today question).run peers session = (.error .blankQuestion, session) := by
  unfold make
  extract_lets trimmed
  rw [if_pos (String.isEmpty_iff.2 h)]
  rfl

theorem run_make (h : Text.trim question ≠ "") :
    ((make catalog today question).run peers session).1 =
        outcome (replyTo catalog today question peers session) ∧
      ((make catalog today question).run peers session).2.calls =
        session.calls ++ [.complete (request catalog today (Text.trim question))] := by
  unfold make
  extract_lets trimmed
  rw [if_neg (mt String.isEmpty_iff.1 h)]
  exact ⟨rfl, rfl⟩

/-- The model is asked once, unless the question is blank. A plan comes of it exactly if the reply
can be read and some inquiry of its first phase has a text, and it is the reply cleaned. Replies that
differ only in what lookups bring give the same. -/
theorem make_isCleaned (catalog : Catalog) (today question : String) (peers : Peers σ)
    (session : Session σ) :
    ((make catalog today question).run peers session).2.calls = session.calls ++
      (if Text.trim question = "" then []
        else [.complete (request catalog today (Text.trim question))]) ∧
    ((∃ plan, ((make catalog today question).run peers session).1 = .ok plan) ↔
      Text.trim question ≠ "" ∧ ∃ value reply,
        replyTo catalog today question peers session = .ok value ∧ ofJson value = .ok reply ∧
        ∃ inquiry ∈ reply.first.inquiries, Text.isBlankText inquiry.question = false) ∧
    (∀ plan, ((make catalog today question).run peers session).1 = .ok plan →
      ∃ value reply, replyTo catalog today question peers session = .ok value ∧
        ofJson value = .ok reply ∧ IsCleaned reply plan) ∧
    ∀ (others : Peers σ) (value other : Json),
      replyTo catalog today question peers session = .ok value →
      replyTo catalog today question others session = .ok other → SaysTheSame value other →
      ((make catalog today question).run peers session).1 =
        ((make catalog today question).run others session).1 := by
  by_cases hblank : Text.trim question = ""
  · have hnone : ∀ {peers : Peers σ} {plan : Plan},
        ((make catalog today question).run peers session).1 ≠ .ok plan := by
      intro peers plan
      rw [run_make_of_blank hblank]
      intro h
      cases h
    refine ⟨?_, ?_, fun plan hplan ↦ absurd hplan hnone, fun others value other _ _ _ ↦ ?_⟩
    · rw [run_make_of_blank hblank, if_pos hblank, List.append_nil]
    · constructor
      · rintro ⟨plan, hplan⟩
        exact absurd hplan hnone
      · rintro ⟨hsome, -⟩
        exact absurd hblank hsome
    · rw [run_make_of_blank hblank, run_make_of_blank hblank]
  · have hrun : ∀ peers : Peers σ, ((make catalog today question).run peers session).1 =
        outcome (replyTo catalog today question peers session) :=
      fun peers ↦ (run_make hblank).1
    refine ⟨?_, ?_, fun plan hplan ↦ ?_, fun others value other hvalue hother hsame ↦ ?_⟩
    · rw [(run_make hblank).2, if_neg hblank]
    · simp only [hrun, outcome_eq_ok_iff, ← exists_clean_eq_ok_iff]
      constructor
      · rintro ⟨plan, value, reply, hvalue, hreply, hclean⟩
        exact ⟨hblank, value, reply, hvalue, hreply, plan, hclean⟩
      · rintro ⟨-, value, reply, hvalue, hreply, plan, hclean⟩
        exact ⟨plan, value, reply, hvalue, hreply, hclean⟩
    · rw [hrun, outcome_eq_ok_iff] at hplan
      obtain ⟨value, reply, hvalue, hreply, hclean⟩ := hplan
      exact ⟨value, reply, hvalue, hreply, clean_eq_ok_iff.1 hclean⟩
    · rw [hrun, hrun, hvalue, hother, hsame.outcome_eq]

/-- A reply of the model with one inquiry that has a text, one that has none, and a finding. -/
def provincesReply (finding : String × Json) : Json :=
  .object [("first_task", .object [("sub_questions", .array [
      .object [finding, ("question", .string "Which provinces?"),
        ("table_name", .string "provinces")],
      .object [("question", .string " "), ("table_name", .string "provinces")]])]),
    ("second_task", .object [("sub_questions", .array [])])]

/-- Peers of which the model always replies the same. -/
def peersReplying (value : Json) : Peers Unit where
  complete _ _ := (⟨0, .ok value⟩, ())
  post _ _ := (⟨0, .error (.unreachable "no data service")⟩, ())

/-- The plan has the inquiry with a text alone, whichever finding the reply has. -/
theorem make_isCleaned_provinces :
    ∃ plan, ((make ⟨[]⟩ "2024-05-01" "Which provinces?").run
        (peersReplying (provincesReply ("query", .string "query"))) ⟨(), 0, []⟩).1 = .ok plan ∧
      plan.first.inquiries = [⟨"Which provinces?", "", "provinces", [], "", none⟩] ∧
      plan.second = none ∧ plan.phaseCount = 1 ∧
      ((make ⟨[]⟩ "2024-05-01" "Which provinces?").run
        (peersReplying (provincesReply ("data", .object [("provinces", .null)])))
        ⟨(), 0, []⟩).1 = .ok plan := by
  obtain ⟨-, hmade, hcleaned, hsame⟩ := make_isCleaned ⟨[]⟩ "2024-05-01" "Which provinces?"
    (peersReplying (provincesReply ("query", .string "query"))) ⟨(), 0, []⟩
  have htext : Text.trim "Which provinces?" ≠ "" := by decide +kernel
  obtain ⟨plan, hplan⟩ := hmade.2 ⟨htext, _, _, rfl, rfl, _, .head _, by decide +kernel⟩
  obtain ⟨value, reply, hvalue, hreply, hclean⟩ := hcleaned plan hplan
  cases hvalue
  cases hreply
  have hinquiries : plan.first.inquiries =
      [⟨"Which provinces?", "", "provinces", [], "", none⟩] :=
    hclean.first_eq.trans rfl
  have hsecond : plan.second = none := by
    refine Option.eq_none_iff_forall_ne_some.2 fun phase hphase ↦ ?_
    obtain ⟨hasked, given, hgiven, hinquiries⟩ := (hclean.second_iff phase).1 hphase
    cases hgiven
    exact hasked hinquiries
  refine ⟨plan, hplan, hinquiries, hsecond, ?_, ?_⟩
  · rw [phaseCount, presentSecond, hsecond]
    rfl
  · rw [← hplan]
    refine (hsame (peersReplying (provincesReply ("data", .object [("provinces", .null)])))
      _ _ rfl rfl ?_).symm
    exact ⟨by decide +kernel, by decide +kernel, rfl⟩

end Making

end AirInquiry.Plan
