import AirInquiry.Plan.Planning
import AirInquiry.Proofs.Json.Ordered
import AirInquiry.Proofs.Json.Records

/-!
# What a planner's reply says of lookups

A reply of the planner may hold data, queries and errors, which only lookups bring. As long as their
types are right (`Plan.FindingsFit`), they make no difference to what the reply asks for, nor to
whether it can be read: the reply without them says the same (`Plan.map_asks_ofJson`).
-/

set_option autoImplicit false
set_option relaxedAutoImplicit false

namespace AirInquiry

open Json (Entries ReadsAlike)
open Json.Decode (entryInto)

namespace Inquiry

/-- The keys of what a lookup brings, in the order in which an array has it. -/
def findingKeys : List String := ["data", "query", "error"]

/-- Whether a value has the type of what a lookup brings under a key. -/
def isFinding (key : String) (value : Json) : Bool :=
  if key = "data" then value.asObject?.isSome
  else if key = "query" then value.asString?.isSome
  else if key = "error" then value.isNull || value.asString?.isSome
  else true

/-- What a lookup brings has the right types in an inquiry. In an array it stands behind the first
three items. -/
def FindingsFit : Json → Prop
  | .object entries => ∀ entry ∈ entries, isFinding entry.1 entry.2 = true
  | .array items => ∀ item ∈ findingKeys.zip (items.drop 3), isFinding item.1 item.2 = true
  | _ => True

instance decideFindingsFit : DecidablePred FindingsFit
  | .object entries =>
    inferInstanceAs (Decidable (∀ entry ∈ entries, isFinding entry.1 entry.2 = true))
  | .array items =>
    inferInstanceAs (Decidable (∀ item ∈ findingKeys.zip (items.drop 3),
      isFinding item.1 item.2 = true))
  | .null | .bool _ | .number _ | .string _ => inferInstanceAs (Decidable True)

/-- An inquiry without what a lookup brings. An array with more than six items is none. -/
def withoutFindings : Json → Json
  | .object entries => .object (entries.filter fun entry ↦ entry.1 ∉ findingKeys)
  | .array items => .array (if items.length ≤ 6 then items.take 3 else items)
  | other => other

variable {state same : Inquiry × List String}

/-! ### Fields -/

/-- The fields of what is asked. -/
def askedFields : List (Json.Decode.Field Inquiry) := recordFields.take 3

/-- The fields of what a lookup brings. -/
def findingFields : List (Json.Decode.Field Inquiry) := recordFields.drop 3

theorem asked_eq_iff {first second : Inquiry} : Plan.asked first = Plan.asked second ↔
    first.question = second.question ∧ first.description = second.description ∧
      first.table = second.table := by
  simp [Plan.asked]

theorem name_of_isCalled {field : Json.Decode.Field Inquiry} (hfield : field ∈ recordFields)
    {key : String} (h : field.isCalled key = true) : field.name = key := by
  have haliases : ∀ field ∈ recordFields, field.aliases = [] := by simp [recordFields]
  rw [Json.Decode.Field.isCalled, haliases field hfield] at h
  simpa [eq_comm] using h

/-- The name of a field says whether it is for what a lookup brings. -/
theorem mem_fields_iff {field : Json.Decode.Field Inquiry} (hfield : field ∈ recordFields) :
    (field ∈ findingFields ↔ field.name ∈ findingKeys) ∧
      (field ∈ askedFields ↔ field.name ∉ findingKeys) := by
  have hasked : ∀ field ∈ askedFields, field.name ∉ findingKeys := by
    simp [askedFields, recordFields, findingKeys]
  have hfindings : ∀ field ∈ findingFields, field.name ∈ findingKeys := by
    simp [findingFields, recordFields, findingKeys]
  rw [← List.take_append_drop 3 recordFields, List.mem_append] at hfield
  refine ⟨⟨hfindings field, fun hname ↦ ?_⟩, ⟨hasked field, fun hname ↦ ?_⟩⟩
  · exact hfield.resolve_left fun hmem ↦ hasked field hmem hname
  · exact hfield.resolve_right fun hmem ↦ hname (hfindings field hmem)

/-- A field of what is asked reads every value in the same way, whatever was read before. -/
theorem readsAlike_asked {field : Json.Decode.Field Inquiry} (hfield : field ∈ askedFields)
    (value : Json) : ReadsAlike Plan.asked field value value := by
  intro record other hview
  obtain ⟨hquestion, hdescription, htable⟩ := asked_eq_iff.1 hview
  simp only [askedFields, recordFields, List.take, List.mem_cons, List.not_mem_nil, or_false]
    at hfield
  rcases hfield with rfl | rfl | rfl
  · cases value with
    | string text => exact congrArg Except.ok (asked_eq_iff.2 ⟨rfl, hdescription, htable⟩)
    | _ => rfl
  · cases value with
    | string text => exact congrArg Except.ok (asked_eq_iff.2 ⟨hquestion, rfl, htable⟩)
    | _ => rfl
  · cases value with
    | string text => exact congrArg Except.ok (asked_eq_iff.2 ⟨hquestion, hdescription, rfl⟩)
    | _ => rfl

/-- A finding of the right type can be read, and changes nothing of what is asked. -/
theorem exists_read_finding {field : Json.Decode.Field Inquiry} (hfield : field ∈ findingFields)
    {value : Json} (hvalue : isFinding field.name value = true) (record : Inquiry) :
    ∃ read, field.read value record = .ok read ∧ Plan.asked read = Plan.asked record := by
  simp only [findingFields, recordFields, List.drop, List.mem_cons, List.not_mem_nil, or_false]
    at hfield
  rcases hfield with rfl | rfl | rfl
  · cases value with
    | object entries => exact ⟨_, rfl, rfl⟩
    | _ => simp [isFinding, Json.asObject?] at hvalue
  · cases value with
    | string text => exact ⟨_, rfl, rfl⟩
    | _ => simp [isFinding, Json.asString?] at hvalue
  · cases value with
    | null => exact ⟨_, rfl, rfl⟩
    | string text => exact ⟨_, rfl, rfl⟩
    | _ => simp [isFinding, Json.asString?, Json.isNull] at hvalue

theorem required_of_finding {field : Json.Decode.Field Inquiry} (hfield : field ∈ findingFields) :
    field.required = false := by
  have hfields : ∀ field ∈ findingFields, field.required = false := by
    simp [findingFields, recordFields]
  exact hfields field hfield

theorem find?_finding {key : String} (h : key ∈ findingKeys) :
    ∃ field ∈ findingFields,
      recordFields.find? (·.isCalled key) = some field ∧ field.name = key := by
  have hcalled : ∃ field ∈ recordFields, field.isCalled key = true := by
    simp only [findingKeys, List.mem_cons, List.not_mem_nil, or_false] at h
    rcases h with rfl | rfl | rfl <;> simp [recordFields, Json.Decode.Field.isCalled]
  obtain ⟨field, hfind⟩ := Option.isSome_iff_exists.1 (List.find?_isSome.2 hcalled)
  have hfield := List.mem_of_find?_eq_some hfind
  have hkey : field.isCalled key = true := by simpa using List.find?_some hfind
  have hname := name_of_isCalled hfield hkey
  exact ⟨field, (mem_fields_iff hfield).1.2 (hname ▸ h), hfind, hname⟩

/-! ### Objects -/

/-- How far an inquiry has been read, apart from findings. -/
def readSoFar (state : Inquiry × List String) : Inquiry × List String :=
  (Plan.asked state.1, state.2.filter fun name ↦ name ∉ findingKeys)

theorem contains_eq_of_readSoFar (h : readSoFar state = readSoFar same) {name : String}
    (hname : name ∉ findingKeys) : state.2.contains name = same.2.contains name := by
  have hkept : ∀ seen : List String, (seen.filter fun name ↦ name ∉ findingKeys).contains name =
      seen.contains name := by
    intro seen
    rw [Bool.eq_iff_iff, List.contains_iff_mem, List.contains_iff_mem, List.mem_filter]
    simp [hname]
  have hseen := congrArg (List.contains · name) (Prod.mk.inj h).2
  simpa only [hkept] using hseen

/-- An entry with a finding is read, and leaves no trace apart from it. -/
theorem exists_entryInto_finding {entry : String × Json} (hkey : entry.1 ∈ findingKeys)
    (hfit : isFinding entry.1 entry.2 = true) (hnew : entry.1 ∉ state.2) :
    ∃ read, entryInto recordFields state entry = .ok (read, entry.1 :: state.2) ∧
      readSoFar (read, entry.1 :: state.2) = readSoFar state := by
  obtain ⟨field, hfield, hfind, hname⟩ := find?_finding hkey
  obtain ⟨read, hread, hasked⟩ := exists_read_finding hfield (hname ▸ hfit) state.1
  refine ⟨read, ?_, ?_⟩
  · unfold entryInto
    dsimp only
    rw [hfind]
    dsimp only
    rw [hname, if_neg fun hseen ↦ hnew (List.contains_iff_mem.1 hseen), hread, Except.map]
  · rw [readSoFar, readSoFar, hasked, List.filter_cons_of_neg (by simpa using hkey)]

/-- Any other entry is read in the same way, whatever findings were read before. -/
theorem map_entryInto_kept {entry : String × Json} (hkey : entry.1 ∉ findingKeys)
    (hview : readSoFar state = readSoFar same) :
    (entryInto recordFields state entry).map readSoFar =
      (entryInto recordFields same entry).map readSoFar := by
  unfold entryInto
  dsimp only
  cases hfind : recordFields.find? (·.isCalled entry.1) with
  | none => exact congrArg Except.ok hview
  | some field =>
    have hfield := List.mem_of_find?_eq_some hfind
    have hcalled : field.isCalled entry.1 = true := by simpa using List.find?_some hfind
    have hname := name_of_isCalled hfield hcalled
    rw [← hname] at hkey
    dsimp only
    rw [contains_eq_of_readSoFar hview hkey]
    split
    · rfl
    · have hasked := (mem_fields_iff hfield).2.2 hkey
      refine map_bind_congr (readsAlike_asked hasked entry.2 _ _ (Prod.mk.inj hview).1)
        fun first second _ hnext ↦ congrArg Except.ok ?_
      rw [readSoFar, readSoFar, hnext, List.filter_cons_of_pos (by simpa using hkey),
        List.filter_cons_of_pos (by simpa using hkey), (Prod.mk.inj hview).2]

theorem mem_of_entryInto_kept {entry : String × Json} (hkey : entry.1 ∉ findingKeys)
    (h : entryInto recordFields state entry = .ok same) {name : String}
    (hname : name ∈ findingKeys) (hmem : name ∈ same.2) : name ∈ state.2 := by
  unfold entryInto at h
  dsimp only at h
  cases hfind : recordFields.find? (·.isCalled entry.1) with
  | none =>
    rw [hfind] at h
    cases h
    exact hmem
  | some field =>
    have hfield := List.mem_of_find?_eq_some hfind
    have hcalled : field.isCalled entry.1 = true := by simpa using List.find?_some hfind
    rw [hfind] at h
    dsimp only at h
    split at h
    · cases h
    · cases hread : field.read entry.2 state.1 with
      | error mismatch =>
        rw [hread] at h
        cases h
      | ok read =>
        rw [hread] at h
        cases h
        refine (List.mem_cons.1 hmem).resolve_left ?_
        rintro rfl
        exact hkey (name_of_isCalled hfield hcalled ▸ hname)

/-- By induction along the entries. As no key comes twice, no finding is refused for having been read
before. -/
theorem map_foldlM_withoutFindings {entries : Entries} (hsorted : entries.IsSorted)
    (hfit : ∀ entry ∈ entries, isFinding entry.1 entry.2 = true)
    (hnew : ∀ entry ∈ entries, entry.1 ∈ findingKeys → entry.1 ∉ state.2)
    (hview : readSoFar state = readSoFar same) :
    (entries.foldlM (entryInto recordFields) state).map readSoFar =
      ((entries.filter fun entry ↦ entry.1 ∉ findingKeys).foldlM (entryInto recordFields)
        same).map readSoFar := by
  induction entries generalizing state same with
  | nil => exact congrArg Except.ok hview
  | cons entry rest ih =>
    obtain ⟨hfirst, hsorted⟩ := Json.Entries.isSorted_cons.1 hsorted
    obtain ⟨hentry, hrest⟩ := List.forall_mem_cons.1 hfit
    obtain ⟨hentryNew, hrestNew⟩ := List.forall_mem_cons.1 hnew
    rw [List.foldlM_cons]
    by_cases hkey : entry.1 ∈ findingKeys
    · obtain ⟨read, hread, hsame⟩ := exists_entryInto_finding hkey hentry (hentryNew hkey)
      rw [hread, List.filter_cons_of_neg (by simpa using hkey)]
      refine ih hsorted hrest (fun other hother hfinding ↦ ?_) (hsame.trans hview)
      rw [List.mem_cons, not_or]
      exact ⟨(hfirst other hother).ne', hrestNew other hother hfinding⟩
    · rw [List.filter_cons_of_pos (by simpa using hkey), List.foldlM_cons]
      refine map_bind_congr (map_entryInto_kept hkey hview) fun next other hnext hview ↦
        ih hsorted hrest (fun later hlater hfinding hmem ↦ ?_) hview
      exact hrestNew later hlater hfinding (mem_of_entryInto_kept hkey hnext hfinding hmem)

theorem map_asked_ofEntries {entries : Entries} (hsorted : entries.IsSorted)
    (hfit : ∀ entry ∈ entries, isFinding entry.1 entry.2 = true) :
    (Json.Decode.ofEntries recordFields {} entries).map Plan.asked =
      (Json.Decode.ofEntries recordFields {}
        (entries.filter fun entry ↦ entry.1 ∉ findingKeys)).map Plan.asked := by
  rw [Json.Decode.ofEntries_eq, Json.Decode.ofEntries_eq]
  refine map_bind_congr (map_foldlM_withoutFindings hsorted hfit
    (fun _ _ _ hmem ↦ absurd hmem List.not_mem_nil) rfl) fun state same _ hview ↦ ?_
  refine Json.Decode.map_completed_congr (Prod.mk.inj hview).1 fun field hfield hrequired ↦ ?_
  refine contains_eq_of_readSoFar hview fun hname ↦ ?_
  rw [required_of_finding ((mem_fields_iff hfield).1.2 hname)] at hrequired
  cases hrequired

/-! ### Arrays -/

/-- Items for findings only. By induction along the fields. -/
theorem exists_ofItems_findings {fields : List (Json.Decode.Field Inquiry)}
    (hfields : ∀ field ∈ fields, field ∈ findingFields)
    {items : List Json} (hlength : items.length ≤ fields.length)
    (hfit : ∀ item ∈ (fields.map (·.name)).zip items, isFinding item.1 item.2 = true)
    (name : String) (total index : Nat) (record : Inquiry) :
    ∃ read, Json.Decode.ofItems name total index fields items record = .ok read ∧
      Plan.asked read = Plan.asked record := by
  induction fields generalizing items index record with
  | nil =>
    obtain rfl := List.length_eq_zero_iff.1 (Nat.le_zero.1 hlength)
    exact ⟨record, rfl, rfl⟩
  | cons field rest ih =>
    obtain ⟨hfield, hrest⟩ := List.forall_mem_cons.1 hfields
    cases items with
    | nil =>
      rw [Json.Decode.ofItems, required_of_finding hfield, if_neg (by decide)]
      exact ih hrest (Nat.zero_le _) (by simp) (index + 1) record
    | cons item items =>
      rw [List.map_cons, List.zip_cons_cons, List.forall_mem_cons] at hfit
      obtain ⟨read, hread, hasked⟩ := exists_read_finding hfield hfit.1 record
      obtain ⟨final, hfinal, hsame⟩ :=
        ih hrest (Nat.le_of_succ_le_succ hlength) hfit.2 (index + 1) read
      refine ⟨final, ?_, hsame.trans hasked⟩
      rw [Json.Decode.ofItems, hread]
      exact hfinal

theorem map_asked_ofItems {items : List Json} (hlength : items.length ≤ 6)
    (hfit : ∀ item ∈ findingKeys.zip (items.drop 3), isFinding item.1 item.2 = true)
    (name : String) (total : Nat) :
    (Json.Decode.ofItems name total 0 recordFields items {}).map Plan.asked =
      (Json.Decode.ofItems name total 0 recordFields (items.take 3) {}).map Plan.asked := by
  match items with
  | [] | [_] | [_, _] => rfl
  | question :: description :: table :: findings =>
    have hshort : findings.length ≤ findingFields.length := by
      have hthree : findingFields.length = 3 := rfl
      simp only [List.length_cons] at hlength
      omega
    -- The first three items are read in the same way, and the others are findings.
    refine map_bind_congr (readsAlike_asked (.head _) question {} {} rfl) fun first other _ hview ↦
      map_bind_congr (readsAlike_asked (.tail _ (.head _)) description first other hview)
        fun first other _ hview ↦
          map_bind_congr (readsAlike_asked (.tail _ (.tail _ (.head _))) table first other hview)
            fun first other _ hview ↦ ?_
    obtain ⟨read, hread, hasked⟩ :=
      exists_ofItems_findings (fun _ hfield ↦ hfield) hshort hfit name total 3 first
    obtain ⟨same, hsame, hnone⟩ : ∃ read,
        Json.Decode.ofItems name total 3 findingFields [] other = .ok read ∧
          Plan.asked read = Plan.asked other :=
      exists_ofItems_findings (fun _ hfield ↦ hfield) (Nat.zero_le _) (by simp) name total 3 other
    exact (congrArg (Except.map Plan.asked) hread).trans
      ((congrArg Except.ok (hasked.trans (hview.trans hnone.symm))).trans
        (congrArg (Except.map Plan.asked) hsame.symm))

/-- An inquiry that is read asks the same without what a lookup brings. -/
theorem map_asked_ofJson {value : Json} (hordered : value.IsOrdered) (hfit : FindingsFit value) :
    (ofJson value).map Plan.asked = (ofJson (withoutFindings value)).map Plan.asked := by
  cases value with
  | object entries => exact map_asked_ofEntries (Json.isOrdered_object_iff.1 hordered).1 hfit
  | array items =>
    rw [withoutFindings]
    split
    · next hlength => exact map_asked_ofItems hlength hfit _ _
    · rfl
  | _ => rfl

end Inquiry

theorem Json.isOrdered_of_mem_fieldsUnder {keys : List String} {value part : Json}
    (hordered : value.IsOrdered) (hpart : part ∈ fieldsUnder keys value) : part.IsOrdered := by
  cases value with
  | object entries =>
    obtain ⟨entry, hentry, rfl⟩ := List.mem_map.1 hpart
    exact (isOrdered_object_iff.1 hordered).2 entry (List.mem_filter.1 hentry).1
  | array items => exact isOrdered_array_iff.1 hordered part hpart
  | _ => cases hpart

/-! ### Phases -/

namespace Phase

/-- What lookups bring has the right types in all inquiries of a phase. -/
def FindingsFit (value : Json) : Prop :=
  ∀ list ∈ Json.fieldsUnder ["sub_questions"] value, ∀ item ∈ list.asArray?.getD [],
    Inquiry.FindingsFit item

instance decideFindingsFit : DecidablePred FindingsFit := fun _ ↦ List.decidableBAll _ _

/-- A phase without what lookups bring. -/
def withoutFindings : Json → Json :=
  Json.changeFields ["sub_questions"] (Json.changeItems Inquiry.withoutFindings)

/-- What a phase asks. -/
def asks (phase : Phase) : List Inquiry := phase.inquiries.map Plan.asked

theorem map_asks_ofJson {value : Json} (hordered : value.IsOrdered) (hfit : FindingsFit value) :
    (ofJson value).map asks = (ofJson (withoutFindings value)).map asks := by
  refine Json.map_record_changeFields ?_ ?_ "Task" ({} : Phase)
  · simp [recordFields, Json.Decode.Field.isCalled]
  · intro field hfield list hlist record same _
    obtain rfl := List.mem_singleton.1 hfield
    have hlistOrdered := Json.isOrdered_of_mem_fieldsUnder hordered hlist
    cases list with
    | array items =>
      refine map_bind_congr (map_mapM_congr fun item hitem ↦ ?_) fun _ _ _ hview ↦
        congrArg Except.ok hview
      exact Inquiry.map_asked_ofJson (Json.isOrdered_array_iff.1 hlistOrdered item hitem)
        (hfit _ hlist item hitem)
    | _ => rfl

end Phase

/-! ### Plans -/

namespace Plan

/-- What lookups bring has the right types in all inquiries of a plan. -/
def FindingsFit (value : Json) : Prop :=
  ∀ phase ∈ Json.fieldsUnder ["first_task", "second_task"] value, Phase.FindingsFit phase

instance decideFindingsFit : DecidablePred FindingsFit := fun _ ↦ List.decidableBAll _ _

/-- A plan without what lookups bring. -/
def withoutFindings : Json → Json :=
  Json.changeFields ["first_task", "second_task"] Phase.withoutFindings

/-- What a plan asks in both phases. -/
def asks (plan : Plan) : List Inquiry × Option (List Inquiry) :=
  (plan.first.asks, plan.second.map Phase.asks)

theorem map_asks_optional {value : Json} (hordered : value.IsOrdered)
    (hfit : Phase.FindingsFit value) :
    (Json.Decode.optional Phase.ofJson value).map (Option.map Phase.asks) =
      (Json.Decode.optional Phase.ofJson (Phase.withoutFindings value)).map
        (Option.map Phase.asks) := by
  have hsome : ∀ phase : Except Json.Mismatch Phase,
      (phase.map some).map (Option.map Phase.asks) = (phase.map Phase.asks).map some := by
    intro phase
    cases phase <;> rfl
  cases value with
  | null => rfl
  | object entries =>
    exact (hsome _).trans ((congrArg (Except.map some) (Phase.map_asks_ofJson hordered hfit)).trans
      (hsome _).symm)
  | array items =>
    exact (hsome _).trans ((congrArg (Except.map some) (Phase.map_asks_ofJson hordered hfit)).trans
      (hsome _).symm)
  | _ => rfl

/-- A plan that is read asks the same without what lookups bring. -/
theorem map_asks_ofJson {value : Json} (hordered : value.IsOrdered) (hfit : FindingsFit value) :
    (ofJson value).map asks = (ofJson (withoutFindings value)).map asks := by
  refine Json.map_record_changeFields ?_ ?_ "TodoList" ({} : Plan)
  · simp [recordFields, Json.Decode.Field.isCalled]
  · intro field hfield phase hphase record same hview
    obtain ⟨hfirst, hsecond⟩ := Prod.mk.inj hview
    have hphaseOrdered := Json.isOrdered_of_mem_fieldsUnder hordered hphase
    simp only [recordFields, List.mem_cons, List.not_mem_nil, or_false] at hfield
    rcases hfield with rfl | rfl
    · exact map_bind_congr (Phase.map_asks_ofJson hphaseOrdered (hfit phase hphase))
        fun _ _ _ hnext ↦ congrArg Except.ok (Prod.ext hnext hsecond)
    · exact map_bind_congr (map_asks_optional hphaseOrdered (hfit phase hphase))
        fun _ _ _ hnext ↦ congrArg Except.ok (Prod.ext hfirst hnext)

end Plan

end AirInquiry
