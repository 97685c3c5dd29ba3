import AirInquiry.Json.Decode
import Mathlib.Data.List.Find

/-!
# Records that look alike

A view takes from a record what matters of it. If the fields of a record read two values so that the
view is the same (`Json.ReadsAlike`), then the view of the whole record is the same, and where the
one value cannot be read, the other one cannot either, for the same reason
(`Json.map_record_changeFields`).
-/

set_option autoImplicit false
set_option relaxedAutoImplicit false

namespace AirInquiry

variable {ε α β γ δ : Type}

/-- Computations that look alike so far and go on alike look alike in the end. -/
theorem map_bind_congr {first second : Except ε α} {next other : α → Except ε γ} {view : α → β}
    {final : γ → δ} (h : first.map view = second.map view)
    (hnext : ∀ a b, first = .ok a → view a = view b → (next a).map final = (other b).map final) :
    (first >>= next).map final = (second >>= other).map final := by
  cases first with
  | error error =>
    cases second with
    | error other =>
      cases h
      rfl
    | ok _ => cases h
  | ok a =>
    cases second with
    | error _ => cases h
    | ok b => exact hnext a b rfl (Except.ok.inj h)

theorem map_mapM_congr {read : α → Except ε β} {view : β → γ} {change : α → α} {items : List α}
    (h : ∀ item ∈ items, (read item).map view = (read (change item)).map view) :
    (items.mapM read).map (List.map view) = ((items.map change).mapM read).map (List.map view) := by
  induction items with
  | nil => rfl
  | cons item rest ih =>
    obtain ⟨hitem, hrest⟩ := List.forall_mem_cons.1 h
    rw [List.map_cons, List.mapM_cons, List.mapM_cons]
    refine map_bind_congr hitem fun first second _ hview ↦
      map_bind_congr (ih hrest) fun firsts seconds _ hviews ↦ ?_
    exact congrArg Except.ok (congrArg₂ List.cons hview hviews)

namespace Json

namespace Decode

/-- The record once all entries have been read, unless a required field is missing. -/
def completed (fields : List (Field α)) (state : α × List String) : Except Mismatch α :=
  match fields.find? fun field ↦ field.required && !state.2.contains field.name with
  | some field => .error (.missingField field.name)
  | none => .ok state.1

theorem ofEntries_eq (fields : List (Field α)) (empty : α) (entries : Entries) :
    ofEntries fields empty entries =
      entries.foldlM (entryInto fields) (empty, []) >>= completed fields :=
  rfl

theorem map_completed_congr {fields : List (Field α)} {view : α → β} {state same : α × List String}
    (hview : view state.1 = view same.1)
    (hseen : ∀ field ∈ fields, field.required = true →
      state.2.contains field.name = same.2.contains field.name) :
    (completed fields state).map view = (completed fields same).map view := by
  have hfind : (fields.find? fun field ↦ field.required && !state.2.contains field.name) =
      fields.find? fun field ↦ field.required && !same.2.contains field.name := by
    refine List.find?_congr fun field hfield ↦ ?_
    cases hrequired : field.required with
    | false => rfl
    | true => rw [hseen field hfield hrequired]
  rw [completed, completed, hfind]
  split
  · rfl
  · exact congrArg Except.ok hview

end Decode

/-- An entry with its value changed, if it has one of the keys. -/
def changeEntry (keys : List String) (change : Json → Json) (entry : String × Json) :
    String × Json :=
  (entry.1, if entry.1 ∈ keys then change entry.2 else entry.2)

/-- A value with its parts changed: what an object has under some keys, or the items of an array. -/
def changeFields (keys : List String) (change : Json → Json) : Json → Json
  | .object entries => .object (entries.map (changeEntry keys change))
  | .array items => .array (items.map change)
  | other => other

/-- A value with its items changed, if it is an array. -/
def changeItems (change : Json → Json) : Json → Json
  | .array items => .array (items.map change)
  | other => other

/-- The parts of a value: what an object has under some keys, or the items of an array. -/
def fieldsUnder (keys : List String) : Json → List Json
  | .object entries => (entries.filter fun entry ↦ entry.1 ∈ keys).map (·.2)
  | .array items => items
  | _ => []

/-- A field reads two values so that the view of the record is the same, whatever it was. -/
def ReadsAlike (view : α → β) (field : Decode.Field α) (value other : Json) : Prop :=
  ∀ record same, view record = view same →
    (field.read value record).map view = (field.read other same).map view

variable {fields : List (Decode.Field α)} {view : α → β} {change : Json → Json}

/-- By induction along the fields and the items. -/
theorem map_ofItems_map {items : List Json}
    (h : ∀ field ∈ fields, ∀ item ∈ items, ReadsAlike view field item (change item))
    (name : String) (total index : Nat) {record same : α} (hview : view record = view same) :
    (Decode.ofItems name total index fields items record).map view =
      (Decode.ofItems name total index fields (items.map change) same).map view := by
  induction fields generalizing index items record same with
  | nil =>
    cases items with
    | nil => exact congrArg Except.ok hview
    | cons item rest =>
      simp only [Decode.ofItems, List.map_cons, List.length_cons, List.length_map]
  | cons field fields ih =>
    obtain ⟨hfield, hfields⟩ := List.forall_mem_cons.1 h
    cases items with
    | nil =>
      simp only [Decode.ofItems, List.map_nil]
      split
      · rfl
      · exact ih hfields (index + 1) hview
    | cons item rest =>
      obtain ⟨hitem, hrest⟩ := List.forall_mem_cons.1 hfield
      simp only [Decode.ofItems, List.map_cons]
      exact map_bind_congr (hitem record same hview) fun _ _ _ hnext ↦
        ih (fun field hmem ↦ (List.forall_mem_cons.1 (hfields field hmem)).2) (index + 1) hnext

section Keys

variable {keys : List String}
  (hkeys : ∀ field ∈ fields, ∀ key, field.isCalled key = true → key ∈ keys)

include hkeys

/-- One entry: a value that is changed is read by no field or alike. -/
theorem map_entryInto_changeEntry {entry : String × Json}
    (h : entry.1 ∈ keys → ∀ field ∈ fields, ReadsAlike view field entry.2 (change entry.2))
    {state same : α × List String} (hview : Prod.map view id state = Prod.map view id same) :
    (Decode.entryInto fields state entry).map (Prod.map view id) =
      (Decode.entryInto fields same (changeEntry keys change entry)).map (Prod.map view id) := by
  obtain ⟨record, seen⟩ := state
  obtain ⟨other, _⟩ := same
  obtain ⟨hrecord, hseen⟩ := Prod.mk.inj hview
  rw [id, id] at hseen
  subst hseen
  unfold Decode.entryInto changeEntry
  dsimp only
  cases hfind : fields.find? (·.isCalled entry.1) with
  | none => exact congrArg Except.ok (congrArg (·, seen) hrecord)
  | some field =>
    have hfield : field ∈ fields := List.mem_of_find?_eq_some hfind
    have hcalled : field.isCalled entry.1 = true := by simpa using List.find?_some hfind
    have hkey : entry.1 ∈ keys := hkeys field hfield entry.1 hcalled
    dsimp only
    rw [if_pos hkey]
    split
    · rfl
    · exact map_bind_congr (h hkey field hfield record other hrecord) fun _ _ _ hnext ↦
        congrArg Except.ok (congrArg (·, field.name :: seen) hnext)

theorem map_foldlM_changeEntry {entries : Entries}
    (h : ∀ field ∈ fields, ∀ part ∈ fieldsUnder keys (.object entries),
      ReadsAlike view field part (change part))
    {state same : α × List String} (hview : Prod.map view id state = Prod.map view id same) :
    (entries.foldlM (Decode.entryInto fields) state).map (Prod.map view id) =
      ((entries.map (changeEntry keys change)).foldlM (Decode.entryInto fields) same).map
        (Prod.map view id) := by
  induction entries generalizing state same with
  | nil => exact congrArg Except.ok hview
  | cons entry rest ih =>
    rw [List.map_cons, List.foldlM_cons, List.foldlM_cons]
    refine map_bind_congr (map_entryInto_changeEntry hkeys (fun hkey field hfield ↦ ?_) hview)
      fun _ _ _ hnext ↦ ih (fun field hfield part hpart ↦ ?_) hnext
    · refine h field hfield entry.2 ?_
      rw [fieldsUnder, List.filter_cons_of_pos (by simpa using hkey), List.map_cons]
      exact List.mem_cons_self
    · refine h field hfield part ?_
      simp only [fieldsUnder, List.filter_cons] at hpart ⊢
      split
      · exact List.mem_cons_of_mem _ hpart
      · exact hpart

/-- A record that is read from a value with changed parts. Assumes that no field is called by a key
without changes, and that each field reads each part and the changed one alike. -/
theorem map_record_changeFields {value : Json}
    (h : ∀ field ∈ fields, ∀ part ∈ fieldsUnder keys value,
      ReadsAlike view field part (change part)) (name : String) (empty : α) :
    (Decode.record name fields empty value).map view =
      (Decode.record name fields empty (changeFields keys change value)).map view := by
  cases value with
  | object entries =>
    rw [changeFields, Decode.record, Decode.record, Decode.ofEntries_eq, Decode.ofEntries_eq]
    refine map_bind_congr (map_foldlM_changeEntry hkeys h rfl) fun state same _ hsame ↦ ?_
    obtain ⟨hview, hseen⟩ := Prod.mk.inj hsame
    rw [id, id] at hseen
    exact Decode.map_completed_congr hview fun _ _ _ ↦ by rw [hseen]
  | array items => exact map_ofItems_map h name fields.length 0 rfl
  | _ => rfl

end Keys

end Json

end AirInquiry
