import AirInquiry.Json.Printer
import AirInquiry.Text.Search

/-!
# Answers without a language model

When no answer can be had from the language model, the data itself is listed: for every table with
rows their number and the first of them. A row is shown by what is known about such rows, namely the
index of air quality, a name with its identifier, the fine dust, or else all of its entries.
-/

set_option autoImplicit false
set_option relaxedAutoImplicit false

namespace AirInquiry.Answer

/-- The answer when no data was found. -/
def noDataText : String := "Tôi không tìm thấy dữ liệu để trả lời câu hỏi của bạn."

/-- The answer when data was found but none of it is a list of rows. -/
def unlistedText : String := "Tôi tìm thấy dữ liệu nhưng không thể định dạng được."

/-- The number of rows of a table that are shown. -/
def shownRows : Nat := 5

/-- A value inside a sentence: a text as it is, and everything else as JSON. -/
def plainText : Json → String
  | .string text => text
  | value => value.compact

/-- The value under a key inside a sentence, if there is one. -/
def entryText (row : Json.Entries) (key : String) : Option String := (row.get? key).map plainText

/-- The value under a key inside a sentence, or the note that there is none. -/
def entryOrNote (row : Json.Entries) (key : String) : String := (entryText row key).getD "N/A"

/-- The district of a row: its name, or else its identifier. -/
def districtText (row : Json.Entries) : String :=
  match (row.get? "district").bind fun district ↦ district.get? "name" with
  | some name => plainText name
  | none => "ID " ++ entryOrNote row "district_id"

/-- A row with an index of air quality. -/
def indexText? (row : Json.Entries) : Option String :=
  (row.get? "aqi_value").map fun value ↦
    districtText row ++ ": AQI " ++ plainText value ++ " (" ++ entryOrNote row "date" ++ " " ++
      entryOrNote row "hour" ++ "h)"

/-- A row with a name and an identifier. -/
def nameText? (row : Json.Entries) : Option String := do
  let name ← entryText row "name"
  let identifier ← entryText row "id"
  pure (name ++ " (ID: " ++ identifier ++ ")")

/-- The fine dust of a row. -/
def dustParts (row : Json.Entries) : List String :=
  [("pm25_value", "PM2.5"), ("pm10_value", "PM10")].filterMap fun (key, label) ↦
    (entryText row key).map fun value ↦ label ++ ": " ++ value ++ "µg/m³"

/-- A row with fine dust. -/
def dustText? (row : Json.Entries) : Option String :=
  match dustParts row with
  | [] => none
  | parts => some (Text.join ", " parts)

/-- All entries of a row. -/
def entriesText (row : Json.Entries) : String :=
  Text.join ", " (row.map fun entry ↦ entry.1 ++ ": " ++ plainText entry.2)

/-- A row of a table. -/
def rowText : Json → String
  | .object row =>
    (((indexText? row).or (nameText? row)).or (dustText? row)).getD (entriesText row)
  | value => plainText value

/-- The lines for a table with at least one row. -/
def tableLines (table : String) (rows : List Json) : List String :=
  let hidden := rows.length - shownRows
  ["Dữ liệu từ " ++ table ++ ": tìm thấy " ++ toString rows.length ++ " kết quả"] ++
    (rows.take shownRows).map (fun row ↦ "  - " ++ rowText row) ++
    (if hidden = 0 then [] else ["  ... và " ++ toString hidden ++ " kết quả khác"])

/-- Whether a value shows that something was found. -/
def hasContent : Json → Bool
  | .array items => !items.isEmpty
  | .object entries => !entries.isEmpty
  | .null => false
  | _ => true

/-- The lines for all tables with rows. -/
def dataLines (data : Json.Entries) : List String :=
  data.flatMap fun (table, value) ↦
    match value with
    | .array (first :: rest) => tableLines table (first :: rest)
    | _ => []

/-- The answer that lists the data. -/
def fallback (data : Json.Entries) : String :=
  if data.any fun entry ↦ hasContent entry.2 then
    match dataLines data with
    | [] => unlistedText
    | lines => Text.join "\n" lines
  else noDataText

end AirInquiry.Answer
