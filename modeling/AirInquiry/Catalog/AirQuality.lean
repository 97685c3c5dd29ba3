import AirInquiry.Catalog.Basic

/-!
# The tables of air quality

Provinces, districts, the readings of each district and the measurements of single pollutants.
-/

set_option autoImplicit false
set_option relaxedAutoImplicit false

namespace AirInquiry.Catalog

/-- A field with a value of its own. -/
def scalar (name description : String) : TableField := ⟨name, description, .scalar⟩

/-- The provinces. -/
def provinces : Table where
  name := "provinces"
  description :=
    "Province-level administrative data (id, name, normalized_name, administrative_id)."
  fields :=
    [scalar "id" "Unique identifier (text) of the province",
      scalar "name" "Vietnamese name of the province, e.g. \"Hà Nội\"",
      scalar "normalized_name" "Lower-cased name of the province for searching",
      scalar "administrative_id" "Administrative code of the province",
      scalar "created_at" "Timestamp when the record was created",
      ⟨"districts", "Districts belonging to this province", .list "districts"⟩]

/-- The districts. -/
def districts : Table where
  name := "districts"
  description := "District metadata only (id, name, province_id, normalized_name). " ++
    "Does NOT contain AQI values."
  fields :=
    [scalar "id"
        "Unique identifier (text) of the district, joins with distric_stats.district_id",
      scalar "name" "Vietnamese name of the district, e.g. \"Ba Đình\", \"Hoàn Kiếm\"",
      scalar "normalized_name" "Lower-cased name of the district for searching",
      scalar "administrative_id" "Administrative code of the district",
      scalar "province_id" "Foreign key (text) to provinces",
      scalar "created_at" "Timestamp when the record was created"]

/-- The readings of the districts. -/
def districtReadings : Table where
  name := "distric_stats"
  description := "PRIMARY table for AQI queries: current and historical AQI per district, " ++
    "date and hour."
  fields :=
    [scalar "id" "Unique identifier (integer) of the statistics record",
      scalar "district_id" "Foreign key (text) to districts",
      scalar "date"
        "Measurement date (YYYY-MM-DD); latest data: order by date desc, hour desc",
      scalar "hour" "Measurement hour of day (0-23)",
      scalar "component_id" "Foreign key (integer) to air_component",
      scalar "aqi_value" "Air Quality Index (0-500); higher is worse",
      scalar "pm25_value" "PM2.5 concentration (µg/m³)",
      scalar "created_at" "Timestamp when the record was created",
      ⟨"district", "Related district; select name to include the district name",
        .object "districts"⟩]

/-- The measurements of pollutants. -/
def pollutants : Table where
  name := "air_component"
  description := "Detailed pollutant measurements (PM2.5, PM10, O3, NO2, SO2, CO) per date " ++
    "and hour."
  fields :=
    [scalar "id" "Unique identifier (integer) of the component record",
      scalar "date" "Measurement date (YYYY-MM-DD)",
      scalar "hour" "Measurement hour of day (0-23)",
      scalar "pm25_value" "PM2.5 concentration (µg/m³)",
      scalar "pm10_value" "PM10 concentration (µg/m³)",
      scalar "o3_value" "Ozone concentration (µg/m³)",
      scalar "no2_value" "Nitrogen dioxide concentration (µg/m³)",
      scalar "so2_value" "Sulfur dioxide concentration (µg/m³)",
      scalar "co_value" "Carbon monoxide concentration (mg/m³)",
      scalar "created_at" "Timestamp when the record was created"]

/-- The catalog of air quality. -/
def airQuality : Catalog := ofTables [provinces, districts, districtReadings, pollutants]

end AirInquiry.Catalog
