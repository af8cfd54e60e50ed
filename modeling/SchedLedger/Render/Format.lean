import SchedLedger.Json.Printer
import SchedLedger.Render.Exposition
import SchedLedger.Render.Sheet
import SchedLedger.Report.Data
import SchedLedger.Yaml.Printer

/-! The formats of a report. -/

namespace SchedLedger

inductive ReportFormat
  | table
  | json
  | yaml
  | prometheus
deriving DecidableEq, Inhabited, Repr

namespace ReportFormat

def all : List ReportFormat :=
  [.table, .json, .yaml, .prometheus]

def name : ReportFormat → String
  | .table => "table"
  | .json => "json"
  | .yaml => "yaml"
  | .prometheus => "prometheus"

def ofName? (name : String) : Option ReportFormat :=
  all.find? (·.name = name)

end ReportFormat

def Report.render (r : Report) : ReportFormat → String
  | .table => r.sheet
  | .json => Json.pretty r.toData ++ "\n"
  | .yaml => Yaml.render r.toData
  | .prometheus => r.exposition

/-- Consecutive reports as one document. The Prometheus format knows no history and shows the last
one. -/
def renderWindows (rs : List Report) : ReportFormat → String
  | .table => "\n".intercalate (rs.map Report.sheet)
  | .json => Json.pretty (.list (rs.map Report.toData)) ++ "\n"
  | .yaml => Yaml.render (.list (rs.map Report.toData))
  | .prometheus =>
    match rs.getLast? with
    | some r => r.exposition
    | none => ""

end SchedLedger
