import SchedLedger.Report.Build
import SchedLedger.Settings.Limits

/-! The settings of a run, their normal form, and what the command line may change. -/

namespace SchedLedger

structure Settings where
  capacities : Capacities
  report : ReportSettings
  procsRoot : String
deriving DecidableEq, Repr

structure Overrides where
  topK : Option UInt64
  showKernel : Bool
  groupFilter : Option String
deriving DecidableEq, Repr

namespace ReportSettings

def normal (s : ReportSettings) : ReportSettings :=
  { s with topK := max s.topK 1, groupFilter := normalText s.groupFilter }

/-- Kernel threads can be shown by an override, not hidden. -/
def override (s : ReportSettings) (o : Overrides) : ReportSettings :=
  { s with
    topK := o.topK.getD s.topK
    hideKernel := s.hideKernel && !o.showKernel
    groupFilter := o.groupFilter <|> s.groupFilter }

end ReportSettings

namespace Settings

def standard : Settings :=
  ⟨.reference, .standard, "/proc"⟩

instance : Inhabited Settings := ⟨standard⟩

def normal (s : Settings) : Settings :=
  { s with report := s.report.normal }

def withOverrides (s : Settings) (o : Overrides) : Settings :=
  normal { s with report := s.report.override o }

def accept (s : Settings) : Except SettingsError Settings := do
  s.capacities.check
  return s.normal

end Settings
end SchedLedger
