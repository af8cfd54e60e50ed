import SchedLedger.Account.Slots

/-! Findings: what the behaviour of a process during a window amounts to. -/

namespace SchedLedger

inductive Finding
  | oomRisk
  | cpuBound
  | memThrashing
  | starved
  | noisyNeighbor
  | ok
deriving DecidableEq, Inhabited, Repr

namespace Finding

def name : Finding → String
  | .oomRisk => "oom_risk"
  | .cpuBound => "cpu_bound"
  | .memThrashing => "mem_thrashing"
  | .starved => "starved"
  | .noisyNeighbor => "noisy_neighbor"
  | .ok => "ok"

def label : Finding → String
  | .oomRisk => "OOM risk - memory growth"
  | .cpuBound => "CPU-bound"
  | .memThrashing => "Mem-thrashing"
  | .starved => "Starved"
  | .noisyNeighbor => "Noisy neighbor"
  | .ok => "OK"

/-- The weight of a finding in the choice of the focus. The risk of running out of memory is shown
with its row, and does not outrank what concerns the scheduler. -/
def severity : Finding → Nat
  | .memThrashing => 4
  | .starved => 3
  | .noisyNeighbor => 2
  | .cpuBound => 1
  | .oomRisk | .ok => 0

end Finding
end SchedLedger
