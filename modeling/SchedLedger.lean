import SchedLedger.Host.FileTree
import SchedLedger.Main
import SchedLedger.Proofs.Admission
import SchedLedger.Proofs.Table
import SchedLedger.Proofs.Journal
import SchedLedger.Proofs.Ledger
import SchedLedger.Proofs.Account
import SchedLedger.Proofs.CpuTime
import SchedLedger.Proofs.Room
import SchedLedger.Proofs.Interleaving
import SchedLedger.Proofs.Windows
import SchedLedger.Proofs.Intervals
import SchedLedger.Proofs.Ranking
import SchedLedger.Proofs.Rows
import SchedLedger.Proofs.Figures
import SchedLedger.Proofs.FirstCome
import SchedLedger.Proofs.Padded
import SchedLedger.Proofs.Resolver
import SchedLedger.Proofs.Records
import SchedLedger.Proofs.Freeze
import SchedLedger.Proofs.Attribution
import SchedLedger.Proofs.Section
import SchedLedger.Proofs.Partition
import SchedLedger.Proofs.Handoff
import SchedLedger.Proofs.Totals
import SchedLedger.Proofs.Counts
import SchedLedger.Proofs.Reachable
import SchedLedger.Proofs.Acceptance
import SchedLedger.Proofs.MachineTime
import SchedLedger.Proofs.LineByLine
import SchedLedger.Proofs.LastSwitch
import SchedLedger.Proofs.Placement
import SchedLedger.Proofs.Streams
import SchedLedger.Proofs.Canonical
import SchedLedger.Proofs.TwoHops
import SchedLedger.Proofs.Declarations
import SchedLedger.Proofs.Utf8
import SchedLedger.Proofs.SpelledText
import SchedLedger.Proofs.SpelledValues
import SchedLedger.Proofs.SpelledRecords
import SchedLedger.Proofs.RecordFields
import SchedLedger.Proofs.Recording
import SchedLedger.Proofs.Coherence
import SchedLedger.Proofs.Focus
import SchedLedger.Proofs.GroupFilter
import SchedLedger.Proofs.Cuts
import SchedLedger.Proofs.NormalSettings
import SchedLedger.Proofs.ResidentSizes
import SchedLedger.Proofs.Samples
import SchedLedger.Proofs.StableNames
import SchedLedger.Proofs.WrittenText
import SchedLedger.Proofs.AlignedColumns
