import SchedLedger.Proofs.Coherence
import SchedLedger.Replay.Run

/-! What limits leave. Each table is read up to a multiple of the rows that a section shows, and the cost section is
filled up to one. A multiple that is a word is never smaller than a section, so no list falls short of one; past a
quarter of the words there is no multiple, and no list either. -/

namespace SchedLedger

/-- A list that is cut at a multiple of the rows that a section shows: how many there were to choose from, and how
many are left. -/
structure Cut where
  factor : Nat
  candidates : Nat
  kept : Nat

namespace Cut

variable {c : Cut} {k : Nat}

/-- As many are left as a section of `k` rows can show. -/
def Suffices (c : Cut) (k : Nat) : Prop :=
  min k c.candidates ≤ c.kept

def Exact (c : Cut) (k : Nat) : Prop :=
  c.kept = min (c.factor * k) c.candidates

theorem Exact.suffices (h : c.Exact k) (hfactor : 1 ≤ c.factor) : c.Suffices k := by
  have hmultiple : k ≤ c.factor * k := Nat.le_mul_of_pos_left k hfactor
  rw [Suffices, h]
  omega

theorem exact_of_take {α : Type} {factor n : Nat} {xs : List α} (hn : xs.length = n) :
    Exact ⟨factor, n, (xs.take (factor * k)).length⟩ k := by
  rw [Exact, List.length_take, hn]

end Cut

theorem length_ranked {α : Type} (value : α → UInt64) (key : α → Nat) (xs : List α) :
    (ranked value key xs).length = xs.countP fun x => 0 < value x := by
  rw [ranked_perm.length_eq, List.countP_eq_length_filter]

namespace Ledger

variable (l : Ledger)

def busyCount : Nat :=
  l.cpu.entries.countP fun e => 0 < e.2.ns

def handoffCount : Nat :=
  l.handoffs.entries.countP fun e => 0 < e.2

def faultedCount : Nat :=
  l.faults.entries.countP fun e => 0 < e.2.faults

theorem length_cpuRanking : (l.cpuRanking 0).length = l.busyCount := by
  rw [cpuRanking, List.length_map]
  exact length_ranked _ _ _

theorem length_handoffRanking (name : Pid → String) : (l.handoffRanking 0 name).length = l.handoffCount := by
  rw [handoffRanking, List.length_map]
  exact length_ranked _ _ _

theorem length_faultRanking (window : Span) (name : Pid → String) :
    (l.faultRanking 0 window name).length = l.faultedCount := by
  rw [faultRanking, List.length_map]
  exact length_ranked _ _ _

end Ledger

/-- Whether a row may stand in the cost section. -/
def Row.hasCost (r : Row) : Bool :=
  r.faults > 0 || r.cpuMs > 0.0

def Report.cuts (l : Ledger) (reading : Reading) (report : Report) : List Cut :=
  [⟨3, l.busyCount, reading.cpu.length⟩, ⟨4, l.handoffCount, reading.handoffs.length⟩,
    ⟨3, l.faultedCount, reading.faults.length⟩, ⟨2, report.rows.countP Row.hasCost, report.cpuCost.length⟩]

theorem factor_of_mem_cuts {l : Ledger} {reading : Reading} {report : Report} {c : Cut}
    (h : c ∈ Report.cuts l reading report) : 1 ≤ c.factor := by
  simp only [Report.cuts, List.mem_cons, List.not_mem_nil, or_false] at h
  rcases h with rfl | rfl | rfl | rfl <;> dsimp only <;> decide

theorem length_costSection {k : Nat} (hk : 1 ≤ k) (hfits : 2 * k < 2 ^ 64) (rows : List Row) :
    Cut.Exact ⟨2, rows.countP Row.hasCost, (costSection (.ofNat (2 * k)) rows).length⟩ k := by
  have hcut : costSection (.ofNat (2 * k)) rows = (costSection 0 rows).take (2 * k) :=
    keepFirst_eq_take_of_toNat (UInt64.toNat_ofNat_of_lt' hfits) (by omega) _
  rw [hcut]
  refine Cut.exact_of_take ?_
  rw [(costSection_perm rows).length_eq, List.countP_eq_length_filter]
  rfl

/-- As long as four times the rows of a section are a word, every list has as many entries as its multiple allows of
those there are to choose from, and so enough for a section. Otherwise the tables cannot be read, and past half of the
words the cost section cannot be filled either. -/
theorem cuts_of_report (l : Ledger) (s : ReportSettings) (e : Extent) (name : Pid → String)
    (resident : List (Pid × UInt64)) (memory : UInt64) :
    let k := max s.topK.toNat 1
    let read := Reading.ofLedger l s.topK e.window name
    ((∃ reading report, read = .ok reading ∧ Report.build reading e resident memory s = .ok report ∧
        ∀ c ∈ Report.cuts l reading report, c.Exact k ∧ c.Suffices k) ↔ 4 * k < 2 ^ 64) ∧
      (∀ cause, read = .error cause ↔ 2 ^ 64 ≤ 4 * k ∧ cause = .overflow) ∧
      ∀ reading cause,
        Report.build reading e resident memory s = .error cause ↔ 2 ^ 64 ≤ 2 * k ∧ cause = .overflow := by
  intro k read
  refine ⟨⟨?_, fun hfits => ?_⟩, fun cause => Reading.ofLedger_eq_error_iff, fun reading cause =>
    Report.build_eq_error_iff⟩
  · rintro ⟨reading, -, hread, -⟩
    exact (Reading.ofLedger_eq_ok_iff.1 hread).1
  · have hcosts : 2 * k < 2 ^ 64 := by omega
    refine ⟨_, _, Reading.ofLedger_eq_ok_iff.2 ⟨hfits, rfl⟩, Report.build_eq_ok_iff.2 ⟨hcosts, rfl⟩, fun c hc => ?_⟩
    have hexact : c.Exact k := by
      simp only [Report.cuts, List.mem_cons, List.not_mem_nil, or_false] at hc
      rcases hc with rfl | rfl | rfl | rfl
      · exact Cut.exact_of_take l.length_cpuRanking
      · exact Cut.exact_of_take (l.length_handoffRanking name)
      · exact Cut.exact_of_take (l.length_faultRanking e.window name)
      · exact length_costSection (Nat.le_max_right _ _) hcosts _
    exact ⟨hexact, hexact.suffices (factor_of_mem_cuts hc)⟩

/-- Five processes displace each other in turn, and all but the first run for some milliseconds. -/
def roundRobin : Ledger :=
  let events : List Event :=
    [.switch 0 0 1 2, .switch 0 5000000 2 3, .switch 0 9000000 3 4, .switch 0 12000000 4 5, .switch 0 14000000 5 1]
  (Ledger.new 1 .reference).run .leafThenParent (events.map (Replay.action .empty))

namespace roundRobin

def settings (topK : UInt64) : ReportSettings :=
  ⟨topK, false, none, none⟩

def reading (topK : UInt64) : Except Failure Reading :=
  Reading.ofLedger roundRobin (settings topK).topK ⟨14000000⟩ Procs.fallbackName

def report (topK : UInt64) (reading : Reading) : Except Failure Report :=
  Report.build reading ⟨⟨14000000⟩, 1⟩ [] 1 (settings topK)

/-- With one row more than half of all words in a section, neither three, four times nor twice the rows are a word:
none of the entries that are there can be read, and no report can be made. -/
theorem no_multiple_fits :
    (settings 9223372036854775809).topK.toNat = 2 ^ 63 + 1 ∧
      roundRobin.busyCount = 4 ∧ roundRobin.handoffCount = 5 ∧
      reading 9223372036854775809 = .error .overflow ∧
      (∀ read, report 9223372036854775809 read = .error .overflow) ∧
      ¬ ∃ read made, reading 9223372036854775809 = .ok read ∧ report 9223372036854775809 read = .ok made ∧
        ∀ c ∈ Report.cuts roundRobin read made, c.Suffices (2 ^ 63 + 1) := by
  obtain ⟨-, hread, hreport⟩ :=
    cuts_of_report roundRobin (settings 9223372036854775809) ⟨⟨14000000⟩, 1⟩ Procs.fallbackName [] 1
  have hoverflow : reading 9223372036854775809 = .error .overflow := (hread .overflow).2 ⟨by decide, rfl⟩
  refine ⟨by decide, by decide +kernel, by decide +kernel, hoverflow,
    fun read => (hreport read .overflow).2 ⟨by decide, rfl⟩, ?_⟩
  rintro ⟨read, made, hok, -⟩
  cases hoverflow.symm.trans hok

/-- One row less than a quarter of all words is the most that a section can show. -/
theorem lists_suffice :
    (settings 4611686018427387903).topK.toNat + 1 = 2 ^ 62 ∧
      ∃ read made, reading 4611686018427387903 = .ok read ∧ report 4611686018427387903 read = .ok made ∧
        ∀ c ∈ Report.cuts roundRobin read made, c.Suffices (2 ^ 62 - 1) := by
  obtain ⟨⟨-, hfits⟩, -⟩ :=
    cuts_of_report roundRobin (settings 4611686018427387903) ⟨⟨14000000⟩, 1⟩ Procs.fallbackName [] 1
  obtain ⟨read, made, hread, hmade, hcuts⟩ := hfits (by decide)
  exact ⟨by decide, read, made, hread, hmade, fun c hc => (hcuts c hc).2⟩

end roundRobin

end SchedLedger
