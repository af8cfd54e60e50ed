import SchedLedger.Proofs.Ranking
import SchedLedger.Report.Build

/-! The limits of a report are multiples of the rows that a section shows. One that does not fit into a word stops the
report; any other cuts a list to just as many entries. -/

namespace SchedLedger

theorem toNat_max_one (n : UInt64) : (max n 1).toNat = max n.toNat 1 := by
  rw [show max n 1 = if n ≤ 1 then 1 else n from rfl]
  split
  · next hle => exact (Nat.max_eq_right (UInt64.le_iff_toNat_le.1 hle)).symm
  · next hlt =>
    rw [UInt64.le_iff_toNat_le] at hlt
    exact (Nat.max_eq_left (Nat.le_of_lt (Nat.not_le.1 hlt))).symm

theorem ReportSettings.toNat_limit (s : ReportSettings) : s.limit.toNat = max s.topK.toNat 1 :=
  toNat_max_one s.topK

theorem keepFirst_eq_take_of_toNat {α : Type} {limit : UInt64} {n : Nat} (h : limit.toNat = n) (hn : 1 ≤ n)
    (xs : List α) : keepFirst limit xs = xs.take n := by
  have hne : limit ≠ 0 := by
    rintro rfl
    exact absurd (h ▸ hn) (by decide)
  rw [keepFirst_eq_take hne, h]

/-- A multiple of the rows that a section shows, as a word if it is one. -/
theorem limitOf_eq (factor topK : UInt64) :
    limitOf factor topK =
      if factor.toNat * max topK.toNat 1 < 2 ^ 64 then .ok (.ofNat (factor.toNat * max topK.toNat 1))
      else .error .overflow := by
  unfold limitOf
  cases hproduct : product? (max topK 1) factor with
  | some limit =>
    obtain ⟨-, hlimit⟩ := product?_eq_some_iff.1 hproduct
    rw [toNat_max_one, Nat.mul_comm] at hlimit
    rw [← hlimit, if_pos limit.toNat_lt, UInt64.ofNat_toNat]
  | none =>
    have hlarge := product?_eq_none_iff.1 hproduct
    rw [toNat_max_one, Nat.mul_comm] at hlarge
    exact (if_neg (Nat.not_lt.2 hlarge)).symm

namespace Reading

/-- The first entries of each table, of the pairs more than of the others. -/
def front (l : Ledger) (k : Nat) (window : Span) (name : Pid → String) : Reading where
  cpu := (l.cpuRanking 0).take (3 * k)
  handoffs := (l.handoffRanking 0 name).take (4 * k)
  faults := (l.faultRanking 0 window name).take (3 * k)
  usage := l.usage

variable {l : Ledger} {topK : UInt64} {window : Span} {name : Pid → String} {reading : Reading} {cause : Failure}

theorem upTo_eq_front {k : Nat} {entities handoffs : UInt64} (hk : 1 ≤ k) (hentities : entities.toNat = 3 * k)
    (hhandoffs : handoffs.toNat = 4 * k) : upTo l entities handoffs window name = front l k window name := by
  rw [upTo, front, l.cpuRanking_eq_keepFirst, l.handoffRanking_eq_keepFirst, l.faultRanking_eq_keepFirst,
    keepFirst_eq_take_of_toNat hentities (by omega), keepFirst_eq_take_of_toNat hentities (by omega),
    keepFirst_eq_take_of_toNat hhandoffs (by omega)]

/-- The limit for the pairs is the greater one, so it decides whether the tables can be read. -/
theorem ofLedger_eq (l : Ledger) (topK : UInt64) (window : Span) (name : Pid → String) :
    ofLedger l topK window name =
      if 4 * max topK.toNat 1 < 2 ^ 64 then .ok (front l (max topK.toNat 1) window name)
      else .error .overflow := by
  rw [ofLedger, limitOf_eq, limitOf_eq, show (3 : UInt64).toNat = 3 from rfl, show (4 : UInt64).toNat = 4 from rfl]
  by_cases hfits : 4 * max topK.toNat 1 < 2 ^ 64
  · have hentities : 3 * max topK.toNat 1 < 2 ^ 64 := by omega
    rw [if_pos hentities, if_pos hfits, if_pos hfits]
    exact congrArg Except.ok (upTo_eq_front (Nat.le_max_right _ _) (UInt64.toNat_ofNat_of_lt' hentities)
      (UInt64.toNat_ofNat_of_lt' hfits))
  · rw [if_neg hfits, if_neg hfits]
    split <;> rfl

theorem ofLedger_eq_ok_iff :
    ofLedger l topK window name = .ok reading ↔
      4 * max topK.toNat 1 < 2 ^ 64 ∧ reading = front l (max topK.toNat 1) window name := by
  rw [ofLedger_eq]
  split <;> grind

theorem ofLedger_eq_error_iff :
    ofLedger l topK window name = .error cause ↔ 2 ^ 64 ≤ 4 * max topK.toNat 1 ∧ cause = .overflow := by
  rw [ofLedger_eq, ← Nat.not_lt]
  split <;> grind

end Reading

namespace Report

variable {reading : Reading} {e : Extent} {resident : List (Pid × UInt64)} {memory : UInt64} {s : ReportSettings}
  {report : Report} {cause : Failure}

theorem build_eq (reading : Reading) (e : Extent) (resident : List (Pid × UInt64)) (memory : UInt64)
    (s : ReportSettings) :
    build reading e resident memory s =
      if 2 * max s.topK.toNat 1 < 2 ^ 64 then
        .ok (upTo (.ofNat (2 * max s.topK.toNat 1)) reading e resident memory s)
      else .error .overflow := by
  rw [build, limitOf_eq, show (2 : UInt64).toNat = 2 from rfl]
  split <;> rfl

theorem build_eq_ok_iff :
    build reading e resident memory s = .ok report ↔
      2 * max s.topK.toNat 1 < 2 ^ 64 ∧
        report = upTo (.ofNat (2 * max s.topK.toNat 1)) reading e resident memory s := by
  rw [build_eq]
  split <;> grind

theorem build_eq_error_iff :
    build reading e resident memory s = .error cause ↔ 2 ^ 64 ≤ 2 * max s.topK.toNat 1 ∧ cause = .overflow := by
  rw [build_eq, ← Nat.not_lt]
  split <;> grind

theorem exists_report_iff {l : Ledger} {topK : UInt64} {window : Span} {name : Pid → String} :
    (∃ reading report, Reading.ofLedger l topK window name = .ok reading ∧
        build reading e resident memory s = .ok report) ↔
      4 * max topK.toNat 1 < 2 ^ 64 ∧ 2 * max s.topK.toNat 1 < 2 ^ 64 := by
  simp only [Reading.ofLedger_eq_ok_iff, build_eq_ok_iff]
  grind

end Report

end SchedLedger
