import SchedLedger.Proofs.Coherence
import SchedLedger.Proofs.WholeFloats
import Mathlib.Data.List.MinMax

/-! The choice of the focus. Severity counts a thousand and processor time its per cent, and the first row with the
most of both together is chosen. So the gravest finding has the focus as long as no lesser one has so much more
processor time that it makes up for its severity. -/

namespace SchedLedger

/-- The row stands at a place among others at which none that has a property goes before it: those in front of it
weigh less, and those behind it no more. -/
def Leads (weight : Row → Nat) (p : Row → Prop) (rows : List Row) (row : Row) : Prop :=
  ∃ before after, rows = before ++ row :: after ∧
    (∀ r ∈ before, p r → weight r < weight row) ∧ ∀ r ∈ after, p r → weight r ≤ weight row

namespace Leads

variable {weight : Row → Nat} {p q : Row → Prop} {rows : List Row} {row other : Row}

theorem imp (h : Leads weight p rows row) (hpq : ∀ r, q r → p r) : Leads weight q rows row := by
  obtain ⟨before, after, hrows, hbefore, hafter⟩ := h
  exact ⟨before, after, hrows, fun r hr hq => hbefore r hr (hpq r hq), fun r hr hq => hafter r hr (hpq r hq)⟩

theorem of_forall_lt (hrow : row ∈ rows) (h : ∀ r ∈ rows, p r → weight r < weight row) :
    Leads weight p rows row := by
  obtain ⟨before, after, rfl⟩ := List.append_of_mem hrow
  exact ⟨before, after, rfl, fun r hr => h r (by simp [hr]), fun r hr hp => Nat.le_of_lt (h r (by simp [hr]) hp)⟩

theorem snoc (h : Leads weight p rows row) (hle : weight other ≤ weight row) :
    Leads weight p (rows ++ [other]) row := by
  obtain ⟨before, after, rfl, hbefore, hafter⟩ := h
  refine ⟨before, after ++ [other], by simp, hbefore, fun r hr hp => ?_⟩
  rcases List.mem_append.1 hr with hr | hr
  · exact hafter r hr hp
  · rw [List.mem_singleton.1 hr]
    exact hle

theorem of_argmax (h : rows.argmax weight = some row) : Leads weight (fun _ => True) rows row := by
  induction rows using List.reverseRecOn generalizing row with
  | nil => nomatch h
  | append_singleton rows last ih =>
    rw [List.argmax_concat] at h
    cases hbest : rows.argmax weight with
    | none =>
      rw [hbest] at h
      obtain rfl := Option.some.inj h
      rw [List.argmax_eq_none.1 hbest]
      exact ⟨[], [], rfl, by simp, by simp⟩
    | some best =>
      simp only [hbest] at h
      split_ifs at h with hlt
      · obtain rfl := Option.some.inj h
        exact ⟨rows, [], rfl, fun r hr _ => (List.le_of_mem_argmax hr hbest).trans_lt hlt, by simp⟩
      · obtain rfl := Option.some.inj h
        exact (ih hbest).snoc (Nat.not_lt.1 hlt)

theorem places {b₁ a₁ b₂ a₂ : List Row} (h : b₁ ++ row :: a₁ = b₂ ++ other :: a₂) (hne : row ≠ other) :
    (row ∈ b₂ ∧ other ∈ a₁) ∨ (row ∈ a₂ ∧ other ∈ b₁) := by
  induction b₁ generalizing b₂ with
  | nil =>
    cases b₂ with
    | nil => exact absurd (List.cons.inj h).1 hne
    | cons x b₂ =>
      obtain ⟨rfl, rfl⟩ := List.cons.inj h
      exact .inl ⟨List.mem_cons_self, by simp⟩
  | cons x b₁ ih =>
    cases b₂ with
    | nil =>
      obtain ⟨rfl, rfl⟩ := List.cons.inj h
      exact .inr ⟨by simp, List.mem_cons_self⟩
    | cons y b₂ =>
      rcases ih (List.cons.inj h).2 with ⟨hrow, hother⟩ | ⟨hrow, hother⟩
      · exact .inl ⟨List.mem_cons_of_mem _ hrow, hother⟩
      · exact .inr ⟨hrow, List.mem_cons_of_mem _ hother⟩

theorem asymm (h : Leads weight (fun _ => True) rows row) (hother : Leads weight p rows other) (hp : p row) :
    row = other := by
  by_contra hne
  obtain ⟨b₁, a₁, hrows, hbefore, hafter⟩ := h
  obtain ⟨b₂, a₂, hrows', hbefore', hafter'⟩ := hother
  rcases places (hrows.symm.trans hrows') hne with ⟨hrow, hmem⟩ | ⟨hrow, hmem⟩
  · exact absurd (hafter other hmem trivial) (Nat.not_le.2 (hbefore' row hrow hp))
  · exact absurd (hafter' row hrow hp) (Nat.not_le.2 (hbefore other hmem trivial))

end Leads

theorem foldl_bestBy_eq_argmax {value : Row → Float} {weight : Row → Nat} {rows : List Row}
    (hwhole : ∀ r ∈ rows, IsWhole (value r) (weight r)) :
    rows.foldl (bestBy value) none = rows.argmax weight := by
  induction rows using List.reverseRecOn with
  | nil => rfl
  | append_singleton rows last ih =>
    have hlast := hwhole last (by simp)
    have hrows : ∀ r ∈ rows, IsWhole (value r) (weight r) := fun r hr => hwhole r (by simp [hr])
    rw [List.foldl_append, List.foldl_cons, List.foldl_nil, ih hrows, List.argmax_concat]
    cases hbest : rows.argmax weight with
    | none => rfl
    | some best =>
      have hle := hlast.le_iff (hrows best (List.argmax_mem hbest))
      by_cases h : weight last ≤ weight best
      · rw [bestBy, if_pos (hle.2 h)]
        exact (if_neg (Nat.not_lt.2 h)).symm
      · rw [bestBy, if_neg (mt hle.1 h)]
        exact (if_pos (Nat.not_le.1 h)).symm

namespace Row

/-- The processor time of a row is a whole number of per cent below 2^50. Whether a zero has a sign is left open. -/
def HasPercent (r : Row) (percent : Nat) : Prop :=
  (r.cpuPercent == Float.ofNat percent) = true ∧ percent < 2 ^ 50

instance (r : Row) (percent : Nat) : Decidable (r.HasPercent percent) :=
  inferInstanceAs (Decidable (_ ∧ _))

/-- The score in whole numbers. -/
def weight (percent : Row → Nat) (r : Row) : Nat :=
  r.finding.severity * 1000 + percent r

theorem severity_le (r : Row) : r.finding.severity ≤ 4 := by
  cases r.finding <;> decide

theorem isWhole_score {percent : Row → Nat} {r : Row} (h : r.HasPercent (percent r)) :
    IsWhole r.score (weight percent r) := by
  obtain ⟨hequal, hbound⟩ := h
  have hseverity := r.severity_le
  have hthousands : IsWhole (Float.ofNat r.finding.severity * 1000.0) (r.finding.severity * 1000) :=
    (isWhole_ofNat (by omega)).mul isWhole_thousand (by omega)
  exact hthousands.add_of_beq hequal (by omega)

theorem isQuiet_of_severe {r : Row} (h : 1 ≤ r.finding.severity) : r.isQuiet = false := by
  have hne : (r.finding.severity == 0) = false := by simpa using Nat.ne_of_gt h
  rw [isQuiet, hne]
  rfl

end Row

/-- The rows among which the focus is chosen, if there are any. -/
def loudRows (rows : List Row) : List Row :=
  rows.filter fun r => !r.isQuiet

/-- No row has a graver finding. -/
def Gravest (rows : List Row) (r : Row) : Prop :=
  ∀ other ∈ rows, other.finding.severity ≤ r.finding.severity

section Rows

variable {rows : List Row} {percent : Row → Nat}

theorem exists_gravest (h : ∃ r ∈ rows, 1 ≤ r.finding.severity) : ∃ r ∈ loudRows rows, Gravest rows r := by
  obtain ⟨severe, hsevere, hone⟩ := h
  cases hbest : rows.argmax (fun r : Row => r.finding.severity) with
  | none => simp [List.argmax_eq_none.1 hbest] at hsevere
  | some r =>
    have hgravest : Gravest rows r := fun other hother =>
      List.le_of_mem_argmax (f := fun r : Row => r.finding.severity) hother hbest
    have hloud := Row.isQuiet_of_severe (hone.trans (hgravest severe hsevere))
    exact ⟨r, List.mem_filter.2 ⟨List.argmax_mem hbest, by rw [hloud]; rfl⟩, hgravest⟩

theorem focusRow_eq_argmax (hwhole : ∀ r ∈ rows, r.HasPercent (percent r)) (hloud : loudRows rows ≠ []) :
    focusRow rows = (loudRows rows).argmax (Row.weight percent) := by
  have hbest : (loudRows rows).foldl (bestBy Row.score) none = (loudRows rows).argmax (Row.weight percent) :=
    foldl_bestBy_eq_argmax fun r hr => Row.isWhole_score (hwhole r (List.mem_filter.1 hr).1)
  cases hchosen : (loudRows rows).argmax (Row.weight percent) with
  | none => exact absurd (List.argmax_eq_none.1 hchosen) hloud
  | some chosen =>
    rw [hchosen, loudRows] at hbest
    rw [focusRow, hbest]

end Rows

/-- The focus is the first row with the most of severity and processor time, and its finding is the gravest just if
some row with a gravest finding is led by no lesser one. Below a thousand per cent none can lead it. -/
theorem focus_is_gravest (rows : List Row) (percent : Row → Nat) (hwhole : ∀ r ∈ rows, r.HasPercent (percent r))
    (hsevere : ∃ r ∈ rows, 1 ≤ r.finding.severity) :
    ∃ chosen, focusRow rows = some chosen ∧ (loudRows rows).argmax (Row.weight percent) = some chosen ∧
      (Gravest rows chosen ↔ ∃ row, Gravest rows row ∧
        Leads (Row.weight percent) (·.finding.severity < row.finding.severity) (loudRows rows) row) ∧
      ((∀ r ∈ rows, percent r < 1000) → Gravest rows chosen) := by
  obtain ⟨grave, hgrave, hgravest⟩ := exists_gravest hsevere
  have hloud : loudRows rows ≠ [] := List.ne_nil_of_mem hgrave
  have hfocus := focusRow_eq_argmax hwhole hloud
  have hsome : (loudRows rows).argmax (Row.weight percent) ≠ none := mt List.argmax_eq_none.1 hloud
  obtain ⟨chosen, hchosen⟩ := Option.ne_none_iff_exists'.1 hsome
  have hleads : Leads (Row.weight percent) (fun _ => True) (loudRows rows) chosen := .of_argmax hchosen
  have hiff : Gravest rows chosen ↔ ∃ row, Gravest rows row ∧
      Leads (Row.weight percent) (·.finding.severity < row.finding.severity) (loudRows rows) row := by
    refine ⟨fun h => ⟨chosen, h, hleads.imp fun _ _ => trivial⟩, ?_⟩
    rintro ⟨row, hrow, hled⟩ other hother
    refine (hrow other hother).trans (Nat.le_of_not_lt fun hless => ?_)
    -- were the chosen row a lesser one, each of the two would go before the other
    rw [hleads.asymm hled hless] at hless
    exact Nat.lt_irrefl _ hless
  refine ⟨chosen, hfocus.trans hchosen, hchosen, hiff, fun hsmall => hiff.2 ⟨grave, hgravest, ?_⟩⟩
  refine .of_forall_lt hgrave fun r hr hless => ?_
  have hpercent := hsmall r (List.mem_filter.1 hr).1
  simp only [Row.weight]
  omega

/-- The rows of a window of a millisecond. Process 5 leaves its unit in it after a run that began long before, and
all of that run counts; process 6, by which it was displaced, had the unit for most of the window. -/
def overrun (ns : UInt64) : List Row :=
  Reading.rows ⟨⟨1000000⟩, 1⟩ [] 1073741824
    { cpu := [⟨5, "batch", "", ns⟩, ⟨6, "spin", "", 600000⟩]
      faults := []
      handoffs := [⟨5, "batch", 6, "spin", 1⟩]
      usage := [] }

def overrun.percent (ns : UInt64) (r : Row) : Nat :=
  if r.pid = 5 then ns.toNat / 10000 else 60

/-- After thirty milliseconds a process with nothing to report has the focus, and one with a finding has not. -/
theorem focus_goes_to_long_run :
    (∀ r ∈ overrun 30000000, r.HasPercent (overrun.percent 30000000 r)) ∧
      (∃ r ∈ overrun 30000000, 1 ≤ r.finding.severity) ∧
      ∃ chosen, focusRow (overrun 30000000) = some chosen ∧ chosen.finding = .ok ∧
        ¬ Gravest (overrun 30000000) chosen := by
  have hsevere : ∃ r ∈ overrun 30000000, 1 ≤ r.finding.severity := by decide +kernel
  have hfocus : (focusRow (overrun 30000000)).map (·.finding) = some .ok := by decide +kernel
  obtain ⟨chosen, hchosen, hok⟩ := Option.map_eq_some_iff.1 hfocus
  refine ⟨by decide +kernel, hsevere, chosen, hchosen, hok, fun hgravest => ?_⟩
  obtain ⟨severe, hmem, hone⟩ := hsevere
  have hle := hgravest severe hmem
  rw [hok] at hle
  exact Nat.not_succ_le_zero 0 (hone.trans hle)

theorem focus_is_gravest_of_overrun :
    (∀ r ∈ overrun 9990000, r.HasPercent (overrun.percent 9990000 r)) ∧
      (∃ r ∈ overrun 9990000, 1 ≤ r.finding.severity) ∧ (∀ r ∈ overrun 9990000, overrun.percent 9990000 r < 1000) ∧
      (focusRow (overrun 9990000)).map (·.finding) = some .cpuBound ∧
      ∃ chosen, focusRow (overrun 9990000) = some chosen ∧ Gravest (overrun 9990000) chosen := by
  have hwhole : ∀ r ∈ overrun 9990000, r.HasPercent (overrun.percent 9990000 r) := by decide +kernel
  have hsevere : ∃ r ∈ overrun 9990000, 1 ≤ r.finding.severity := by decide +kernel
  have hsmall : ∀ r ∈ overrun 9990000, overrun.percent 9990000 r < 1000 := by decide +kernel
  obtain ⟨chosen, hchosen, -, -, hgravest⟩ := focus_is_gravest (overrun 9990000) _ hwhole hsevere
  exact ⟨hwhole, hsevere, hsmall, by decide +kernel, chosen, hchosen, hgravest hsmall⟩

end SchedLedger
