import SchedLedger.Proofs.Coherence
import SchedLedger.Proofs.NormalText
import SchedLedger.Settings.Reader

/-! Settings in normal form. Those that are read are in it, as the standard ones are, and overriding them keeps them in
it any number of times. An override touches three fields only, and has nothing left to do the second time. -/

namespace SchedLedger

def AcceptedCapacity (capacity : UInt64) : Prop :=
  1 ≤ capacity.toNat ∧ capacity.toNat ≤ 2 ^ 20

theorem checkCapacity_eq_ok_iff (table : String) (capacity : UInt64) :
    checkCapacity table capacity = .ok () ↔ AcceptedCapacity capacity := by
  have hzero : capacity = 0 ↔ capacity.toNat = 0 := UInt64.toNat_inj.symm
  unfold checkCapacity AcceptedCapacity capacityLimit
  split
  · next hempty =>
    rw [hzero] at hempty
    exact ⟨fun h => (nomatch h), fun h => by omega⟩
  · next hempty =>
    rw [hzero] at hempty
    split
    · next hlarge => exact ⟨fun h => (nomatch h), fun h => by omega⟩
    · next hfits => exact ⟨fun _ => ⟨by omega, by omega⟩, fun _ => rfl⟩

structure Capacities.Accepted (caps : Capacities) : Prop where
  cpu : AcceptedCapacity caps.cpu
  handoffs : AcceptedCapacity caps.handoffs
  faults : AcceptedCapacity caps.faults

theorem Capacities.check_eq_ok_iff (caps : Capacities) : caps.check = .ok () ↔ caps.Accepted := by
  have hbind : ∀ {x y : Except SettingsError Unit}, (x >>= fun _ => y) = .ok () ↔ x = .ok () ∧ y = .ok () := by
    rintro (_ | ⟨⟩) y
    · exact ⟨fun h => (nomatch h), fun h => (nomatch h.1)⟩
    · exact ⟨fun h => ⟨rfl, h⟩, And.right⟩
  rw [check, hbind, hbind, checkCapacity_eq_ok_iff, checkCapacity_eq_ok_iff, checkCapacity_eq_ok_iff]
  exact ⟨fun ⟨hcpu, hhandoffs, hfaults⟩ => ⟨hcpu, hhandoffs, hfaults⟩,
    fun ⟨hcpu, hhandoffs, hfaults⟩ => ⟨hcpu, hhandoffs, hfaults⟩⟩

namespace Settings

/-- Settings in normal form: tables may have their sizes, a section shows at least one row, and the filter is none or a
text in its normal form. -/
structure IsNormal (s : Settings) : Prop where
  capacities : s.capacities.Accepted
  topK : 1 ≤ s.report.topK.toNat
  groupFilter : IsNormalText s.report.groupFilter

variable {s t : Settings}

theorem accept_eq_ok_iff : s.accept = .ok t ↔ s.capacities.Accepted ∧ t = s.normal := by
  rw [← s.capacities.check_eq_ok_iff, accept]
  cases s.capacities.check with
  | error e => exact ⟨fun h => (nomatch h), fun h => (nomatch h.1)⟩
  | ok _ => exact ⟨fun h => ⟨rfl, (Except.ok.inj h).symm⟩, fun h => congrArg Except.ok h.2.symm⟩

/-- A text is accepted if it can be read and asks for accepted sizes, and then its settings are put into normal form. -/
theorem readWith_eq_ok_iff {reader : String → Except String Settings} {text : String} :
    readWith reader text = .ok t ↔ ∃ s, reader text = .ok s ∧ s.capacities.Accepted ∧ t = s.normal := by
  unfold readWith
  split
  · next s hs => simp [hs, accept_eq_ok_iff]
  · next reason hs => simp [hs]

theorem isNormal_normal (h : s.capacities.Accepted) : s.normal.IsNormal where
  capacities := h
  topK := by
    rw [normal, ReportSettings.normal, toNat_max_one]
    exact Nat.le_max_right _ _
  groupFilter := isNormalText_normalText s.report.groupFilter

theorem isNormal_standard : standard.IsNormal where
  capacities := (Capacities.check_eq_ok_iff _).1 rfl
  topK := by decide
  groupFilter := fun _ h => nomatch h

theorem IsNormal.withOverrides (h : s.IsNormal) (o : Overrides) : (s.withOverrides o).IsNormal :=
  isNormal_normal h.capacities

theorem IsNormal.foldl_withOverrides (h : s.IsNormal) (os : List Overrides) :
    (os.foldl Settings.withOverrides s).IsNormal := by
  induction os generalizing s with
  | nil => exact h
  | cons o os ih => exact ih (h.withOverrides o)

/-- The settings that `t` has are those of `s` but for what the override asks for. -/
structure Overridden (o : Overrides) (s t : Settings) : Prop where
  capacities : t.capacities = s.capacities
  procsRoot : t.procsRoot = s.procsRoot
  totalMemory : t.report.totalMemory = s.report.totalMemory
  topK : t.report.topK.toNat = (o.topK.map fun k => max k.toNat 1).getD s.report.topK.toNat
  hideKernel : t.report.hideKernel = (s.report.hideKernel && !o.showKernel)
  groupFilter : t.report.groupFilter =
    if o.groupFilter.isSome then normalText o.groupFilter else s.report.groupFilter

theorem IsNormal.overridden (h : s.IsNormal) (o : Overrides) : Overridden o s (s.withOverrides o) where
  capacities := rfl
  procsRoot := rfl
  totalMemory := rfl
  topK := by
    change (max (o.topK.getD s.report.topK) 1).toNat = _
    rw [toNat_max_one]
    cases o.topK with
    | none => exact Nat.max_eq_left h.topK
    | some k => rfl
  hideKernel := rfl
  groupFilter := by
    change normalText (o.groupFilter <|> s.report.groupFilter) = _
    cases o.groupFilter with
    | none => exact h.groupFilter.normalText_eq
    | some text => rw [Option.orElse_eq_orElse, Option.orElse_some, Option.isSome_some, if_pos rfl]

theorem withOverrides_withOverrides (s : Settings) (o : Overrides) :
    (s.withOverrides o).withOverrides o = s.withOverrides o := by
  have htopK : max (o.topK.getD (max (o.topK.getD s.report.topK) 1)) 1 = max (o.topK.getD s.report.topK) 1 := by
    cases o.topK with
    | none =>
      rw [← UInt64.toNat_inj]
      simp only [Option.getD_none, toNat_max_one]
      exact Nat.max_eq_left (Nat.le_max_right _ _)
    | some k => rfl
  have hfilter : normalText (o.groupFilter <|> normalText (o.groupFilter <|> s.report.groupFilter)) =
      normalText (o.groupFilter <|> s.report.groupFilter) := by
    cases o.groupFilter with
    | none => exact normalText_normalText s.report.groupFilter
    | some text => rw [Option.orElse_eq_orElse, Option.orElse_some, Option.orElse_some]
  simp only [Settings.withOverrides, normal, ReportSettings.normal, ReportSettings.override, htopK, hfilter,
    Bool.and_assoc, Bool.and_self]

theorem IsNormal.filter_eq (h : s.IsNormal) : s.report.filter = ⟨s.report.hideKernel, s.report.groupFilter⟩ := by
  rw [ReportSettings.filter, Filter.new, h.groupFilter.normalText_eq]

end Settings

/-- Settings that are accepted from a text, whoever reads it, or the standard ones, are in normal form after any number
of overrides, and the filter of their report is the one that they name. An override changes nothing but what it asks
for, and what it asks for only once. -/
theorem settings_stay_normal (reader : String → Except String Settings) (s : Settings)
    (hs : s = .standard ∨ ∃ text, Settings.readWith reader text = .ok s) (os : List Overrides) :
    let t := os.foldl Settings.withOverrides s
    t.IsNormal ∧ t.report.filter = ⟨t.report.hideKernel, t.report.groupFilter⟩ ∧
      (∀ o, Settings.Overridden o t (t.withOverrides o)) ∧
      ∀ (u : Settings) (o : Overrides), (u.withOverrides o).withOverrides o = u.withOverrides o := by
  intro t
  have hstart : s.IsNormal := by
    rcases hs with rfl | ⟨text, htext⟩
    · exact Settings.isNormal_standard
    · obtain ⟨given, -, haccepted, rfl⟩ := Settings.readWith_eq_ok_iff.1 htext
      exact Settings.isNormal_normal haccepted
  have ht : t.IsNormal := hstart.foldl_withOverrides os
  exact ⟨ht, ht.filter_eq, ht.overridden, Settings.withOverrides_withOverrides⟩

/-- Settings that ask for no rows, the largest table, and a filter with white space, a capital I with a dot and a
sigma at the end of a word. -/
def unsettled : String :=
  "report:\n  top_k: 0\n  cgroup_filter: ' İ.ΟΔΟΣ '\ncapacities: \x7bfaults: 1048576\x7d\n"

theorem settings_stay_normal_of_unsettled :
    ∃ s, Settings.ofYaml unsettled = .ok s ∧ s.report.topK = 1 ∧ s.capacities.faults = 1048576 ∧
      s.report.groupFilter = some "i̇.οδος" ∧
      let t := [⟨none, true, none⟩, ⟨some 0, false, some " "⟩].foldl Settings.withOverrides s
      t.IsNormal ∧ t.report.filter = ⟨false, none⟩ := by
  have hparse : Settings.parse unsettled =
      .ok ⟨⟨10240, 2048, 1048576⟩, ⟨0, true, some " İ.ΟΔΟΣ ", none⟩, "/proc"⟩ := by
    decide +kernel
  have haccepted : Capacities.Accepted ⟨10240, 2048, 1048576⟩ := (Capacities.check_eq_ok_iff _).1 rfl
  have hread : Settings.ofYaml unsettled = .ok _ := Settings.readWith_eq_ok_iff.2 ⟨_, hparse, haccepted, rfl⟩
  obtain ⟨hnormal, hfilter, -⟩ := settings_stay_normal Settings.parse _ (.inr ⟨_, hread⟩)
    [⟨none, true, none⟩, ⟨some 0, false, some " "⟩]
  exact ⟨_, hread, by decide +kernel, rfl, by decide +kernel, hnormal, hfilter.trans (by decide +kernel)⟩

end SchedLedger
