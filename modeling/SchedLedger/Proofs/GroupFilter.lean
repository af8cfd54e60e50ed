import SchedLedger.Proofs.LetterCase
import SchedLedger.Proofs.Lowering
import SchedLedger.Report.Filter

/-! The group filter. The text of the filter and the group of a row are put into lower case apart from each other, and
the one is looked for in the other. This finds every group that contains the text, in any case, but for the capital
sigmas that become another character in the text than they do in the group. -/

namespace SchedLedger

namespace Row

/-- The group of a row contains a text as it is. -/
def Contains (part : String) (r : Row) : Prop :=
  part.toList <:+: r.group.toList

/-- The group of a row contains a text at a place where each of its capital sigmas has the form that it has in the
text alone. -/
def ContainsInForm (part : String) (r : Row) : Prop :=
  ∃ before after, r.group.toList = before ++ part.toList ++ after ∧
    Text.KeepsForms before.reverse part.toList after

/-- The row with the letters from A to Z of its group in lower case. -/
def caseless (r : Row) : Row :=
  { r with group := r.group.toLower }

end Row

namespace Filter

variable {p : Row → Prop} {text : String}

/-- The filter shows all rows that have a property. -/
def KeepsRows (f : Filter) (p : Row → Prop) : Prop :=
  ∀ rows : List Row, ∀ r ∈ rows, p r → r ∈ rows.filter f.passes

/-- The filter shows all handoffs between two processes with rows of which one has a property. -/
def KeepsHandoffs (f : Filter) (p : Row → Prop) : Prop :=
  ∀ rows cs, ∀ c ∈ cs, ∀ v a, rowOf? rows c.victim = some v → rowOf? rows c.aggressor = some a → p v ∨ p a →
    c ∈ shownHandoffs f rows 0 cs

theorem matchesGroup_new (hideKernel : Bool) (text group : String) :
    (new hideKernel (some text)).matchesGroup group = true ↔
      Text.lowerChars (Text.trim text).toList <:+: Text.lowerChars group.toList := by
  have hlower : (Text.lower (Text.trim text)).toList = Text.lowerChars (Text.trim text).toList :=
    String.toList_ofList
  rw [← hlower, matchesGroup, new, normalText, Option.map_some]
  by_cases hempty : Text.lower (Text.trim text) = ""
  · simp [Option.filter, hempty]
  · simp [Option.filter, hempty, Text.occursIn_iff]

theorem hides_new (group : Option String) (r : Row) : (new false group).hides r = false := by
  rw [hides, new, Bool.false_and]

theorem passes_new (r : Row) :
    (new false (some text)).passes r = true ↔
      Text.lowerChars (Text.trim text).toList <:+: Text.lowerChars r.group.toList := by
  rw [passes, hides_new, Bool.not_false, Bool.true_and, matchesGroup_new]

theorem passesHandoff_new {row : Pid → Option Row} {c : HandoffCount} {v a : Row} (hv : row c.victim = some v)
    (ha : row c.aggressor = some a) :
    (new false (some text)).passesHandoff row c =
      ((new false (some text)).passes v || (new false (some text)).passes a) := by
  simp only [passesHandoff, hv, ha, passes, hides_new, Bool.or_false, Bool.not_false, Bool.true_and]

theorem keepsRows_iff : (new false (some text)).KeepsRows p ↔ ∀ r, p r → (new false (some text)).passes r = true := by
  refine ⟨fun h r hr => ?_, fun h rows r hmem hr => List.mem_filter.2 ⟨hmem, h r hr⟩⟩
  exact (List.mem_filter.1 (h [r] r (List.mem_singleton_self r) hr)).2

theorem keepsHandoffs_iff : (new false (some text)).KeepsHandoffs p ↔ (new false (some text)).KeepsRows p := by
  rw [keepsRows_iff]
  constructor
  · intro h r hr
    have hrow : rowOf? [r] r.pid = some r := by simp [rowOf?]
    have hshown := h [r] [⟨r.pid, "", r.pid, "", 1⟩] _ (List.mem_singleton_self _) r r hrow hrow (.inl hr)
    have hpasses := (List.mem_filter.1 hshown).2
    rwa [passesHandoff_new hrow hrow, Bool.or_self] at hpasses
  · intro h rows cs c hc v a hv ha hends
    refine List.mem_filter.2 ⟨hc, ?_⟩
    rw [passesHandoff_new hv ha, Bool.or_eq_true]
    exact hends.imp (h v) (h a)

theorem keepsRows_containsInForm (text : String) :
    (new false (some text)).KeepsRows (Row.ContainsInForm (Text.trim text)) := by
  rw [keepsRows_iff]
  rintro r ⟨before, after, hgroup, hforms⟩
  rw [passes_new, hgroup]
  exact Text.lowerChars_infix hforms

theorem keepsRows_contains_iff (text : String) :
    (new false (some text)).KeepsRows (Row.Contains (Text.trim text)) ↔ Text.Decided (Text.trim text).toList := by
  rw [keepsRows_iff]
  constructor
  · intro h
    by_contra hundecided
    obtain ⟨before, after, hmissed⟩ := Text.exists_not_infix hundecided
    let r : Row := { pid := 1, group := String.ofList (before ++ (Text.trim text).toList ++ after) }
    have hgroup : r.group.toList = before ++ (Text.trim text).toList ++ after := String.toList_ofList
    have hpasses := h r ⟨before, after, hgroup.symm⟩
    rw [passes_new, hgroup] at hpasses
    exact hmissed hpasses
  · rintro hdecided r ⟨before, after, hgroup⟩
    rw [passes_new, ← hgroup]
    exact Text.lowerChars_infix (hdecided.keepsForms before.reverse after)

section Caseless

theorem new_congr (hideKernel : Bool) {s t : String} (h : s.toLower = t.toLower) :
    new hideKernel (some s) = new hideKernel (some t) := by
  have hnormal : Text.lower (Text.trim s) = Text.lower (Text.trim t) := by
    rw [← Text.lower_toLower, ← Text.trim_toLower, h, Text.trim_toLower, Text.lower_toLower]
  rw [new, new, normalText, normalText, Option.map_some, Option.map_some, hnormal]

theorem matchesGroup_toLower (f : Filter) (group : String) : f.matchesGroup group.toLower = f.matchesGroup group := by
  have hlower := congrArg String.toList (Text.lower_toLower group)
  rw [Text.lower, Text.lower, String.toList_ofList, String.toList_ofList] at hlower
  rw [matchesGroup, matchesGroup, hlower]

theorem passes_caseless (f : Filter) (r : Row) : f.passes r.caseless = f.passes r := by
  have hgroup : f.matchesGroup r.caseless.group = f.matchesGroup r.group := f.matchesGroup_toLower r.group
  rw [passes, passes, hgroup]
  rfl

theorem rowOf?_map_caseless (rows : List Row) (pid : Pid) :
    rowOf? (rows.map Row.caseless) pid = (rowOf? rows pid).map Row.caseless := by
  rw [rowOf?, rowOf?, ← List.map_reverse, List.find?_map]
  rfl

theorem passesHandoff_caseless (f : Filter) (rows : List Row) (c : HandoffCount) :
    f.passesHandoff (rowOf? (rows.map Row.caseless)) c = f.passesHandoff (rowOf? rows) c := by
  have hgroup : ∀ r : Row, f.matchesGroup r.caseless.group = f.matchesGroup r.group := fun r =>
    f.matchesGroup_toLower r.group
  have hhides : ∀ r : Row, f.hides r.caseless = f.hides r := fun _ => rfl
  simp only [passesHandoff, rowOf?_map_caseless]
  cases rowOf? rows c.victim <;> cases rowOf? rows c.aggressor <;> simp [hgroup, hhides]

theorem map_caseless_filter (f : Filter) (rows : List Row) :
    (rows.filter f.passes).map Row.caseless = (rows.map Row.caseless).filter f.passes := by
  rw [List.filter_map, show f.passes ∘ Row.caseless = f.passes from funext f.passes_caseless]

theorem shownHandoffs_map_caseless (f : Filter) (rows : List Row) (limit : UInt64) (cs : List HandoffCount) :
    shownHandoffs f (rows.map Row.caseless) limit cs = shownHandoffs f rows limit cs := by
  rw [shownHandoffs, shownHandoffs,
    show f.passesHandoff (rowOf? (rows.map Row.caseless)) = f.passesHandoff (rowOf? rows) from
      funext (f.passesHandoff_caseless rows)]

end Caseless

end Filter

/-- With kernel threads shown, a filter shows every row whose group contains its text with the capital sigmas in the
same form, and every handoff of such a row. It does so wherever the text is contained just if the text decides the
forms of its sigmas. And the case of the letters from A to Z never matters, neither in the text nor in the groups. -/
theorem group_filter_is_caseless (text : String) :
    (Filter.new false (some text)).KeepsRows (Row.ContainsInForm (Text.trim text)) ∧
      (Filter.new false (some text)).KeepsHandoffs (Row.ContainsInForm (Text.trim text)) ∧
      ((Filter.new false (some text)).KeepsRows (Row.Contains (Text.trim text)) ↔
        Text.Decided (Text.trim text).toList) ∧
      ((Filter.new false (some text)).KeepsHandoffs (Row.Contains (Text.trim text)) ↔
        Text.Decided (Text.trim text).toList) ∧
      ∀ (hideKernel : Bool) (text' : String), text.toLower = text'.toLower → ∀ rows rows' : List Row,
        rows.map Row.caseless = rows'.map Row.caseless →
          (rows.filter (Filter.new hideKernel (some text)).passes).map Row.caseless =
              (rows'.filter (Filter.new hideKernel (some text')).passes).map Row.caseless ∧
            ∀ limit cs, shownHandoffs (.new hideKernel (some text)) rows limit cs =
              shownHandoffs (.new hideKernel (some text')) rows' limit cs := by
  refine ⟨Filter.keepsRows_containsInForm text, Filter.keepsHandoffs_iff.2 (Filter.keepsRows_containsInForm text),
    Filter.keepsRows_contains_iff text, Filter.keepsHandoffs_iff.trans (Filter.keepsRows_contains_iff text), ?_⟩
  intro hideKernel text' htext rows rows' hrows
  rw [← Filter.new_congr hideKernel htext]
  refine ⟨?_, fun limit cs => ?_⟩
  · rw [Filter.map_caseless_filter, hrows, ← Filter.map_caseless_filter]
  · rw [← Filter.shownHandoffs_map_caseless, hrows, Filter.shownHandoffs_map_caseless]

def street (group : String) : Row :=
  { pid := 1, comm := "a", group := group }

/-- The full stop is not the end of a word. So the last letter of the filter has its final form, and the same letter
of the group has not. -/
theorem group_filter_drops_slice :
    Text.trim "ΟΔΟΣ" ≠ "" ∧ (street "ΟΔΟΣ.slice").Contains (Text.trim "ΟΔΟΣ") ∧
      [street "ΟΔΟΣ.slice"].filter (Filter.new false (some "ΟΔΟΣ")).passes = [] ∧
      shownHandoffs (.new false (some "ΟΔΟΣ")) [street "ΟΔΟΣ.slice"] 0 [⟨1, "a", 1, "a", 1⟩] = [] := by
  have htrim : Text.trim "ΟΔΟΣ" = "ΟΔΟΣ" := by decide +kernel
  have hcontains : "ΟΔΟΣ".toList <:+: "ΟΔΟΣ.slice".toList := ⟨[], ".slice".toList, by decide⟩
  have hpasses : (Filter.new false (some "ΟΔΟΣ")).passes (street "ΟΔΟΣ.slice") = false := by decide +kernel
  refine ⟨by rw [htrim]; decide, by rw [htrim]; exact hcontains, ?_, by decide +kernel⟩
  rw [List.filter_singleton, hpasses]
  rfl

/-- The slash is the end of a word, in the filter as in the group. -/
theorem group_filter_is_caseless_of_street :
    Text.Decided (Text.trim " ΟΔΟΣ/W").toList ∧ (street "app/ΟΔΟΣ/Web").Contains (Text.trim " ΟΔΟΣ/W") ∧
      " ΟΔΟΣ/W".toLower = " ΟΔΟΣ/w".toLower ∧
      [street "app/ΟΔΟΣ/Web"].map Row.caseless = [street "App/ΟΔΟΣ/wEB"].map Row.caseless ∧
      street "app/ΟΔΟΣ/Web" ∈ [street "app/ΟΔΟΣ/Web"].filter (Filter.new false (some " ΟΔΟΣ/W")).passes ∧
      ⟨1, "a", 1, "a", 9⟩ ∈
        shownHandoffs (.new false (some " ΟΔΟΣ/w")) [street "App/ΟΔΟΣ/wEB"] 0 [⟨1, "a", 1, "a", 9⟩] := by
  have htrim : (Text.trim " ΟΔΟΣ/W").toList = "ΟΔΟ".toList ++ '\u03A3' :: "/W".toList := by decide +kernel
  have hdecided : Text.Decided (Text.trim " ΟΔΟΣ/W").toList := by
    intro left right hrun
    rw [htrim, List.append_cons_inj_of_notMem (by decide) (by decide)] at hrun
    obtain ⟨rfl, -, rfl⟩ := hrun
    unfold Text.Undecided
    decide +kernel
  have hcontains : (street "app/ΟΔΟΣ/Web").Contains (Text.trim " ΟΔΟΣ/W") := by
    rw [Row.Contains, htrim]
    exact ⟨"app/".toList, "eb".toList, by decide +kernel⟩
  have htext : " ΟΔΟΣ/W".toLower = " ΟΔΟΣ/w".toLower := Text.toLower_eq_iff.2 (by decide)
  have hmap : [street "app/ΟΔΟΣ/Web"].map Row.caseless = [street "App/ΟΔΟΣ/wEB"].map Row.caseless := by
    have hgroup : "app/ΟΔΟΣ/Web".toLower = "App/ΟΔΟΣ/wEB".toLower := Text.toLower_eq_iff.2 (by decide)
    simp only [List.map_cons, List.map_nil, Row.caseless, street, hgroup]
  obtain ⟨-, -, hrows, hhandoffs, hcase⟩ := group_filter_is_caseless " ΟΔΟΣ/W"
  have hrow : rowOf? [street "app/ΟΔΟΣ/Web"] 1 = some (street "app/ΟΔΟΣ/Web") := by simp [rowOf?, street]
  refine ⟨hdecided, hcontains, htext, hmap, hrows.2 hdecided _ _ (List.mem_singleton_self _) hcontains, ?_⟩
  rw [← (hcase false _ htext _ _ hmap).2]
  exact hhandoffs.2 hdecided _ _ _ (List.mem_singleton_self _) _ _ hrow hrow (.inl hcontains)

end SchedLedger
