import SchedLedger.Text.Blank
import SchedLedger.Text.Case
import Mathlib.Tactic.ByContra

/-! The case of the letters from A to Z. Whether they stand for small letters or capital ones makes no difference to
what is white space, to what case rules look at, and to a text in lower case. -/

namespace SchedLedger.Text

def capitals : List Char :=
  (List.range' 65 26).map Char.ofNat

theorem mem_capitals_of_toLower_ne {c : Char} (h : c.toLower ≠ c) : c ∈ capitals := by
  have hrange : 65 ≤ c.toNat ∧ c.toNat ≤ 90 := by
    by_contra hout
    exact h (dif_neg hout)
  exact List.mem_map.2 ⟨c.toNat, List.mem_range'_1.2 ⟨hrange.1, by omega⟩, Char.ofNat_toNat c⟩

/-- What does not tell a capital letter from its small one does not tell any character from its small one. -/
theorem toLower_invariant {α : Type} {f : Char → α} (h : capitals.map (fun c => f c.toLower) = capitals.map f)
    (c : Char) : f c.toLower = f c := by
  by_cases hc : c.toLower = c
  · rw [hc]
  · exact List.map_inj_left.1 h c (mem_capitals_of_toLower_ne hc)

theorem isBlank_toLower (c : Char) : isBlank c.toLower = isBlank c :=
  toLower_invariant (by decide +kernel) c

theorem isCased_toLower (c : Char) : isCased c.toLower = isCased c :=
  toLower_invariant (by decide +kernel) c

theorem isCaseIgnorable_toLower (c : Char) : isCaseIgnorable c.toLower = isCaseIgnorable c :=
  toLower_invariant (by decide +kernel) c

theorem lowerChar_toLower (c : Char) : lowerChar c.toLower = lowerChar c :=
  toLower_invariant (by decide +kernel) c

theorem toLower_beq_sigma (c : Char) : (c.toLower == '\u03A3') = (c == '\u03A3') :=
  toLower_invariant (f := (· == '\u03A3')) (by decide +kernel) c

theorem dropWhile_map_toLower {p : Char → Bool} (h : ∀ c, p c.toLower = p c) (cs : List Char) :
    (cs.map Char.toLower).dropWhile p = (cs.dropWhile p).map Char.toLower := by
  rw [List.dropWhile_map, show p ∘ Char.toLower = p from funext h]

theorem meetsCased_map_toLower (cs : List Char) : meetsCased (cs.map Char.toLower) = meetsCased cs := by
  rw [meetsCased, meetsCased, dropWhile_map_toLower isCaseIgnorable_toLower]
  cases cs.dropWhile isCaseIgnorable with
  | nil => rfl
  | cons c _ => exact isCased_toLower c

theorem lowerFrom_map_toLower (before cs : List Char) :
    lowerFrom (before.map Char.toLower) (cs.map Char.toLower) = lowerFrom before cs := by
  induction cs generalizing before with
  | nil => rfl
  | cons c cs ih =>
    have hrest := ih (c :: before)
    rw [List.map_cons] at hrest
    rw [List.map_cons, lowerFrom, lowerFrom, hrest, toLower_beq_sigma, lowerChar_toLower, lowerSigma, lowerSigma,
      meetsCased_map_toLower, meetsCased_map_toLower]

theorem lowerChars_map_toLower (cs : List Char) : lowerChars (cs.map Char.toLower) = lowerChars cs :=
  lowerFrom_map_toLower [] cs

theorem trimChars_map_toLower (cs : List Char) :
    trimChars (cs.map Char.toLower) = (trimChars cs).map Char.toLower := by
  rw [trimChars, trimEndChars, trimStartChars, dropWhile_map_toLower isBlank_toLower, ← List.map_reverse,
    dropWhile_map_toLower isBlank_toLower, ← List.map_reverse]
  rfl

theorem toList_toLower (s : String) : s.toLower.toList = s.toList.map Char.toLower :=
  String.toList_map

theorem toLower_eq_iff {s t : String} :
    s.toLower = t.toLower ↔ s.toList.map Char.toLower = t.toList.map Char.toLower := by
  rw [← String.toList_inj, toList_toLower, toList_toLower]

theorem lower_toLower (s : String) : lower s.toLower = lower s := by
  rw [lower, lower, toList_toLower, lowerChars_map_toLower]

theorem trim_toLower (s : String) : trim s.toLower = (trim s).toLower := by
  rw [← String.toList_inj, toList_toLower, trim, trim, String.toList_ofList, String.toList_ofList, toList_toLower,
    trimChars_map_toLower]

end SchedLedger.Text
