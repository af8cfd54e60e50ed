import SchedLedger.Proofs.Lowering
import SchedLedger.Report.Filter

/-! The normal form of a filter text. What lower case makes of a character is left alone by lower case, whatever stands
around it, and is white space only if the character was. So a text that has been trimmed and put into lower case is not
changed by doing either once more. -/

namespace SchedLedger.Text

namespace CaseRow

/-- The least code point that a row of the mapping yields. -/
def image (r : CaseRow) : Nat :=
  (r.first + r.shift).toNat

def imageEnd (r : CaseRow) : Nat :=
  (r.last + r.shift).toNat

/-- A row yields no code point from `first` to `last`. -/
def avoids (r : CaseRow) (first last : Nat) : Bool :=
  r.imageEnd < first || last < r.image

/-- A row yields nothing that another one covers: the two lie apart, or the other one covers every second code point
and the row yields none but those in between. -/
def misses (r q : CaseRow) : Bool :=
  r.avoids q.first q.last ||
    (q.step == 2 && (r.step == 2 || r.first == r.last) && (r.image + q.first) % 2 == 1)

/-- A row yields characters that are neither mapped themselves nor white space. -/
def settles (r : CaseRow) : Bool :=
  lowerRows.all r.misses && r.avoids 0x130 0x130 && r.avoids 0x3A3 0x3A3 && r.avoids 0xD800 0xDFFF &&
    r.imageEnd < 0x110000 && 0 ≤ r.first + r.shift && blankRanges.all fun b => r.avoids b.1 b.2

theorem settles_of_mem : ∀ r ∈ lowerRows, r.settles = true := by
  decide +kernel

variable {r q : CaseRow} {n : Nat}

theorem avoids_shift {first last : Nat} (h : r.avoids first last = true) (hn : r.covers n = true) :
    (n + r.shift).toNat < first ∨ last < (n + r.shift).toNat := by
  simp only [avoids, covers, Bool.or_eq_true, Bool.and_eq_true, decide_eq_true_eq] at h hn
  simp only [image, imageEnd] at h
  omega

theorem misses_shift (h : r.misses q = true) (hpos : 0 ≤ r.first + r.shift) (hn : r.covers n = true) :
    q.covers (n + r.shift).toNat = false := by
  rw [misses, Bool.or_eq_true] at h
  rw [Bool.eq_false_iff]
  intro hq
  have hrange := hq
  simp only [covers, Bool.and_eq_true, decide_eq_true_eq, beq_iff_eq] at hrange
  rcases h with happart | hbetween
  · have hout := avoids_shift happart hn
    omega
  · simp only [image, covers, Bool.and_eq_true, Bool.or_eq_true, beq_iff_eq, decide_eq_true_eq] at hbetween hn
    obtain ⟨⟨hstep, hevery⟩, hodd⟩ := hbetween
    rw [hstep] at hrange
    rcases hevery with hsecond | hsingle
    · rw [hsecond] at hn
      omega
    · omega

end CaseRow

/-- Lower case leaves the character as it is, wherever it stands. -/
def IsLow (c : Char) : Prop :=
  c ≠ '\u03A3' ∧ lowerChar c = [c]

instance (c : Char) : Decidable (IsLow c) :=
  inferInstanceAs (Decidable (_ ∧ _))

theorem isLow_shift {r : CaseRow} (hr : r ∈ lowerRows) {n : Nat} (hn : r.covers n = true) :
    IsLow (Char.ofNat (n + r.shift).toNat) ∧ isBlank (Char.ofNat (n + r.shift).toNat) = false := by
  have hsettles := CaseRow.settles_of_mem r hr
  simp only [CaseRow.settles, Bool.and_eq_true, List.all_eq_true, decide_eq_true_eq] at hsettles
  obtain ⟨⟨⟨⟨⟨⟨hmisses, hdotted⟩, hsigma⟩, hsurrogate⟩, hend⟩, hpos⟩, hblank⟩ := hsettles
  have hout : ∀ {first last}, r.avoids first last = true → _ := fun h => CaseRow.avoids_shift h hn
  set m := (n + r.shift).toNat with hm
  have hvalid : m.isValidChar := by
    have hle : m ≤ r.imageEnd := by
      simp only [CaseRow.covers, Bool.and_eq_true, decide_eq_true_eq] at hn
      simp only [hm, CaseRow.imageEnd]
      omega
    rcases hout hsurrogate with hlow | hhigh
    · exact .inl hlow
    · exact .inr ⟨hhigh, by omega⟩
  have hcode : (Char.ofNat m).toNat = m := by
    rw [Char.ofNat, dif_pos hvalid]
    rfl
  have hne : ∀ c : Char, (m < c.toNat ∨ c.toNat < m) → Char.ofNat m ≠ c := by
    intro c hlt heq
    rw [← heq, hcode] at hlt
    omega
  refine ⟨⟨hne _ (hout hsigma), ?_⟩, ?_⟩
  · -- no row of the mapping covers what another one yields
    have hnone : lowerRows.find? (·.covers (Char.ofNat m).toNat) = none := by
      rw [List.find?_eq_none, hcode]
      intro q hq
      rw [CaseRow.misses_shift (hmisses q hq) hpos hn]
      decide
    rw [lowerChar, if_neg (by simpa using hne '\u0130' (hout hdotted)), hnone]
  · rw [isBlank, Bool.eq_false_iff, ne_eq, Ranges.contains_iff, hcode]
    rintro ⟨b, hb, hlow, hhigh⟩
    have hapart := hout (hblank b hb)
    omega

section Characters

variable {c d : Char}

/-- The cases of a character: the capital I with a dot, one of a row, or one that is left alone. -/
theorem lowerChar_cases (c : Char) :
    lowerChar c = ['i', '\u0307'] ∨
      (∃ r ∈ lowerRows, r.covers c.toNat = true ∧ lowerChar c = [Char.ofNat (c.toNat + r.shift).toNat]) ∨
      lowerChar c = [c] := by
  unfold lowerChar
  split
  · exact .inl rfl
  · split
    · next r hr =>
      have hcovers : r.covers c.toNat = true := by simpa using List.find?_some hr
      exact .inr (.inl ⟨r, List.mem_of_find?_eq_some hr, hcovers, rfl⟩)
    · exact .inr (.inr rfl)

theorem isLow_of_mem_lowerChar (hc : c ≠ '\u03A3') (h : d ∈ lowerChar c) : IsLow d := by
  rcases lowerChar_cases c with hdotted | ⟨r, hr, hcovers, hrow⟩ | hsame
  · rw [hdotted, List.mem_pair] at h
    rcases h with rfl | rfl
    · decide +kernel
    · decide +kernel
  · rw [hrow, List.mem_singleton] at h
    rw [h]
    exact (isLow_shift hr hcovers).1
  · have hlow := hsame
    rw [hsame, List.mem_singleton] at h
    exact h ▸ ⟨hc, hlow⟩

theorem isBlank_of_mem_lowerChar (hc : isBlank c = false) (h : d ∈ lowerChar c) : isBlank d = false := by
  rcases lowerChar_cases c with hdotted | ⟨r, hr, hcovers, hrow⟩ | hsame
  · rw [hdotted, List.mem_pair] at h
    rcases h with rfl | rfl
    · decide
    · decide
  · rw [hrow, List.mem_singleton] at h
    rw [h]
    exact (isLow_shift hr hcovers).2
  · rw [hsame, List.mem_singleton] at h
    exact h ▸ hc

theorem lowerChar_ne_nil (c : Char) : lowerChar c ≠ [] := by
  rcases lowerChar_cases c with h | ⟨r, -, -, h⟩ | h <;> rw [h] <;> exact List.cons_ne_nil _ _

theorem lowerSigma_cases (before after : List Char) :
    lowerSigma before after = '\u03C2' ∨ lowerSigma before after = '\u03C3' :=
  ite_eq_or_eq _ _ _

theorem lowerWithin_singleton (before after : List Char) (c : Char) :
    lowerWithin before after [c] = if c == '\u03A3' then [lowerSigma before after] else lowerChar c := by
  rw [lowerWithin, lowerWithin, List.append_nil, List.nil_append]

theorem isLow_of_mem_lowerWithin {before after : List Char} (h : d ∈ lowerWithin before after [c]) : IsLow d := by
  rw [lowerWithin_singleton] at h
  split at h
  · have hforms : IsLow '\u03C2' ∧ IsLow '\u03C3' := by decide +kernel
    rw [List.mem_singleton.1 h]
    rcases lowerSigma_cases before after with hform | hform <;> rw [hform]
    · exact hforms.1
    · exact hforms.2
  · next hc => exact isLow_of_mem_lowerChar (by simpa using hc) h

/-- A character that is not white space becomes some characters, none of them white space. -/
theorem solid_lowerWithin (before after : List Char) (hc : isBlank c = false) :
    lowerWithin before after [c] ≠ [] ∧ ∀ d ∈ lowerWithin before after [c], isBlank d = false := by
  rw [lowerWithin_singleton]
  split
  · refine ⟨List.cons_ne_nil _ _, fun d hd => ?_⟩
    rw [List.mem_singleton.1 hd]
    rcases lowerSigma_cases before after with hform | hform <;> rw [hform] <;> decide
  · exact ⟨lowerChar_ne_nil c, fun d hd => isBlank_of_mem_lowerChar hc hd⟩

end Characters

section Twice

variable {before cs : List Char}

theorem lowerFrom_cons (before : List Char) (c : Char) (cs : List Char) :
    lowerFrom before (c :: cs) = lowerWithin before cs [c] ++ lowerFrom (c :: before) cs :=
  lowerFrom_append before [c] cs

theorem lowerFrom_concat (before cs : List Char) (c : Char) :
    lowerFrom before (cs ++ [c]) = lowerWithin before [c] cs ++ lowerWithin (cs.reverse ++ before) [] [c] := by
  rw [lowerFrom_append, lowerFrom_eq_lowerWithin]

theorem isLow_of_mem_lowerFrom {d : Char} (h : d ∈ lowerFrom before cs) : IsLow d := by
  induction cs generalizing before with
  | nil => cases h
  | cons c cs ih =>
    rw [lowerFrom_cons, List.mem_append] at h
    rcases h with h | h
    · exact isLow_of_mem_lowerWithin h
    · exact ih h

theorem lowerFrom_of_isLow (h : ∀ c ∈ cs, IsLow c) : lowerFrom before cs = cs := by
  induction cs generalizing before with
  | nil => rfl
  | cons c cs ih =>
    rw [List.forall_mem_cons] at h
    obtain ⟨⟨hne, hlow⟩, hrest⟩ := h
    rw [lowerFrom_cons, lowerWithin_singleton, if_neg (by simpa using hne), hlow, ih hrest]
    rfl

theorem lower_lower (s : String) : lower (lower s) = lower s := by
  rw [lower, lower, String.toList_ofList, lowerChars, lowerFrom_of_isLow]
  exact fun c hc => isLow_of_mem_lowerFrom hc

/-- The text neither begins nor ends with white space. -/
def Trimmed (cs : List Char) : Prop :=
  (∀ c ∈ cs.head?, isBlank c = false) ∧ ∀ c ∈ cs.getLast?, isBlank c = false

theorem Trimmed.trimChars_eq (h : Trimmed cs) : trimChars cs = cs := by
  obtain ⟨hhead, hlast⟩ := h
  have hstart : trimStartChars cs = cs := by
    cases cs with
    | nil => rfl
    | cons c cs => rw [trimStartChars, List.dropWhile_cons_of_neg (by simp [hhead c rfl])]
  rw [trimChars, hstart, trimEndChars]
  cases hreverse : cs.reverse with
  | nil => exact (List.reverse_eq_nil_iff.1 hreverse).symm
  | cons c rest =>
    have hc : isBlank c = false := hlast c (by rw [List.getLast?_eq_head?_reverse, hreverse]; rfl)
    rw [List.dropWhile_cons_of_neg (by simp [hc]), ← hreverse, List.reverse_reverse]

theorem trimmed_trimChars (cs : List Char) : Trimmed (trimChars cs) := by
  constructor
  · intro c hc
    -- trimming the end takes nothing from the front but the whole text
    have hprefix : trimChars cs <+: trimStartChars cs := by
      have hsuffix := List.dropWhile_suffix isBlank (l := (trimStartChars cs).reverse)
      simpa [trimChars, trimEndChars] using List.reverse_prefix.2 hsuffix
    have hhead := List.head?_dropWhile_not isBlank cs
    obtain ⟨rest, hrest⟩ := hprefix
    cases htrim : trimChars cs with
    | nil => simp [htrim] at hc
    | cons d ds =>
      rw [htrim] at hc hrest
      rw [← trimStartChars, ← hrest] at hhead
      obtain rfl : d = c := by simpa using hc
      simpa using hhead
  · intro c hc
    have hlast := List.head?_dropWhile_not isBlank (trimStartChars cs).reverse
    rw [trimChars, trimEndChars, List.getLast?_reverse] at hc
    rw [Option.mem_def.1 hc] at hlast
    simpa using hlast

theorem Trimmed.lowerChars (h : Trimmed cs) : Trimmed (lowerChars cs) := by
  obtain ⟨hhead, hlast⟩ := h
  constructor
  · cases cs with
    | nil => exact hhead
    | cons c cs =>
      obtain ⟨hne, hsolid⟩ := solid_lowerWithin [] cs (hhead c rfl)
      intro d hd
      rw [Text.lowerChars, lowerFrom_cons, List.head?_append_of_ne_nil _ hne] at hd
      exact hsolid d (List.mem_of_mem_head? hd)
  · cases cs using List.reverseRecOn with
    | nil => exact hlast
    | append_singleton cs c =>
      obtain ⟨hne, hsolid⟩ := solid_lowerWithin (cs.reverse ++ []) [] (hlast c (by simp))
      intro d hd
      rw [Text.lowerChars, lowerFrom_concat, List.getLast?_append_of_ne_nil _ hne] at hd
      exact hsolid d (List.mem_of_mem_getLast? hd)

theorem trim_lower_trim (s : String) : trim (lower (trim s)) = lower (trim s) := by
  have htrimmed : Trimmed (lower (trim s)).toList := by
    rw [lower, trim, String.toList_ofList, String.toList_ofList]
    exact (trimmed_trimChars s.toList).lowerChars
  rw [trim, htrimmed.trimChars_eq, String.ofList_toList]

end Twice

end SchedLedger.Text

namespace SchedLedger

/-- A filter text in normal form is there only if it is not empty, and neither trimming nor lower case changes it. -/
def IsNormalText (filter : Option String) : Prop :=
  ∀ text ∈ filter, text ≠ "" ∧ Text.trim text = text ∧ Text.lower text = text

theorem isNormalText_normalText (filter : Option String) : IsNormalText (normalText filter) := by
  intro text htext
  obtain ⟨hmap, hne⟩ := Option.filter_eq_some_iff.1 htext
  obtain ⟨s, -, rfl⟩ := Option.map_eq_some_iff.1 hmap
  exact ⟨by simpa using hne, Text.trim_lower_trim s, Text.lower_lower _⟩

theorem IsNormalText.normalText_eq {filter : Option String} (h : IsNormalText filter) : normalText filter = filter := by
  cases filter with
  | none => rfl
  | some text =>
    obtain ⟨hne, htrim, hlower⟩ := h text rfl
    rw [normalText, Option.map_some, htrim, hlower, Option.filter_some, if_pos (by simpa using hne)]

theorem normalText_normalText (filter : Option String) : normalText (normalText filter) = normalText filter :=
  (isNormalText_normalText filter).normalText_eq

end SchedLedger
