import SchedLedger.Text.Case
import Mathlib.Data.List.Forall2
import Mathlib.Data.List.Infix

/-! Lower case of a part of a text. What a capital sigma becomes hangs on its neighbours, so a run of characters may
have one lower-case form when it stands alone and another one inside of a text. -/

namespace SchedLedger.Text

variable {run : List Char}

theorem occursIn_iff {part whole : List Char} : occursIn part whole = true ↔ part <:+: whole := by
  induction whole with
  | nil => rw [occursIn, List.isEmpty_iff, List.infix_nil]
  | cons c cs ih => rw [occursIn, Bool.or_eq_true, List.isPrefixOf_iff_prefix, ih, List.infix_cons_iff]

theorem meetsCased_append (cs ds : List Char) :
    meetsCased (cs ++ ds) = if cs.all isCaseIgnorable then meetsCased ds else meetsCased cs := by
  induction cs with
  | nil => rfl
  | cons c cs ih =>
    cases hc : isCaseIgnorable c with
    | true => simpa [meetsCased, hc] using ih
    | false => simp [meetsCased, hc]

theorem meetsCased_of_all {cs : List Char} (h : cs.all isCaseIgnorable = true) : meetsCased cs = false := by
  have happend := meetsCased_append cs []
  rwa [h, List.append_nil] at happend

/-- The lower-case form of a run inside of a text. The characters before it are given nearest first. -/
def lowerWithin (before after : List Char) : List Char → List Char
  | [] => []
  | c :: cs =>
    (if c == '\u03A3' then [lowerSigma before (cs ++ after)] else lowerChar c) ++ lowerWithin (c :: before) after cs

theorem lowerFrom_append (before run after : List Char) :
    lowerFrom before (run ++ after) = lowerWithin before after run ++ lowerFrom (run.reverse ++ before) after := by
  induction run generalizing before with
  | nil => rfl
  | cons c cs ih =>
    rw [List.cons_append, lowerFrom, lowerWithin, ih, List.append_assoc, List.reverse_cons, List.append_assoc]
    rfl

theorem lowerFrom_eq_lowerWithin (before run : List Char) : lowerFrom before run = lowerWithin before [] run := by
  have happend := lowerFrom_append before run []
  rwa [List.append_nil, lowerFrom, List.append_nil] at happend

theorem lowerChars_append_append (before run after : List Char) :
    lowerChars (before ++ run ++ after) =
      lowerWithin [] (run ++ after) before ++ lowerWithin before.reverse after run ++
        lowerFrom (run.reverse ++ before.reverse) after := by
  rw [lowerChars, List.append_assoc, lowerFrom_append, lowerFrom_append, List.append_assoc, List.append_nil]

/-- A place of a character in `c :: cs` is in front, if it is `c`, or a place in `cs`. -/
theorem forall_split_cons {P : List Char → List Char → Prop} {c d : Char} {cs : List Char} :
    (∀ left right, c :: cs = left ++ d :: right → P left right) ↔
      (c = d → P [] cs) ∧ ∀ left right, cs = left ++ d :: right → P (c :: left) right := by
  constructor
  · intro h
    refine ⟨fun hc => h [] cs (by rw [hc, List.nil_append]), fun left right hcs => h (c :: left) right ?_⟩
    rw [hcs, List.cons_append]
  · rintro ⟨hhead, htail⟩ left right h
    rcases List.cons_eq_append_iff.1 h with ⟨rfl, hright⟩ | ⟨left, rfl, hcs⟩
    · obtain ⟨hc, rfl⟩ := List.cons.inj hright
      exact hhead hc.symm
    · exact htail left right hcs

section Relation

variable {R : Char → Char → Prop}

theorem forall₂_append_same (hrefl : ∀ c, R c c) (xs : List Char) {ys zs : List Char} :
    List.Forall₂ R (xs ++ ys) (xs ++ zs) ↔ List.Forall₂ R ys zs := by
  induction xs with
  | nil => rfl
  | cons x xs ih => rw [List.cons_append, List.cons_append, List.forall₂_cons, ih, and_iff_right (hrefl x)]

theorem forall₂_lowerWithin_iff (hrefl : ∀ c, R c c) {before after before' after' : List Char} :
    List.Forall₂ R (lowerWithin before after run) (lowerWithin before' after' run) ↔
      ∀ left right, run = left ++ '\u03A3' :: right →
        R (lowerSigma (left.reverse ++ before) (right ++ after))
          (lowerSigma (left.reverse ++ before') (right ++ after')) := by
  induction run generalizing before before' with
  | nil => exact ⟨fun _ left right h => by simp at h, fun _ => .nil⟩
  | cons c cs ih =>
    have hrest : List.Forall₂ R (lowerWithin (c :: before) after cs) (lowerWithin (c :: before') after' cs) ↔ _ := ih
    rw [forall_split_cons, lowerWithin, lowerWithin]
    simp only [List.reverse_cons, List.append_assoc, List.singleton_append, ← hrest]
    by_cases hc : c = '\u03A3'
    · simp [hc]
    · have hne : (c == '\u03A3') = false := by simpa using hc
      simp only [hne, Bool.false_eq_true, if_false, hc, false_imp_iff, true_and]
      exact forall₂_append_same hrefl _

end Relation

/-- Every capital sigma of a run takes the form in its surroundings that it takes when the run stands alone. -/
def KeepsForms (before run after : List Char) : Prop :=
  ∀ left right, run = left ++ '\u03A3' :: right →
    lowerSigma (left.reverse ++ before) (right ++ after) = lowerSigma left.reverse right

theorem lowerWithin_eq_lowerChars_iff {before after : List Char} :
    lowerWithin before after run = lowerChars run ↔ KeepsForms before run after := by
  have hforms : List.Forall₂ (· = ·) (lowerWithin before after run) (lowerWithin [] [] run) ↔ _ :=
    forall₂_lowerWithin_iff fun _ => rfl
  rw [List.forall₂_eq_eq_eq] at hforms
  rw [lowerChars, lowerFrom_eq_lowerWithin, hforms]
  simp only [List.append_nil, KeepsForms]

theorem lowerChars_infix {before after : List Char} (h : KeepsForms before.reverse run after) :
    lowerChars run <:+: lowerChars (before ++ run ++ after) := by
  rw [lowerChars_append_append, lowerWithin_eq_lowerChars_iff.2 h]
  exact List.infix_append _ _ _

/-- The form of a capital sigma between two runs of characters hangs on what stands around these: a word of which it
is the last letter may go on after it, or it may be the last letter of a word that begins before them. The
characters before it are given nearest first. -/
def Undecided (before after : List Char) : Prop :=
  (meetsCased before = true ∧ after.all isCaseIgnorable = true) ∨
    (before.all isCaseIgnorable = true ∧ meetsCased after = false)

/-- The forms of all capital sigmas of a run are decided by the run. -/
def Decided (run : List Char) : Prop :=
  ∀ left right, run = left ++ '\u03A3' :: right → ¬ Undecided left.reverse right

theorem lowerSigma_append_append {before after : List Char} (h : ¬ Undecided before after)
    (farther later : List Char) : lowerSigma (before ++ farther) (after ++ later) = lowerSigma before after := by
  obtain ⟨hend, hstart⟩ := not_or.1 h
  simp only [lowerSigma, meetsCased_append]
  cases hbefore : before.all isCaseIgnorable with
  | true =>
    have hcased : meetsCased after = true := by simpa [hbefore] using hstart
    have hafter : after.all isCaseIgnorable ≠ true := fun hall => by simp [meetsCased_of_all hall] at hcased
    simp [hafter, hcased]
  | false =>
    cases hafter : after.all isCaseIgnorable with
    | true =>
      have hcased : meetsCased before = false := by simpa [hafter] using hend
      simp [hcased]
    | false => rfl

theorem Decided.keepsForms (h : Decided run) (before after : List Char) : KeepsForms before run after :=
  fun left right hrun => lowerSigma_append_append (h left right hrun) before after

def Turns (u v c d : Char) : Prop :=
  c = d ∨ (c = u ∧ d = v)

theorem count_lt_of_turns {u v : Char} (hne : u ≠ v) {cs ds : List Char} (h : List.Forall₂ (Turns u v) cs ds) :
    cs = ds ∨ ds.count u < cs.count u := by
  induction h with
  | nil => exact .inl rfl
  | @cons c d cs ds hhead _ ih =>
    rcases hhead with rfl | ⟨rfl, rfl⟩
    · rcases ih with rfl | hlt
      · exact .inl rfl
      · exact .inr (by simpa [List.count_cons] using hlt)
    · have hle : ds.count c ≤ cs.count c := ih.elim (fun heq => heq ▸ le_rfl) Nat.le_of_lt
      refine .inr ?_
      rw [List.count_cons_self, List.count_cons_of_ne hne.symm]
      exact Nat.lt_succ_of_le hle

/-- If a form of sigma gets lost in the surroundings of a run, and these do not have it, then there are too few of it
in the text for the run in lower case to occur. -/
theorem not_infix_of_turns {u v : Char} (hne : u ≠ v) {before after : List Char}
    (hbefore : u ∉ lowerWithin [] (run ++ after) before)
    (hafter : u ∉ lowerFrom (run.reverse ++ before.reverse) after)
    (hturns : ∀ left right, run = left ++ '\u03A3' :: right →
      Turns u v (lowerSigma left.reverse right) (lowerSigma (left.reverse ++ before.reverse) (right ++ after)))
    (hforms : ¬ KeepsForms before.reverse run after) :
    ¬ lowerChars run <:+: lowerChars (before ++ run ++ after) := by
  intro hinfix
  have hrelated : List.Forall₂ (Turns u v) (lowerWithin [] [] run) (lowerWithin before.reverse after run) := by
    rw [forall₂_lowerWithin_iff fun _ => .inl rfl]
    simpa only [List.append_nil] using hturns
  rw [← lowerFrom_eq_lowerWithin] at hrelated
  rcases count_lt_of_turns hne hrelated with heq | hlt
  · exact hforms (lowerWithin_eq_lowerChars_iff.1 heq.symm)
  · have hle := hinfix.sublist.count_le u
    rw [lowerChars_append_append, List.count_append, List.count_append, List.count_eq_zero.2 hbefore,
      List.count_eq_zero.2 hafter, Nat.zero_add, Nat.add_zero] at hle
    exact absurd hlt (Nat.not_lt.2 hle)

theorem meetsCased_letter : meetsCased ['a'] = true := by
  decide +kernel

theorem lowerWithin_letter (before after : List Char) : lowerWithin before after ['a'] = ['a'] := by
  have hlower : lowerChar 'a' = ['a'] := by decide +kernel
  simp [lowerWithin, hlower]

theorem turns_before_letter (before after : List Char) :
    Turns '\u03C2' '\u03C3' (lowerSigma before after) (lowerSigma before (after ++ ['a'])) := by
  simp only [lowerSigma, meetsCased_append, meetsCased_letter]
  cases hall : after.all isCaseIgnorable with
  | true => cases meetsCased before <;> simp [Turns, meetsCased_of_all hall]
  | false => exact .inl rfl

theorem turns_after_letter (before after : List Char) :
    Turns '\u03C3' '\u03C2' (lowerSigma before after) (lowerSigma (before ++ ['a']) after) := by
  simp only [lowerSigma, meetsCased_append, meetsCased_letter]
  cases hall : before.all isCaseIgnorable with
  | true => cases meetsCased after <;> simp [Turns, meetsCased_of_all hall]
  | false => exact .inl rfl

/-- A run with an undecided sigma does not occur in some text that contains it, both in lower case: a letter is put
where the word may go on, or where it may begin. -/
theorem exists_not_infix (h : ¬ Decided run) :
    ∃ before after, ¬ lowerChars run <:+: lowerChars (before ++ run ++ after) := by
  simp only [Decided, not_forall, not_not] at h
  obtain ⟨left, right, hrun, hend | hstart⟩ := h
  · have hturns : ∀ left right, run = left ++ '\u03A3' :: right →
        Turns '\u03C2' '\u03C3' (lowerSigma left.reverse right)
          (lowerSigma (left.reverse ++ []) (right ++ ['a'])) := by
      intro left right _
      simpa using turns_before_letter left.reverse right
    -- a letter behind the run makes the word go on, so its sigma is no longer final
    refine ⟨[], ['a'], not_infix_of_turns (by decide) List.not_mem_nil ?_ hturns fun hforms => ?_⟩
    · rw [lowerFrom_eq_lowerWithin, lowerWithin_letter]
      decide
    · have hform := hforms left right hrun
      simp [lowerSigma, meetsCased_append, hend, meetsCased_letter, meetsCased_of_all] at hform
  · have hturns : ∀ left right, run = left ++ '\u03A3' :: right →
        Turns '\u03C3' '\u03C2' (lowerSigma left.reverse right)
          (lowerSigma (left.reverse ++ ['a']) (right ++ [])) := by
      intro left right _
      simpa using turns_after_letter left.reverse right
    -- a letter in front of it begins a word, of which the sigma is the end
    refine ⟨['a'], [], not_infix_of_turns (by decide) ?_ List.not_mem_nil hturns fun hforms => ?_⟩
    · rw [lowerWithin_letter]
      decide
    · have hform := hforms left right hrun
      simp [lowerSigma, meetsCased_append, hstart, meetsCased_letter, meetsCased_of_all] at hform

end SchedLedger.Text
