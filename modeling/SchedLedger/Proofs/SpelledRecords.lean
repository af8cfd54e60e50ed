import SchedLedger.Proofs.SpelledValues
import SchedLedger.Trace.Record

/-! Records as text. The kind and the fields of a record are the members of an object, in any order, each with its
name; a field of a task that says nothing may be left out. However a record is spelled so, it is read back. -/

namespace SchedLedger

namespace Json

inductive SpellsMember : String × Value → List Char → Prop
  | pair {name : String} {v : Value} {ns gap gap' cs : List Char} (hname : SpellsText name ns) (hgap : Blank gap)
    (hgap' : Blank gap') (h : Spells v cs) : SpellsMember (name, v) (ns ++ (gap ++ ':' :: (gap' ++ cs)))

theorem opening_member : Opening SpellsMember := by
  intro m cs h
  cases h with
  | pair hname _ _ _ =>
    cases hname with
    | quoted h => exact ⟨_, _, rfl, rfl, by decide, by decide⟩

theorem memberName_of_spells {name : String} {ns before : List Char} (h : SpellsText name ns)
    (hbefore : Blank before) (rest : List Char) : memberName (before ++ (ns ++ rest)) = some (name, rest) := by
  cases h with
  | quoted h =>
    rw [memberName, skipBlank_append hbefore (by rintro c ⟨rfl⟩; rfl)]
    simp [stringTail_of_spells h]

theorem memberColon_of_blank {gap : List Char} (h : Blank gap) (rest : List Char) :
    memberColon (gap ++ ':' :: rest) = some rest := by
  rw [memberColon, skipBlank_append h (by rintro c ⟨rfl⟩; rfl)]
  rfl

end Json

open Json

namespace Record

theorem readKind_of_spells {kind : Kind} {cs gap : List Char} (h : SpellsText kind.name cs) (hgap : Blank gap)
    (rest : List Char) : readKind (gap ++ (cs ++ rest)) = .ok (kind, rest) := by
  cases h with
  | quoted h =>
    have hkind : Kind.ofName? kind.name = some kind := by cases kind <;> decide
    rw [readKind, skipBlank_append hgap (by rintro c ⟨rfl⟩; rfl)]
    simp [stringTail_of_spells h, wellFormed, hkind, bind, Except.bind]

theorem readValue_of_spells {v : Value} {cs gap rest : List Char} (h : Spells v cs) (hgap : Blank gap)
    (hrest : Apart rest) : readValue (gap ++ (cs ++ rest)) = .ok (v, rest) := by
  have hvalue : value (depthLimit - 1) (gap ++ (cs ++ rest)) = some (v, rest) :=
    takes_value (depthLimit - 2) v cs h gap hgap rest hrest
  rw [readValue, hvalue, wellFormed]

/-- What remains to be read after a member: more of them, or the end of the object. -/
def readOn (fuel : Nat) (kind : Option Kind) (entry : List (String × Value)) (rest : List Char) :
    Except RecordError (Kind × List (String × Value) × List Char) :=
  match skipBlank rest with
  | ',' :: rest => do
    let (kind, entries, rest) ← readMembers fuel kind rest
    return (kind, entry ++ entries, rest)
  | '\x7d' :: rest =>
    match kind with
    | some kind => return (kind, entry, rest)
    | none => .error (.missingField "kind")
  | _ => .error (.malformed "expected `,` or `\x7d`")

theorem readMembers_of_kind {kind : Kind} {cs before : List Char} (h : SpellsMember ("kind", .text kind.name) cs)
    (hbefore : Blank before) (fuel : Nat) (rest : List Char) :
    readMembers (fuel + 1) none (before ++ (cs ++ rest)) = readOn fuel (some kind) [] rest := by
  cases h with
  | @pair _ _ ns gap gap' cs hname hgap hgap' h =>
    cases h with
    | scalar h =>
      cases h with
      | text h =>
        simp only [List.append_assoc, List.cons_append]
        simp only [readMembers, memberName_of_spells hname hbefore, memberColon_of_blank hgap,
          readKind_of_spells h hgap', wellFormed, bind, Except.bind, Except.map, if_true, true_and,
          Option.isSome_none, Bool.false_eq_true, if_false]
        rfl

theorem readMembers_of_field {m : String × Value} {cs before rest : List Char} (h : SpellsMember m cs)
    (hm : m.1 ≠ "kind") (hbefore : Blank before) (hrest : Apart rest) (fuel : Nat) (kind : Option Kind) :
    readMembers (fuel + 1) kind (before ++ (cs ++ rest)) = readOn fuel kind [m] rest := by
  cases h with
  | @pair name v ns gap gap' cs hname hgap hgap' h =>
    simp only [List.append_assoc, List.cons_append]
    simp only [readMembers, memberName_of_spells hname hbefore, memberColon_of_blank hgap,
      readValue_of_spells h hgap' hrest, wellFormed, bind, Except.bind, Except.map, hm, false_and, if_false]
    rfl

theorem exists_readOn {m : String × Value} {entry : List (String × Value)} {kind kind' : Option Kind} {fuel : Nat}
    (hmember : ∀ cs, SpellsMember m cs → ∀ before, Blank before → ∀ rest, Apart rest →
      readMembers (fuel + 1) kind (before ++ (cs ++ rest)) = readOn fuel kind' entry rest)
    {cs : List Char} (h : Spaced SpellsMember m cs) {c : Char} (hc : Ends c) (rest : List Char) :
    ∃ after, readMembers (fuel + 1) kind (cs ++ c :: rest) = readOn fuel kind' entry after ∧
      skipBlank after = c :: rest := by
  cases h with
  | @around before cs after hbefore h hafter =>
    refine ⟨after ++ c :: rest, ?_, skipBlank_append hafter ?_⟩
    · rw [List.append_assoc, List.append_assoc]
      exact hmember cs h before hbefore _ ((hc.apart rest).append hafter)
    · rintro d ⟨rfl⟩
      exact hc.isBlank

theorem exists_readOn_kind {kind : Kind} {cs : List Char} (h : Spaced SpellsMember ("kind", .text kind.name) cs)
    {c : Char} (hc : Ends c) (fuel : Nat) (rest : List Char) :
    ∃ after, readMembers (fuel + 1) none (cs ++ c :: rest) = readOn fuel (some kind) [] after ∧
      skipBlank after = c :: rest :=
  exists_readOn (fun _ h _ hbefore rest _ => readMembers_of_kind h hbefore fuel rest) h hc rest

theorem exists_readOn_field {m : String × Value} {cs : List Char} (h : Spaced SpellsMember m cs)
    (hm : m.1 ≠ "kind") {c : Char} (hc : Ends c) (fuel : Nat) (kind : Option Kind) (rest : List Char) :
    ∃ after, readMembers (fuel + 1) kind (cs ++ c :: rest) = readOn fuel kind [m] after ∧
      skipBlank after = c :: rest :=
  exists_readOn (fun _ h _ hbefore _ hrest => readMembers_of_field h hm hbefore hrest fuel kind) h hc rest

theorem readOn_of_comma {rest after : List Char} (h : skipBlank after = ',' :: rest) (fuel : Nat)
    (kind : Option Kind) (entry : List (String × Value)) :
    readOn fuel kind entry after =
      (readMembers fuel kind rest).map fun found => (found.1, entry ++ found.2.1, found.2.2) := by
  simp only [readOn, h]
  cases readMembers fuel kind rest <;> rfl

theorem readOn_of_close {rest after : List Char} (h : skipBlank after = '\x7d' :: rest) (fuel : Nat) (kind : Kind)
    (entry : List (String × Value)) : readOn fuel (some kind) entry after = .ok (kind, entry, rest) := by
  rw [readOn, h]
  rfl

theorem readMembers_of_fields (kind : Kind) {ms : List (String × Value)} {cs : List Char}
    (h : SpellsItems SpellsMember ms cs) (hms : ∀ m ∈ ms, m.1 ≠ "kind") {fuel : Nat} (hfuel : ms.length ≤ fuel)
    (rest : List Char) : readMembers fuel (some kind) (cs ++ '\x7d' :: rest) = .ok (kind, ms, rest) := by
  induction h generalizing fuel with
  | @last m cs h =>
    cases fuel with
    | zero => cases hfuel
    | succ fuel =>
      have hm := hms m List.mem_cons_self
      obtain ⟨after, hread, hskip⟩ := exists_readOn_field h hm (.inr (.inr rfl)) fuel (some kind) rest
      rw [hread, readOn_of_close hskip]
  | @more m ms cs items h hitems ih =>
    cases fuel with
    | zero => cases hfuel
    | succ fuel =>
      have hm := hms m List.mem_cons_self
      obtain ⟨after, hread, hskip⟩ :=
        exists_readOn_field h hm (.inl rfl) fuel (some kind) (items ++ '\x7d' :: rest)
      rw [List.append_assoc, List.cons_append, hread, readOn_of_comma hskip,
        ih (fun m' hm' => hms m' (List.mem_cons_of_mem _ hm')) (Nat.le_of_succ_le_succ hfuel)]
      rfl

/-- The kind may stand anywhere among the fields. -/
theorem readMembers_of_spells {kind : Kind} {ms : List (String × Value)} {cs : List Char}
    (h : SpellsItems SpellsMember ms cs) {before after : List (String × Value)}
    (hms : ms = before ++ ("kind", .text kind.name) :: after) (hfields : ∀ m ∈ before ++ after, m.1 ≠ "kind")
    {fuel : Nat} (hfuel : ms.length ≤ fuel) (rest : List Char) :
    readMembers fuel none (cs ++ '\x7d' :: rest) = .ok (kind, before ++ after, rest) := by
  induction h generalizing fuel before with
  | @last m cs h =>
    cases fuel with
    | zero => cases hfuel
    | succ fuel =>
      obtain ⟨rfl, hm⟩ | ⟨m', hm⟩ := List.append_eq_cons_iff.1 hms.symm
      · obtain ⟨rfl, rfl⟩ := List.cons.inj hm
        obtain ⟨tail, hread, hskip⟩ := exists_readOn_kind h (.inr (.inr rfl)) fuel rest
        rw [hread, readOn_of_close hskip]
        rfl
      · simp at hm
  | @more m ms cs items h hitems ih =>
    cases fuel with
    | zero => cases hfuel
    | succ fuel =>
      rw [List.append_assoc, List.cons_append]
      -- the kind is either met now, and only fields follow, or it is among the members still to come
      cases before with
      | nil =>
        obtain ⟨rfl, rfl⟩ := List.cons.inj hms
        obtain ⟨tail, hread, hskip⟩ := exists_readOn_kind h (.inl rfl) fuel (items ++ '\x7d' :: rest)
        rw [hread, readOn_of_comma hskip,
          readMembers_of_fields kind hitems hfields (Nat.le_of_succ_le_succ hfuel)]
        rfl
      | cons m' before =>
        obtain ⟨rfl, htail⟩ := List.cons.inj hms
        have hm := hfields m List.mem_cons_self
        obtain ⟨tail, hread, hskip⟩ := exists_readOn_field h hm (.inl rfl) fuel none (items ++ '\x7d' :: rest)
        rw [hread, readOn_of_comma hskip, ih htail (fun m' hm' => hfields m' (List.mem_cons_of_mem _ hm'))
          (Nat.le_of_succ_le_succ hfuel)]
        rfl

theorem readObject_of_spells {kind : Kind} {before after : List (String × Value)} {cs : List Char}
    (h : SpellsItems SpellsMember (before ++ ("kind", .text kind.name) :: after) cs)
    (hfields : ∀ m ∈ before ++ after, m.1 ≠ "kind") (rest : List Char) :
    readObject (cs ++ '\x7d' :: rest) = (ofMembers kind (before ++ after)).map fun record => (record, rest) := by
  obtain ⟨c, cs, hc, hitems, hskip⟩ := h.skipBlank opening_member
  have hlength := hitems.length_le opening_member
  have hfuel : (before ++ ("kind", Value.text kind.name) :: after).length ≤
      (c :: (cs ++ '\x7d' :: rest)).length := by
    simp only [List.length_append, List.length_cons] at hlength ⊢
    omega
  have hread := readMembers_of_spells hitems rfl hfields hfuel rest
  rw [List.cons_append] at hread
  unfold readObject
  rw [hskip]
  split
  · next hclose => exact absurd (List.cons.inj hclose).1 hc.2.2
  · rw [hread]
    cases hmembers : ofMembers kind (before ++ after) <;>
      simp [hmembers, bind, Except.bind, Except.map, pure, Except.pure]

end Record
end SchedLedger
