import SchedLedger.Proofs.Resolver

/-! The walk over the hierarchy, hop by hop. It sees the names of the leaf and its parent and nothing else: what
stood in the buffer before, what an unusable leaf left there and whatever groups lie further up never show. -/

namespace SchedLedger

theorem usable_iff (name : Bytes) : usable name = true ↔ ∃ b ∈ name.head?, b ≠ 0 := by
  cases name with
  | nil => simp [usable, beforeNul]
  | cons b rest => by_cases hb : b = 0 <;> simp [usable, beforeNul, hb]

theorem GroupChain.isSome_offer?_iff (chain : GroupChain) :
    chain.offer?.isSome = true ↔ ∃ name, some name ∈ chain.take 2 ∧ ∃ b ∈ name.head?, b ≠ 0 := by
  rw [offer?, List.findSome?_isSome_iff]
  constructor
  · rintro ⟨_ | name, hmem, hname⟩
    · cases hname
    · exact ⟨name, hmem, (usable_iff name).1 (by simpa using hname)⟩
  · rintro ⟨name, hmem, hname⟩
    exact ⟨some name, hmem, by simpa using (usable_iff name).2 hname⟩

namespace Resolver

/-- A lookup succeeds just if the leaf or its parent has a name that starts with something else than NUL. The
buffer then holds the first such name up to its first NUL, as much of it as fits, and otherwise zeros only. So
success shows in the buffer, and neither what the buffer held before nor a group above the parent matters. -/
theorem leafThenParent_two_hops (n : Nat) (ctx : Context) (out : GroupPath) :
    let chain := ctx.chain?.getD []
    let answer := leafThenParent n ctx out
    (answer.found = true ↔ ∃ name, some name ∈ chain.take 2 ∧ ∃ b ∈ name.head?, b ≠ 0) ∧
    (match chain.offer? with
      | some name =>
        answer.found = true ∧
          answer.out.toBytes =
            (beforeNul name).take 63 ++ List.replicate (64 - ((beforeNul name).take 63).length) 0
      | none => answer.found = false ∧ answer.out.toBytes = List.replicate 64 0) ∧
    (answer.found = true ↔ answer.out.isEmpty = false) ∧
    ∀ n' ctx' out', (ctx'.chain?.getD []).take 2 = chain.take 2 → leafThenParent n' ctx' out' = answer := by
  intro chain answer
  have hanswer : answer = .ofName chain.offer? := leafThenParent_eq n ctx out
  have hfound : answer.found = chain.offer?.isSome := by
    rw [hanswer]
    cases chain.offer? <;> rfl
  refine ⟨?_, ?_, ?_, fun n' ctx' out' hnear => ?_⟩
  · rw [hfound]
    exact chain.isSome_offer?_iff
  · rw [hanswer]
    cases chain.offer? with
    | none => exact ⟨rfl, Padded.toBytes_empty⟩
    | some name => exact ⟨rfl, Padded.toBytes_ofBytes name⟩
  · exact found_leafThenParent_iff n ctx out
  · rw [leafThenParent_eq, hanswer, GroupChain.offer?, hnear]
    rfl

/-- The leaf's name starts with NUL, and the parent's is cut at one; what stood in the buffer is gone, and another
task below the same two groups, with other groups above them, gets the same answer. -/
theorem leafThenParent_two_hops_of_unusable_leaf :
    let ctx : Context := .named 7 none (some ⟨some [some [0, 0x78], some [0x61, 0x70, 0x70, 0, 0x62], none]⟩)
    let other : Context := .named 9 (some [0x78]) (some ⟨some [some [0, 0x78], some [0x61, 0x70, 0x70, 0, 0x62]]⟩)
    let answer := leafThenParent 0 ctx (.ofBytes [0x73, 0x74, 0x61, 0x6C, 0x65])
    answer.found = true ∧ answer.out.toBytes = [0x61, 0x70, 0x70] ++ List.replicate 61 0 ∧
      leafThenParent 3 other .empty = answer := by
  intro ctx other answer
  obtain ⟨-, hnamed, -, hnear⟩ :=
    leafThenParent_two_hops 0 ctx (.ofBytes [0x73, 0x74, 0x61, 0x6C, 0x65])
  exact ⟨hnamed.1, hnamed.2, hnear 3 other .empty rfl⟩

end Resolver
end SchedLedger
