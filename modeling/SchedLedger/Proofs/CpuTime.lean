import SchedLedger.Proofs.Account

/-! CPU time over a whole run. Whatever switches, faults and resets a ledger is told of, its CPU table is
what the switches alone say it should be: units interleave, the table fills up, and resets fall in
between, and yet no charge is lost but those that the table counts as refused. -/

namespace SchedLedger

/-- On each unit the charges are those between consecutive switches of the unit. The table holds the first
entities charged since the last reset, each with the sum of all its charges since then; it has counted
every charge that it refused since it was made; and each slot holds the last switch on its unit. -/
theorem cpu_time_of_run (r : Resolver) (units : Nat) (caps : Capacities) (actions : List Action) :
    let l := (Ledger.new units caps).run r actions
    let charges := (Journal.time units).entries [] actions.reverse
    let due := (Journal.time units).sinceReset actions.reverse
    (∀ unit, charges.filter (·.unit = unit) =
      if unit.toNat < units then Charge.along unit (switchesOn unit actions) else []) ∧
    due <:+ charges ∧
    l.cpu.keys = admitted caps.cpu.toNat (due.map Charge.entity) ∧
    (∀ pid, (l.cpu.get? pid).map CpuRecord.ns =
      if pid ∈ admitted caps.cpu.toNat (due.map Charge.entity) then
        some ((Journal.time units).total pid due)
      else none) ∧
    l.cpu.dropped = .ofNat ((Journal.time units).refusals caps.cpu.toNat actions.reverse) ∧
    ∀ unit, l.slots.get? unit =
      if unit.toNat < units then some ((switchesOn unit actions).getLast?.getD ⟨0, 0⟩) else none := by
  intro l charges due
  have hl : Account.after r units caps actions.reverse = l := Account.after_reverse r units caps actions
  have hkept := Account.time_kept units
  have hcarried := hkept r caps actions.reverse
  rw [hl] at hcarried
  refine ⟨fun unit => ?_, Journal.sinceReset_suffix _ _, hcarried.keys, fun pid => ?_, hcarried.dropped,
    Account.slots_run r units caps actions⟩
  · rw [Journal.entries_time_filter, switchesOn_reverse, List.reverse_reverse]
  · rw [← hl]
    exact hkept.get?_after r caps actions.reverse pid

end SchedLedger
