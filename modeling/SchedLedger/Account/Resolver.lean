import SchedLedger.Account.Context

/-! Naming the resource group of a context. A group name is looked up when a record is made and
then frozen: any text that stands in the buffer, the sentinel included, is never looked up again. -/

namespace SchedLedger

structure Resolution where
  found : Bool
  out : GroupPath
deriving DecidableEq

/-- A resolver sees how many lookups came before, the context and the buffer. -/
abbrev Resolver := Nat → Context → GroupPath → Resolution

namespace Resolver

/-- Copy the name of a group. A missing name leaves the buffer alone; a name without content does
not count. -/
def copyName (name : Option Bytes) (out : GroupPath) : Resolution :=
  match name with
  | some bytes => ⟨Padded.written 64 bytes > 0, out.write bytes⟩
  | none => ⟨false, out⟩

def leafThenParent : Resolver := fun _ ctx out =>
  match ctx.chain? with
  | none | some [] => ⟨false, out.clear⟩
  | some [leaf] => copyName leaf out.clear
  | some (leaf :: parent :: _) =>
    -- only these two are looked at; a group further up never names a record
    let first := copyName leaf out.clear
    if first.found then first else copyName parent first.out

/-- Answers laid down in advance, one per lookup, the last one again and again. `none` fails and
writes nothing, a text is written and counts as found even if nothing of it fits. -/
def scripted (answers : List (Option Bytes)) : Resolver := fun n _ out =>
  match answers[min n (answers.length - 1)]? with
  | some (some bytes) => ⟨true, out.write bytes⟩
  | some none | none => ⟨false, out⟩

def fill (r : Resolver) (ctx : Context) (out : GroupPath) (lookups : Nat) : GroupPath × Nat :=
  let answer := r lookups ctx out
  (if answer.found then answer.out else answer.out.writeSentinel, lookups + 1)

def refresh (r : Resolver) (ctx : Context) (out : GroupPath) (lookups : Nat) : GroupPath × Nat :=
  if out.isEmpty then r.fill ctx out lookups else (out, lookups)

end Resolver
end SchedLedger
