import SchedLedger.Account.Slots
import SchedLedger.Text.Padded

/-! What a unit knows of the task that an event concerns: its number, its name, and the chain of
resource groups it belongs to. -/

namespace SchedLedger

/-- The names of the groups from the leaf up to the root; `none` is a group without a name. -/
abbrev GroupChain := List (Option Bytes)

/-- The groups of a task: no membership at all, or a membership whose chain may be empty. -/
structure Task where
  membership : Option GroupChain
deriving DecidableEq, Inhabited

/-- The task that is current when an event fires. For a switch this is the outgoing task, for a
page fault the faulting one. `copyComm` is how its name is copied into a buffer. -/
structure Context where
  entity : Pid
  copyComm : Comm → Comm
  task : Option Task
deriving Inhabited

namespace Context

def writeName (name : Option Bytes) (out : Comm) : Comm :=
  match name with
  | some bytes => out.write bytes
  | none => out.clear

def named (entity : Pid) (name : Option Bytes) (task : Option Task) : Context :=
  ⟨entity, writeName name, task⟩

def chain? (c : Context) : Option GroupChain :=
  match c.task with
  | none => none
  | some t => t.membership

end Context
end SchedLedger
