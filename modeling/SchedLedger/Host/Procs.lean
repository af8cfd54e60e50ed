import SchedLedger.Account.Slots
import SchedLedger.Host.Files
import SchedLedger.Text.Blank
import SchedLedger.Text.Lines
import SchedLedger.Text.Natural
import SchedLedger.Word

/-! The process tree: names and sizes of processes, and the size of memory, read from one directory
with a subdirectory per process. -/

namespace SchedLedger

inductive ProcsError
  | idle (pid : Pid)
  | unreadable (path : String) (cause : IoError)
  | pageFormat (pid : Pid)
  | pageCount (pid : Pid) (cause : Text.NumberError)
  | pageOverflow (pid : Pid)
  | memoryFormat
  | memoryValue (cause : Text.NumberError)
  | memoryOverflow (kilobytes : UInt64)
  | memoryMissing (path : String)
deriving DecidableEq, Repr

def ProcsError.message : ProcsError → String
  | .idle pid => s!"invalid pid {pid}"
  | .unreadable path cause => s!"Failed to read {path}: " ++ cause.message
  | .pageFormat pid => s!"unexpected statm format for pid {pid}"
  | .pageCount pid cause => s!"Invalid resident page count for pid {pid}: " ++ cause.message
  | .pageOverflow pid => s!"page count overflows for pid {pid}"
  | .memoryFormat => "unexpected format for MemTotal"
  | .memoryValue cause => "Invalid MemTotal value: " ++ cause.message
  | .memoryOverflow kilobytes => s!"MemTotal of {kilobytes} kB overflows"
  | .memoryMissing path => s!"MemTotal not found in {path}"

structure PageSize where
  bytes : UInt64
  pos : 0 < bytes
deriving DecidableEq

namespace PageSize

def fallback : PageSize :=
  ⟨4096, by decide⟩

theorem pos_of_stated {size : Int64} (h : 0 < size) : 0 < size.toUInt64 := by
  rw [UInt64.pos_iff_ne_zero]
  intro hzero
  have hsize : size = 0 := congrArg Int64.ofUInt64 hzero
  exact absurd (hsize ▸ h) (by decide)

/-- The size that a platform states; one that it does not know is not positive. -/
def ofPlatform (stated : Int64) : PageSize :=
  if h : 0 < stated then ⟨stated.toUInt64, pos_of_stated h⟩ else fallback

end PageSize

/-- The process tree under a directory. Sizes in it are counted in pages. -/
structure Procs where
  root : String
  page : PageSize
deriving DecidableEq

abbrev NameCache := List (Pid × String)

namespace Procs

def fileOf (p : Procs) (pid : Pid) (name : String) : String :=
  joinPath (joinPath p.root (toString pid)) name

def commPath (p : Procs) (pid : Pid) : String :=
  p.fileOf pid "comm"

def statmPath (p : Procs) (pid : Pid) : String :=
  p.fileOf pid "statm"

def meminfoPath (p : Procs) : String :=
  joinPath p.root "meminfo"

def fallbackName (pid : Pid) : String :=
  s!"pid-{pid}"

def nameIn (pid : Pid) (found : Except IoError Bytes) : String :=
  match textOf found with
  | .error _ => fallbackName pid
  | .ok data => if Text.trim data = "" then fallbackName pid else Text.trim data

/-- The name of a process. Each is read once and remembered; the idle task needs no reading. -/
def inquire (p : Procs) (pid : Pid) (cache : NameCache) : Inquiry (String × NameCache) :=
  if pid = 0 then .done ("idle", cache)
  else
    match cache.lookup pid with
    | some name => .done (name, cache)
    | none => .ask (p.commPath pid) fun found => .done (nameIn pid found, cache ++ [(pid, nameIn pid found)])

def nameOf (p : Procs) (files : Files) (pid : Pid) (cache : NameCache) : String × NameCache :=
  (p.inquire pid cache).result files

def residentBytes (p : Procs) (files : Files) (pid : Pid) : Except ProcsError UInt64 :=
  if pid = 0 then .error (.idle pid)
  else
    match files.readText (p.statmPath pid) with
    | .error e => .error (.unreadable (p.statmPath pid) e)
    | .ok data =>
      match (Text.words data)[1]? with
      | none => .error (.pageFormat pid)
      | some word =>
        match Text.readWord word with
        | .error e => .error (.pageCount pid e)
        | .ok pages =>
          match product? pages p.page.bytes with
          | some bytes => .ok bytes
          | none => .error (.pageOverflow pid)

structure Lookups where
  asked : List Pid
  found : List (Pid × UInt64)

/-- Ask for the size of a process, unless it is the idle task or was asked for before. -/
def lookUp (p : Procs) (files : Files) (l : Lookups) (pid : Pid) : Lookups :=
  if pid = 0 ∨ pid ∈ l.asked then l
  else
    match p.residentBytes files pid with
    | .ok bytes => ⟨l.asked ++ [pid], l.found ++ [(pid, bytes)]⟩
    | .error _ => ⟨l.asked ++ [pid], l.found⟩

def lookUpAll (p : Procs) (files : Files) (pids : List Pid) : Lookups :=
  pids.foldl (p.lookUp files) ⟨[], []⟩

def residentSizes (p : Procs) (files : Files) (pids : List Pid) : List (Pid × UInt64) :=
  (p.lookUpAll files pids).found

def memoryOfLine (rest : String) : Except ProcsError UInt64 :=
  match Text.words rest with
  | [] => .error .memoryFormat
  | word :: _ =>
    match Text.readWord word with
    | .error e => .error (.memoryValue e)
    | .ok kilobytes =>
      match product? kilobytes 1024 with
      | some bytes => .ok bytes
      | none => .error (.memoryOverflow kilobytes)

def memoryLabel : List Char :=
  "MemTotal:".toList

def totalMemory (p : Procs) (files : Files) : Except ProcsError UInt64 :=
  match files.readText p.meminfoPath with
  | .error e => .error (.unreadable p.meminfoPath e)
  | .ok data =>
    match (Text.lines '\n' data.toList).find? (memoryLabel.isPrefixOf ·) with
    | none => .error (.memoryMissing p.meminfoPath)
    | some line => memoryOfLine (String.ofList (line.drop memoryLabel.length))

end Procs

structure Host where
  files : Files
  page : PageSize

def Host.procs (h : Host) (root : String) : Procs :=
  ⟨root, h.page⟩

end SchedLedger
