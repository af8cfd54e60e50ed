import SchedLedger.Failure
import SchedLedger.Text.Blank
import SchedLedger.Text.Lines
import SchedLedger.Trace.Record

/-! Reading a trace: one record a line, blank lines and comments left out. The first line that cannot
be read decides. -/

namespace SchedLedger

/-- What finds the record in a text, or says what is wrong with it. -/
abbrev RecordReader := List Char → Except RecordError Record

namespace Trace

def isVoid (cs : List Char) : Bool :=
  cs.isEmpty || cs.head? == some '#'

/-- The record of the line with a number, if it has one, as `reader` finds it in the trimmed text. -/
def readLine (reader : RecordReader) (number : Nat) (line : Bytes) : Except Failure (Option Record) :=
  match Text.Utf8.decode? line with
  | none => .error (.io .notUtf8)
  | some s =>
    let cs := Text.trimChars s.toList
    if isVoid cs then .ok none
    else
      match reader cs >>= Record.checked with
      | .ok record => .ok (some record)
      | .error cause => .error (.trace number cause)

def readLines (reader : RecordReader) (number : Nat) (lines : List Bytes) :
    Except Failure (List (Option Record)) :=
  (lines.zipIdx number).mapM fun l => readLine reader l.2 l.1

def task? : Option Record → Option Declaration
  | some (.task d) => some d
  | _ => none

def event? : Option Record → Option Event
  | some (.event e) => some e
  | _ => none

def ofRecords (records : List (Option Record)) : Trace :=
  ⟨records.filterMap task?, records.filterMap event?⟩

def readWith (reader : RecordReader) (content : Bytes) : Except Failure Trace :=
  (readLines reader 1 (Text.lines 0x0A content)).map ofRecords

def read (content : Bytes) : Except Failure Trace :=
  readWith Record.read content

def load (files : Files) (path : String) : Except Failure Trace :=
  match files path with
  | .error cause => .error (.io cause)
  | .ok content => read content

end Trace
end SchedLedger
