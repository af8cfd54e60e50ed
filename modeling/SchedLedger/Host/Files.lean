import SchedLedger.Text.Utf8

/-! Files as the program sees them: a path is read, with an outcome. -/

namespace SchedLedger

inductive IoError
  | notFound
  | notDirectory
  | isDirectory
  | notUtf8
  | other (reason : String)
deriving DecidableEq, Repr

def IoError.message : IoError → String
  | .notFound => "No such file or directory (os error 2)"
  | .notDirectory => "Not a directory (os error 20)"
  | .isDirectory => "Is a directory (os error 21)"
  | .notUtf8 => "stream did not contain valid UTF-8"
  | .other reason => reason

abbrev Files := String → Except IoError Bytes

def textOf (found : Except IoError Bytes) : Except IoError String :=
  match found with
  | .error e => .error e
  | .ok bytes =>
    match Text.Utf8.decode? bytes with
    | some s => .ok s
    | none => .error .notUtf8

def Files.readText (files : Files) (path : String) : Except IoError String :=
  textOf (files path)

/-- A computation that may read files on its way and goes by what it finds in them. -/
inductive Inquiry (α : Type)
  | done (value : α)
  | ask (path : String) (next : Except IoError Bytes → Inquiry α)

namespace Inquiry

variable {α : Type}

def result (files : Files) : Inquiry α → α
  | done value => value
  | ask path next => (next (files path)).result files

def asked (files : Files) : Inquiry α → List String
  | done _ => []
  | ask path next => path :: (next (files path)).asked files

end Inquiry

def joinPath (base name : String) : String :=
  if base.isEmpty || base.endsWith "/" then base ++ name else base ++ "/" ++ name

end SchedLedger
