import SchedLedger.Host.Files

/-! A file system in memory. Paths are walked from its root, one component at a time. -/

namespace SchedLedger

inductive FileTree
  | file (content : Bytes)
  | dir (entries : List (String × FileTree))

namespace FileTree

instance : Inhabited FileTree := ⟨.dir []⟩

structure Place where
  here : FileTree
  above : List (String × FileTree)

/-- Take one component. Only a directory can be walked through, also by an empty component. -/
def Place.enter (p : Place) (part : String) : Except IoError Place :=
  match p.here with
  | .file _ => .error .notDirectory
  | .dir entries =>
    if part = "" ∨ part = "." then .ok p
    else if part = ".." then
      match p.above with
      | [] => .ok p
      | (_, up) :: rest => .ok ⟨up, rest⟩
    else
      match entries.lookup part with
      | some t => .ok ⟨t, (part, p.here) :: p.above⟩
      | none => .error .notFound

def walk (root : FileTree) (parts : List String) : Except IoError Place :=
  parts.foldlM Place.enter ⟨root, []⟩

def Place.path (p : Place) : List String :=
  (p.above.map Prod.fst).reverse

def read (root : FileTree) : Files := fun path =>
  if path = "" then .error .notFound
  else
    match root.walk (path.splitOn "/") with
    | .error e => .error e
    | .ok ⟨.file content, _⟩ => .ok content
    | .ok ⟨.dir _, _⟩ => .error .isDirectory

def setEntry (name : String) (t : FileTree) : List (String × FileTree) → List (String × FileTree)
  | [] => [(name, t)]
  | e :: rest => if e.1 = name then (name, t) :: rest else e :: setEntry name t rest

def place (node : FileTree) : List String → FileTree → FileTree
  | [], _ => node
  | name :: rest, .dir entries =>
    .dir (setEntry name (place node rest ((entries.lookup name).getD (.dir []))) entries)
  | name :: rest, .file _ => .dir [(name, place node rest (.dir []))]

/-- Write a file. Its directory has to exist, and a directory is never replaced; a path that ends with a
slash names one, whether it is there or not. -/
def write (root : FileTree) (path : String) (content : Bytes) : Except IoError FileTree :=
  if path = "" then .error .notFound
  else
    let parts := path.splitOn "/"
    let named := (parts.reverse.dropWhile (· = "")).reverse
    let name := named.getLastD "."
    match root.walk named.dropLast with
    | .error e => .error e
    | .ok ⟨.file _, _⟩ => .error .notDirectory
    | .ok p@⟨.dir entries, _⟩ =>
      if named.length < parts.length ∨ name = "." ∨ name = ".." then .error .isDirectory
      else
        match entries.lookup name with
        | some (.dir _) => .error .isDirectory
        | _ => .ok (place (.file content) (p.path ++ [name]) root)

end FileTree
end SchedLedger
