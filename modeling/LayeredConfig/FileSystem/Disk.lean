import LayeredConfig.Fields
import LayeredConfig.FileSystem

/-! Files in a tree of folders, with symbolic links. -/

namespace LayeredConfig.Disk

open Text

inductive Entry where
  | file (bytes : ByteArray)
  | folder (entries : List (String × Entry))
  | link (target : String)
  deriving Inhabited

inductive Refusal where
  | missing
  | notFolder
  | isFolder
  | nameTooLong
  | tooManyLinks
  | nulInName
  | notText
  deriving Repr, DecidableEq

def Refusal.readError : Refusal → ReadError
  | .missing => ⟨.notFound, "No such file or directory (os error 2)"⟩
  | .notFolder => ⟨.other, "Not a directory (os error 20)"⟩
  | .isFolder => ⟨.other, "Is a directory (os error 21)"⟩
  | .nameTooLong => ⟨.other, "File name too long (os error 36)"⟩
  | .tooManyLinks => ⟨.other, "Too many levels of symbolic links (os error 40)"⟩
  | .nulInName => ⟨.other, "file name contained an unexpected NUL byte"⟩
  | .notText => ⟨.invalidData, "stream did not contain valid UTF-8"⟩

def Entry.at? : Entry → List String → Option Entry
  | e, [] => some e
  | .folder entries, name :: rest => (Fields.get? entries name).bind (Entry.at? · rest)
  | _, _ :: _ => none

def slashPieces (text : List Char) : List (List Char) := Text.pieces '/' text

/-- The names that lead from the root to the entry of a path, and that entry. Every piece of the
path needs a folder to start from, be it empty or a dot. -/
def resolve (root : Entry) (links : Nat) (here : List String) :
    List (List Char) → Except Refusal (List String × Entry)
  | [] =>
    match root.at? here with
    | some e => .ok (here, e)
    | none => .error .missing
  | piece :: rest =>
    match root.at? here with
    | some (.folder entries) =>
      if !Path.isComponent piece then resolve root links here rest
      else if piece = ['.', '.'] then resolve root links here.dropLast rest
      else if 255 < byteSize piece then .error .nameTooLong
      else
        let name := String.ofList piece
        match Fields.get? entries name with
        | none => .error .missing
        | some (.link target) =>
          match links with
          | 0 => .error .tooManyLinks
          | links + 1 =>
            let start := if (Path.mk target).isAbsolute then [] else here
            resolve root links start (slashPieces target.toList ++ rest)
        | some _ => resolve root links (here ++ [name]) rest
    | some _ => .error .notFolder
    | none => .error .missing
termination_by pieces => (links, pieces.length)

def followedLinks : Nat := 40

def locate (root : Entry) (working : List String) (p : Path) :
    Except Refusal (List String × Entry) :=
  if p.text.toList.contains (Char.ofNat 0) then .error .nulInName
  else if p.text.isEmpty then .error .missing
  else
    let start := if p.isAbsolute then [] else working
    resolve root followedLinks start (slashPieces p.text.toList)

def pathLimit : Nat := 4096

def openAt (root : Entry) (working : List String) (p : Path) : Except Refusal Entry :=
  if p.text.utf8ByteSize < pathLimit then (locate root working p).map (·.2)
  else .error .nameTooLong

def readFile (root : Entry) (working : List String) (p : Path) : Except Refusal String := do
  match ← openAt root working p with
  | .file bytes =>
    match String.fromUTF8? bytes with
    | some text => return text
    | none => .error .notText
  | .folder _ => .error .isFolder
  | .link _ => .error .missing

def namesPath (names : List String) : Path :=
  ⟨String.ofList ('/' :: Path.slashed (names.map String.toList))⟩

mutual

def Entry.fileNames : Entry → List (List String)
  | .file _ => [[]]
  | .folder entries => entriesFileNames entries
  | .link _ => []

def entriesFileNames : List (String × Entry) → List (List String)
  | [] => []
  | (name, entry) :: rest => entry.fileNames.map (name :: ·) ++ entriesFileNames rest

end

def fileSystem (root : Entry) (working : List String) : FileSystem where
  read p := (readFile root working p).mapError Refusal.readError
  isFile p := match openAt root working p with
    | .ok (.file _) => true
    | _ => false
  canonical? p := match locate root working p with
    | .ok (names, _) => some (namesPath names)
    | .error _ => none
  files := root.fileNames.map namesPath

def Entry.place (new : Entry) : List String → Entry → Entry
  | [], _ => new
  | name :: rest, .folder entries =>
    let old := (Fields.get? entries name).getD (.folder [])
    .folder (Fields.insert entries name (new.place rest old))
  | _ :: _, other => other

def put (new root : Entry) (links : Nat) (here : List String) : List (List Char) → Entry
  | [] =>
    match new, root.at? here with
    | .folder [], some (.folder _) => root
    | _, _ => new.place here root
  | piece :: rest =>
    if !Path.isComponent piece then put new root links here rest
    else if piece = ['.', '.'] then put new root links here.dropLast rest
    else
      let there := here ++ [String.ofList piece]
      match root.at? there with
      | some (.link target) =>
        match links with
        | 0 => root
        | links + 1 =>
          let start := if (Path.mk target).isAbsolute then [] else here
          put new root links start (slashPieces target.toList ++ rest)
      | some _ => put new root links there rest
      | none => put new ((Entry.folder []).place there root) links there rest
termination_by pieces => (links, pieces.length)

def add (root : Entry) (working : List String) (p : Path) (new : Entry) : Entry :=
  let start := if p.isAbsolute then [] else working
  put new root followedLinks start (slashPieces p.text.toList)

end LayeredConfig.Disk
