import LayeredConfig.Text.Pieces

namespace LayeredConfig

open Text

structure Path where
  text : String
  deriving Repr, DecidableEq

namespace Path

inductive Anchor where
  | root
  | here
  | none
  deriving Repr, DecidableEq

def anchor (p : Path) : Anchor :=
  match p.text.toList with
  | '/' :: _ => .root
  | ['.'] => .here
  | '.' :: '/' :: _ => .here
  | _ => .none

def Anchor.text : Anchor → List Char
  | .root => ['/']
  | .here => ['.']
  | .none => []

def isAbsolute (p : Path) : Bool := p.anchor == .root

def pieces (p : Path) : List (List Char) :=
  Text.pieces '/' (p.text.toList.drop p.anchor.text.length)

def isComponent (piece : List Char) : Bool := !piece.isEmpty && piece != ['.']

def components (p : Path) : List (List Char) := p.pieces.filter isComponent

def same (p q : Path) : Bool := p.anchor == q.anchor && p.components == q.components

def slashed (pieces : List (List Char)) : List Char := ['/'].intercalate pieces

def endsInSlash (p : Path) : Bool := p.text.toList.getLast? == some '/'

def join (p q : Path) : Path :=
  if q.isAbsolute || p.text.isEmpty then q
  else if p.endsInSlash then ⟨p.text ++ q.text⟩
  else ⟨p.text ++ "/" ++ q.text⟩

def parent (p : Path) : Path :=
  match p.pieces.reverse.dropWhile (!isComponent ·) with
  | [] => ⟨""⟩
  | _ :: before =>
    let kept := (before.dropWhile (!isComponent ·)).reverse
    ⟨String.ofList (p.anchor.text ++ slashed kept)⟩

def collapse : List (List Char) → List (List Char) → List (List Char)
  | done, [] => done.reverse
  | done, piece :: rest =>
    if piece = ['.', '.'] then collapse done.tail rest else collapse (piece :: done) rest

def normal (p : Path) : Path :=
  let names := slashed (collapse [] p.components)
  ⟨String.ofList (if p.isAbsolute then '/' :: names else names)⟩

end Path

end LayeredConfig
