namespace LayeredConfig.Text

def consFirst (c : Char) : List (List Char) → List (List Char)
  | [] => [[c]]
  | piece :: rest => (c :: piece) :: rest

def lines : List Char → List (List Char)
  | [] => []
  | '\n' :: rest => [] :: lines rest
  | '\r' :: '\n' :: rest => [] :: lines rest
  | c :: rest => consFirst c (lines rest)

def pieces (separator : Char) : List Char → List (List Char)
  | [] => [[]]
  | c :: rest =>
    if c = separator then [] :: pieces separator rest else consFirst c (pieces separator rest)

def cut (p : Char → Bool) : List Char → Option (List Char × Char × List Char)
  | [] => none
  | c :: rest =>
    if p c then some ([], c, rest)
    else (cut p rest).map fun (before, mark, after) => (c :: before, mark, after)

def cutLast (p : Char → Bool) (s : List Char) : Option (List Char × Char × List Char) :=
  (cut p s.reverse).map fun (after, mark, before) => (before.reverse, mark, after.reverse)

def dropStart? : List Char → List Char → Option (List Char)
  | [], s => some s
  | _ :: _, [] => none
  | c :: start, d :: s => if c = d then dropStart? start s else none

def dropEnd? (finish s : List Char) : Option (List Char) :=
  (dropStart? finish.reverse s.reverse).map List.reverse

def byteSize (s : List Char) : Nat := s.foldr (fun c n => c.utf8Size + n) 0

end LayeredConfig.Text
