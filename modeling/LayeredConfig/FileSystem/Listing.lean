import LayeredConfig.FileSystem

namespace LayeredConfig

abbrev Listing := List (Path × Except ReadError String)

namespace Listing

def find? (files : Listing) (p : Path) : Option (Except ReadError String) :=
  (files.reverse.find? fun (q, _) => q.same p).map (·.2)

def has (files : Listing) (p : Path) : Bool := (find? files p).isSome

def fileSystem (files : Listing) : FileSystem where
  read p := (find? files p).getD (.error ⟨.notFound, "entity not found"⟩)
  isFile p := has files p
  canonical? p := if has files p.normal then some p.normal else none
  files := files.map (·.1)

end Listing

end LayeredConfig
