import LayeredConfig.Path

namespace LayeredConfig

inductive ReadErrorKind where
  | notFound
  | permissionDenied
  | invalidData
  | other
  deriving Repr, DecidableEq

structure ReadError where
  kind : ReadErrorKind
  message : String
  deriving Repr, DecidableEq

structure FileSystem where
  read : Path → Except ReadError String
  isFile : Path → Bool
  canonical? : Path → Option Path
  /-- The paths of all files; every path that can be read leads to one of them. -/
  files : List Path

def FileSystem.realPath (fs : FileSystem) (p : Path) : Path := (fs.canonical? p).getD p

end LayeredConfig
