import LayeredConfig.Import.Loader
import LayeredConfig.Proofs.Outline.Descent
import LayeredConfig.Proofs.Success

namespace LayeredConfig.Import

def readSource (files : FileSystem) (path : Path) : Except Failure String :=
  sourceOf path (files.read path)

def readDirectives (files : FileSystem) (path : Path) : Except Failure Directives :=
  directivesOf path (files.read path)

lemma directivesOf_eq (path : Path) (answer : Except ReadError String) :
    directivesOf path answer =
      (sourceOf path answer).map fun source => .split (Outline.parse source.toList) := by
  rw [directivesOf]
  cases sourceOf path answer with
  | error failure => rfl
  | ok source => simp [bind, Except.bind, Except.map, pure, Except.pure, Outline.parse?_eq_ok]

lemma readDirectives_eq (files : FileSystem) (path : Path) :
    readDirectives files path =
      (readSource files path).map fun source => .split (Outline.parse source.toList) :=
  directivesOf_eq path (files.read path)

section

variable {files : FileSystem} {path : Path}

lemma readSource_eq_ok {source : String} :
    readSource files path = .ok source ↔
      files.read path = .ok source ∧ wrongHeader? source.toList = none := by
  rw [readSource]
  cases files.read path with
  | error e =>
    rw [sourceOf]
    split <;> simp
  | ok text =>
    rw [sourceOf]
    cases hwrong : wrongHeader? text.toList with
    | some header =>
      simp only [reduceCtorEq, Except.ok.injEq, false_iff, not_and]
      rintro rfl
      simp [hwrong]
    | none =>
      simp only [Except.ok.injEq]
      exact ⟨fun h => ⟨h, h ▸ hwrong⟩, And.left⟩

lemma readDirectives_eq_ok {d : Directives} :
    readDirectives files path = .ok d ↔ ∃ source, files.read path = .ok source ∧
      wrongHeader? source.toList = none ∧ Directives.split (Outline.parse source.toList) = d := by
  simp only [readDirectives_eq, map_eq_ok, readSource_eq_ok, and_assoc]

end

end LayeredConfig.Import
