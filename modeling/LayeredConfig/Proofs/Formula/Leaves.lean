import LayeredConfig.Formula.Value
import LayeredConfig.Proofs.Formula.Derivation

namespace LayeredConfig.Formula

def Term.leaves : Term → List Term
  | .signed _ operand => operand.leaves
  | .binary _ left right => left.leaves ++ right.leaves
  | t => [t]

def atoms (ts : List Lexeme) : List Term := ts.filterMap atom?

lemma atoms_mono {rest ts : List Lexeme} (h : rest ⊆ ts) : atoms rest ⊆ atoms ts :=
  List.filterMap_subset atom? h

lemma leaves_of_atom {t : Lexeme} {term : Term} (h : atom? t = some term) : term.leaves = [term] := by
  cases t <;> cases h <;> rfl

lemma leaves_of_derives {k : Nat} {ts : List Lexeme} {term : Term} (h : Derives k ts term) :
    term.leaves ⊆ atoms ts := by
  induction h with
  | tighter _ _ ih => exact ih
  | @joined k ts us t operator left right _ _ _ ihleft ihright =>
    have hright : us ⊆ ts ++ t :: us :=
      List.subset_append_of_subset_right ts (List.subset_cons_self t us)
    refine List.append_subset.mpr ⟨?_, ?_⟩
    · exact List.Subset.trans ihleft (atoms_mono (List.subset_append_left ts _))
    · exact List.Subset.trans ihright (atoms_mono hright)
  | signed _ _ ih => exact List.Subset.trans ih (atoms_mono (List.subset_cons_self _ _))
  | atom ht =>
    have hatom := atom?_eq_some.mpr ht
    simp [leaves_of_atom hatom, atoms, hatom]
  | enclosed _ ih =>
    refine List.Subset.trans ih (atoms_mono ?_)
    exact List.subset_cons_of_subset _ (List.subset_append_left _ _)

lemma readTerm_leaves {ts : List Lexeme} {term : Term} (h : readTerm ts = .ok term) :
    term.leaves ⊆ atoms ts := by
  obtain ⟨term', hread, hderives⟩ | ⟨fault, hread, -⟩ := readTerm_cases ts
  · cases hread.symm.trans h
    exact leaves_of_derives hderives
  · cases hread.symm.trans h

def Computed : Node → Prop
  | .bool _ | .int _ | .float _ => True
  | _ => False

lemma doubleArithmetic_computed {op : Operator} {x y : Float} {n : Node}
    (h : doubleArithmetic op x y = .ok n) : Computed n := by
  cases op with
  | add | sub | mul => cases h; trivial
  | div | rem =>
    simp only [doubleArithmetic] at h
    split at h
    · cases h
    · cases h; trivial
  | _ => cases h

lemma arithmetic_computed {op : Operator} {x y : Operand} {n : Node}
    (h : arithmetic op x y = .ok n) : Computed n := by
  unfold arithmetic at h
  split at h
  · obtain ⟨found, -, h⟩ := bind_eq_ok.mp h
    cases found with
    | some whole => cases h; trivial
    | none => exact doubleArithmetic_computed h
  · exact doubleArithmetic_computed h

lemma apply_computed {op : Operator} {a b n : Node} (h : op.apply a b = .ok n) : Computed n := by
  cases op with
  | equal | unequal => cases h; trivial
  | less | atMost | greater | atLeast =>
    obtain ⟨o, -, rfl⟩ := map_eq_ok.mp h
    trivial
  | _ =>
    obtain ⟨x, -, h⟩ := bind_eq_ok.mp h
    obtain ⟨y, -, h⟩ := bind_eq_ok.mp h
    exact arithmetic_computed h

lemma toNode_computed (a : Operand) : Computed a.toNode := by
  cases a <;> trivial

lemma negate_computed (a : Operand) : Computed a.negate := by
  cases a with
  | int n =>
    unfold Operand.negate
    dsimp only
    split <;> trivial
  | float x => trivial

lemma sign_computed {sign : Sign} {a n : Node} (h : sign.apply a = .ok n) : Computed n := by
  cases sign with
  | not => cases h; trivial
  | plus =>
    obtain ⟨x, -, rfl⟩ := map_eq_ok.mp h
    exact toNode_computed x
  | minus =>
    obtain ⟨x, -, rfl⟩ := map_eq_ok.mp h
    exact negate_computed x

lemma value_cases {scope : Scope} {term : Term} {n : Node} (h : term.value scope = .ok n) :
    Computed n ∨ ∃ leaf ∈ term.leaves, leaf.value scope = .ok n := by
  cases term with
  | literal | «variable» | symbol => exact .inr ⟨_, by simp [Term.leaves], h⟩
  | signed sign operand =>
    obtain ⟨a, -, h⟩ := bind_eq_ok.mp h
    exact .inl (sign_computed h)
  | binary operator left right =>
    left
    cases operator with
    | or =>
      obtain ⟨a, -, h⟩ := bind_eq_ok.mp h
      split at h
      · cases pure_eq_ok.mp h; trivial
      · obtain ⟨b, -, h⟩ := bind_eq_ok.mp h
        cases pure_eq_ok.mp h; trivial
    | and =>
      obtain ⟨a, -, h⟩ := bind_eq_ok.mp h
      split at h
      · obtain ⟨b, -, h⟩ := bind_eq_ok.mp h
        cases pure_eq_ok.mp h; trivial
      · cases pure_eq_ok.mp h; trivial
    | _ =>
      obtain ⟨a, -, h⟩ := bind_eq_ok.mp h
      obtain ⟨b, -, h⟩ := bind_eq_ok.mp h
      exact apply_computed h

end LayeredConfig.Formula
