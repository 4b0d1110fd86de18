import LayeredConfig.Formula.Grammar
import LayeredConfig.Proofs.Success

/-! The grammar of formulas as rules, and that reading follows it: a formula is read from some
lexemes exactly when the rules derive it from all of them. -/

namespace LayeredConfig.Formula

inductive Joins : Nat → Lexeme → Operator → Prop where
  | or : Joins 0 .or .or
  | and : Joins 1 .and .and
  | equal : Joins 2 .equal .equal
  | unequal : Joins 2 .unequal .unequal
  | less : Joins 3 .less .less
  | atMost : Joins 3 .atMost .atMost
  | greater : Joins 3 .greater .greater
  | atLeast : Joins 3 .atLeast .atLeast
  | plus : Joins 4 .plus .add
  | minus : Joins 4 .minus .sub
  | star : Joins 5 .star .mul
  | slash : Joins 5 .slash .div
  | percent : Joins 5 .percent .rem

inductive Marks : Lexeme → Sign → Prop where
  | minus : Marks .minus .minus
  | plus : Marks .plus .plus
  | not : Marks .not .not

inductive Stands : Lexeme → Term → Prop where
  | int (n : Int64) : Stands (.int n) (.literal (.int n))
  | float (x : Float) : Stands (.float x) (.literal (.float x))
  | text (s : String) : Stands (.text s) (.literal (.string s))
  | bool (b : Bool) : Stands (.bool b) (.literal (.bool b))
  | null : Stands .null (.literal .null)
  | «variable» (name : String) : Stands (.variable name) (.variable name)
  | symbol (name : String) : Stands (.symbol name) (.symbol name)

/-- The rules of the grammar. Below the levels of the binary operators, level 6 is that of signs,
literals, references and parentheses. The left operand of a binary operator may have operators of
its level, the right one may not. -/
inductive Derives : Nat → List Lexeme → Term → Prop where
  | tighter {k : Nat} {ts : List Lexeme} {term : Term} (hk : k < 6) (h : Derives (k + 1) ts term) :
      Derives k ts term
  | joined {k : Nat} {ts us : List Lexeme} {t : Lexeme} {operator : Operator} {left right : Term}
      (hleft : Derives k ts left) (ht : Joins k t operator) (hright : Derives (k + 1) us right) :
      Derives k (ts ++ t :: us) (.binary operator left right)
  | signed {t : Lexeme} {sign : Sign} {ts : List Lexeme} {operand : Term} (ht : Marks t sign)
      (h : Derives 6 ts operand) : Derives 6 (t :: ts) (.signed sign operand)
  | atom {t : Lexeme} {term : Term} (ht : Stands t term) : Derives 6 [t] term
  | enclosed {ts : List Lexeme} {term : Term} (h : Derives 0 ts term) :
      Derives 6 (.opening :: (ts ++ [.closing])) term

lemma Joins.level_unique {j k : Nat} {t : Lexeme} {operator operator' : Operator}
    (h : Joins k t operator) (h' : Joins j t operator') : j = k := by
  cases h <;> cases h' <;> rfl

lemma sign?_eq_some {t : Lexeme} {sign : Sign} : sign? t = some sign ↔ Marks t sign := by
  constructor
  · intro h
    cases t <;> cases h <;> constructor
  · rintro ⟨⟩ <;> rfl

lemma atom?_eq_some {t : Lexeme} {term : Term} : atom? t = some term ↔ Stands t term := by
  constructor
  · intro h
    cases t <;> cases h <;> constructor
  · rintro ⟨⟩ <;> rfl

lemma Stands.sign?_eq_none {t : Lexeme} {term : Term} (h : Stands t term) : sign? t = none := by
  cases h <;> rfl

structure LevelAt (k : Nat) (level : Level) (tighter : List Level) : Prop where
  lt : k < 6
  tighter_eq : tighter = levels.drop (k + 1)
  joins : ∀ t operator, level t = some operator ↔ Joins k t operator

lemma levelAt {k : Nat} {level : Level} {tighter : List Level}
    (h : levels.drop k = level :: tighter) : LevelAt k level tighter := by
  match k, h with
  | 0, h | 1, h | 2, h | 3, h | 4, h | 5, h =>
    cases h
    refine ⟨by decide, rfl, fun t operator => ⟨fun ht => ?_, ?_⟩⟩
    · cases t <;> cases ht <;> constructor
    · rintro ⟨⟩ <;> rfl
  | k + 6, h => cases k <;> cases h

def plain {p : List Lexeme → Prop} (r : Except Fault (Term × { rest : List Lexeme // p rest })) :
    Except Fault (Term × List Lexeme) :=
  r.map fun (term, rest) => (term, rest.val)

section

variable (level : Level) (tighter : List Level) (left : Term) (t : Lexeme) (ts : List Lexeme)

lemma plain_readLevel_nil : plain (readLevel [] ts) = plain (readSigned ts) := by
  rw [readLevel]

lemma plain_readLevel_cons : plain (readLevel (level :: tighter) ts) =
    (plain (readLevel tighter ts)).bind fun (left, rest) =>
      plain (readChain level tighter left rest) := by
  rw [readLevel]
  rcases readLevel tighter ts with fault | ⟨left, rest, h⟩
  · rfl
  · simp only [plain, bind, Except.bind, Except.map]
    rcases readChain level tighter left rest with fault | ⟨term, rest', h'⟩ <;> rfl

lemma plain_readChain_nil : plain (readChain level tighter left []) = .ok (left, []) := by
  rw [readChain]
  rfl

variable {level t} in
lemma plain_readChain_stop (ht : level t = none) :
    plain (readChain level tighter left (t :: ts)) = .ok (left, t :: ts) := by
  rw [readChain, ht]
  rfl

variable {level t} in
lemma plain_readChain_cons {operator : Operator} (ht : level t = some operator) :
    plain (readChain level tighter left (t :: ts)) =
      (plain (readLevel tighter ts)).bind fun (right, rest) =>
        plain (readChain level tighter (.binary operator left right) rest) := by
  rw [readChain, ht]
  rcases readLevel tighter ts with fault | ⟨right, rest, h⟩
  · rfl
  · simp only [plain, bind, Except.bind, Except.map]
    rcases readChain level tighter (.binary operator left right) rest with fault | ⟨term, rest', h'⟩
      <;> rfl

variable {t} in
lemma plain_readSigned_sign {sign : Sign} (ht : sign? t = some sign) :
    plain (readSigned (t :: ts)) =
      (plain (readSigned ts)).map fun (operand, rest) => (.signed sign operand, rest) := by
  rw [readSigned, ht]
  rcases readSigned ts with fault | ⟨operand, rest, h⟩ <;> rfl

variable {t} in
lemma plain_readSigned_atom {term : Term} (hs : sign? t = none) (ht : atom? t = some term) :
    plain (readSigned (t :: ts)) = .ok (term, ts) := by
  rw [readSigned, hs, ht]
  rfl

variable {t} in
lemma plain_readSigned_enclosed (hs : sign? t = none) (ht : atom? t = none) :
    plain (readSigned (t :: ts)) = plain (readEnclosed t ts) := by
  rw [readSigned, hs, ht]

lemma plain_readEnclosed_opening :
    plain (readEnclosed .opening ts) = (plain (readLevel levels ts)).bind fun (term, rest) =>
      match rest with
      | .closing :: rest => .ok (term, rest)
      | t :: _ => .error (.unexpectedToken t.describe)
      | [] => .error .unexpectedEnd := by
  rw [readEnclosed]
  rcases readLevel levels ts with fault | ⟨term, rest, h⟩
  · rfl
  · rcases rest with _ | ⟨t, rest⟩
    · rfl
    · cases t <;> rfl

lemma readTerm_eq : readTerm ts = (plain (readLevel levels ts)).bind fun (term, rest) =>
    match rest with
    | [] => .ok term
    | t :: _ => .error (.unexpectedToken t.describe) := by
  rw [readTerm]
  rcases readLevel levels ts with fault | ⟨term, rest, h⟩
  · rfl
  · cases rest <;> rfl

end

def Stops (k : Nat) (rest : List Lexeme) : Prop :=
  ∀ t ∈ rest.head?, ∀ j, k ≤ j → ∀ operator, ¬ Joins j t operator

lemma Stops.mono {j k : Nat} {rest : List Lexeme} (h : Stops j rest) (hjk : j ≤ k) : Stops k rest :=
  fun t ht i hi => h t ht i (hjk.trans hi)

lemma stops_nil (k : Nat) : Stops k [] := by
  rintro t ⟨⟩

def chain (k : Nat) (left : Term) (rest : List Lexeme) : Except Fault (Term × List Lexeme) :=
  match levels.drop k with
  | [] => .ok (left, rest)
  | level :: tighter => plain (readChain level tighter left rest)

lemma chain_of_stops {k : Nat} {rest : List Lexeme} (h : Stops k rest) (left : Term) :
    chain k left rest = .ok (left, rest) := by
  rw [chain]
  split
  · rfl
  case h_2 level tighter hdrop =>
    cases rest with
    | nil => exact plain_readChain_nil level tighter left
    | cons t rest =>
      have hnone : level t = none := by
        rw [Option.eq_none_iff_forall_ne_some]
        intro operator ht
        exact h t rfl k le_rfl operator (((levelAt hdrop).joins t operator).mp ht)
      exact plain_readChain_stop tighter left rest hnone

lemma chain_joined {k : Nat} {t : Lexeme} {operator : Operator} (ht : Joins k t operator)
    (left : Term) (rest : List Lexeme) :
    chain k left (t :: rest) = (plain (readLevel (levels.drop (k + 1)) rest)).bind
      fun (right, rest) => chain k (.binary operator left right) rest := by
  have hdrop : ∃ level, levels.drop k = level :: levels.drop (k + 1) := by
    cases ht <;> exact ⟨_, rfl⟩
  obtain ⟨level, hdrop⟩ := hdrop
  simp only [chain, hdrop]
  exact plain_readChain_cons _ left rest (((levelAt hdrop).joins t operator).mpr ht)

lemma readLevel_chain {k : Nat} (hk : k < 6) (ts : List Lexeme) :
    plain (readLevel (levels.drop k) ts) = (plain (readLevel (levels.drop (k + 1)) ts)).bind
      fun (left, rest) => chain k left rest := by
  have hdrop : ∃ level, levels.drop k = level :: levels.drop (k + 1) :=
    ⟨levels[k], List.drop_eq_getElem_cons hk⟩
  obtain ⟨level, hdrop⟩ := hdrop
  simp only [chain, hdrop]
  exact plain_readLevel_cons level _ ts

lemma readLevel_of_derives {k : Nat} {ts : List Lexeme} {term : Term} (h : Derives k ts term) :
    ∀ rest, Stops (k + 1) rest →
      plain (readLevel (levels.drop k) (ts ++ rest)) = chain k term rest := by
  -- the rest is arbitrary, since a left operand is read in front of its operator
  induction h with
  | @tighter k ts term hk h ih =>
    intro rest hrest
    rw [readLevel_chain hk, ih rest (hrest.mono (Nat.le_succ _)), chain_of_stops hrest]
    rfl
  | @joined k ts us t operator left right hleft ht hright ihl ihr =>
    intro rest hrest
    -- an operator belongs to one level only, so no tighter chain takes this one
    have hstop : Stops (k + 1) (t :: (us ++ rest)) := by
      rintro _ ⟨⟩ j hj operator' hjoins
      exact absurd (ht.level_unique hjoins) (Nat.ne_of_gt hj)
    rw [List.append_assoc, List.cons_append, ihl _ hstop, chain_joined ht,
      ihr rest (hrest.mono (Nat.le_succ _)), chain_of_stops hrest]
    rfl
  | @signed t sign ts operand ht h ih =>
    intro rest hrest
    have hread := ih rest hrest
    rw [show levels.drop 6 = [] from rfl, plain_readLevel_nil] at hread ⊢
    rw [List.cons_append, plain_readSigned_sign _ (sign?_eq_some.mpr ht), hread]
    rfl
  | @atom t term ht =>
    intro rest hrest
    rw [show levels.drop 6 = [] from rfl, plain_readLevel_nil]
    exact plain_readSigned_atom rest ht.sign?_eq_none (atom?_eq_some.mpr ht)
  | @enclosed ts term h ih =>
    intro rest hrest
    have hstop : Stops 0 (.closing :: rest) := by
      rintro _ ⟨⟩ j - operator ⟨⟩
    have hread := ih (.closing :: rest) (hstop.mono (Nat.zero_le 1))
    rw [chain_of_stops hstop] at hread
    rw [show levels.drop 6 = [] from rfl, plain_readLevel_nil, List.cons_append, List.append_assoc,
      plain_readSigned_enclosed _ rfl rfl, plain_readEnclosed_opening]
    change (plain (readLevel (levels.drop 0) (ts ++ .closing :: rest))).bind _ = _
    rw [hread]
    rfl

def Misplaced (ts : List Lexeme) : Fault → Prop
  | .unexpectedEnd => True
  | .unexpectedToken token => ∃ t ∈ ts, token = t.describe
  | _ => False

lemma Misplaced.mono {ts us : List Lexeme} (h : ts ⊆ us) {fault : Fault} (hf : Misplaced ts fault) :
    Misplaced us fault := by
  cases fault with
  | unexpectedEnd => trivial
  | unexpectedToken token =>
    obtain ⟨t, ht, htoken⟩ := hf
    exact ⟨t, h ht, htoken⟩
  | _ => exact hf

lemma Derives.ne_nil {k : Nat} {ts : List Lexeme} {term : Term} (h : Derives k ts term) :
    ts ≠ [] := by
  induction h with
  | tighter _ _ ih => exact ih
  | _ => simp

def Reads (ts : List Lexeme) (spec : List Lexeme → Term → Prop) :
    Except Fault (Term × List Lexeme) → Prop
  | .ok (term, rest) => ∃ used, ts = used ++ rest ∧ spec used term
  | .error fault => Misplaced ts fault

lemma Reads.bind {ts : List Lexeme} {spec spec' : List Lexeme → Term → Prop}
    {r : Except Fault (Term × List Lexeme)} (h : Reads ts spec r)
    {f : Term × List Lexeme → Except Fault (Term × List Lexeme)}
    (hf : ∀ used term rest, ts = used ++ rest → spec used term →
      Reads rest (fun more => spec' (used ++ more)) (f (term, rest))) :
    Reads ts spec' (r.bind f) := by
  rcases r with fault | ⟨term, rest⟩
  · exact h
  · obtain ⟨used, rfl, hspec⟩ := h
    have hnext := hf used term rest rfl hspec
    change Reads _ _ (f (term, rest))
    rcases hr : f (term, rest) with fault | ⟨term', rest'⟩
    · rw [hr] at hnext
      exact Misplaced.mono (List.subset_append_right used rest) hnext
    · rw [hr] at hnext
      obtain ⟨more, rfl, hspec'⟩ := hnext
      exact ⟨used ++ more, (List.append_assoc used more rest').symm, hspec'⟩

lemma Reads.cons {t : Lexeme} {ts : List Lexeme} {spec : List Lexeme → Term → Prop}
    {r : Except Fault (Term × List Lexeme)} (h : Reads ts (fun used => spec (t :: used)) r) :
    Reads (t :: ts) spec r := by
  rcases r with fault | ⟨term, rest⟩
  · exact Misplaced.mono (List.subset_cons_self t ts) h
  · obtain ⟨used, rfl, hspec⟩ := h
    exact ⟨t :: used, rfl, hspec⟩

lemma length_lt_of_derives {k : Nat} {ts used rest : List Lexeme} {term : Term}
    (hts : ts = used ++ rest) (h : Derives k used term) : rest.length < ts.length := by
  have hused : 0 < used.length := List.length_pos_iff.mpr h.ne_nil
  rw [hts, List.length_append]
  omega

lemma reads_derived :
    (∀ tighter ts k, k ≤ 6 → levels.drop k = tighter →
      Reads ts (Derives k) (plain (readLevel tighter ts))) ∧
    (∀ level tighter left ts k, levels.drop k = level :: tighter → ∀ before, Derives k before left →
      Reads ts (fun used => Derives k (before ++ used)) (plain (readChain level tighter left ts))) ∧
    (∀ ts, Reads ts (Derives 6) (plain (readSigned ts))) ∧
    (∀ t ts, Reads (t :: ts) (Derives 6) (plain (readEnclosed t ts))) := by
  -- the cases are the equations of the four readers; a chain carries the derivation of what it has
  -- read so far
  apply readLevel.mutual_induct
  case case1 =>
    intro ts ih k hk hdrop
    have hlength : levels.length ≤ k := List.drop_eq_nil_iff.mp hdrop
    obtain rfl : k = 6 := le_antisymm hk hlength
    rw [plain_readLevel_nil]
    exact ih
  case case2 =>
    intro level tighter ts ihl ihc k hk hdrop
    obtain ⟨hlt, htighter, -⟩ := levelAt hdrop
    rw [plain_readLevel_cons]
    refine (ihl (k + 1) hlt htighter.symm).bind fun used left rest hts hleft => ?_
    exact ihc left rest (length_lt_of_derives hts hleft) k hdrop used (.tighter hlt hleft)
  case case3 =>
    intro level tighter left k hdrop before hleft
    rw [plain_readChain_nil]
    exact ⟨[], rfl, by simpa using hleft⟩
  case case4 =>
    intro level tighter left t ts hnone k hdrop before hleft
    rw [plain_readChain_stop _ _ _ hnone]
    exact ⟨[], rfl, by simpa using hleft⟩
  case case5 =>
    intro level tighter left t ts operator ho ihl ihc k hdrop before hleft
    obtain ⟨hlt, htighter, hjoins⟩ := levelAt hdrop
    rw [plain_readChain_cons _ _ _ ho]
    refine Reads.cons ((ihl (k + 1) hlt htighter.symm).bind fun used right rest hts hright => ?_)
    have hboth : Derives k (before ++ t :: used) (.binary operator left right) :=
      .joined hleft ((hjoins t operator).mp ho) hright
    have hmore := ihc right rest (length_lt_of_derives hts hright) k hdrop _ hboth
    simpa only [List.append_assoc, List.cons_append] using hmore
  case case6 =>
    rw [readSigned]
    trivial
  case case7 =>
    intro t ts sign hs ih
    rw [plain_readSigned_sign _ hs]
    refine Reads.cons ?_
    rcases hr : plain (readSigned ts) with fault | ⟨operand, rest⟩
    · rw [hr] at ih
      exact ih
    · rw [hr] at ih
      obtain ⟨used, rfl, hoperand⟩ := ih
      exact ⟨used, rfl, .signed (sign?_eq_some.mp hs) hoperand⟩
  case case8 =>
    intro t ts hs term ht
    rw [plain_readSigned_atom _ hs ht]
    exact ⟨[t], rfl, .atom (atom?_eq_some.mp ht)⟩
  case case9 =>
    intro t ts hs ht ih
    rw [plain_readSigned_enclosed _ hs ht]
    exact ih
  case case10 =>
    intro ts ih
    rw [plain_readEnclosed_opening]
    refine Reads.cons ((ih 0 (Nat.zero_le 6) rfl).bind fun used term rest hts hterm => ?_)
    rcases rest with _ | ⟨t, rest⟩
    · trivial
    · cases t with
      | closing => exact ⟨[.closing], rfl, .enclosed hterm⟩
      | _ => exact ⟨_, List.mem_cons_self, rfl⟩
  case case11 =>
    intro ts t ht
    have hread : plain (readEnclosed t ts) = .error (.unexpectedToken t.describe) := by
      cases t <;> simp_all [readEnclosed, plain, Except.map]
    rw [hread]
    exact ⟨t, List.mem_cons_self, rfl⟩

lemma readTerm_of_derives {ts : List Lexeme} {term : Term} (h : Derives 0 ts term) :
    readTerm ts = .ok term := by
  have hread := readLevel_of_derives h [] (stops_nil 1)
  rw [List.append_nil, chain_of_stops (stops_nil 0)] at hread
  change plain (readLevel levels ts) = _ at hread
  rw [readTerm_eq, hread]
  rfl

lemma readTerm_cases (ts : List Lexeme) :
    (∃ term, readTerm ts = .ok term ∧ Derives 0 ts term) ∨
      ∃ fault, readTerm ts = .error fault ∧ Misplaced ts fault := by
  have hreads : Reads ts (Derives 0) (plain (readLevel levels ts)) :=
    reads_derived.1 levels ts 0 (Nat.zero_le 6) rfl
  rw [readTerm_eq]
  rcases hr : plain (readLevel levels ts) with fault | ⟨term, rest⟩
  · rw [hr] at hreads
    exact .inr ⟨fault, rfl, hreads⟩
  · rw [hr] at hreads
    obtain ⟨used, rfl, hterm⟩ := hreads
    cases rest with
    | nil => exact .inl ⟨term, rfl, by rwa [List.append_nil]⟩
    | cons t rest => exact .inr ⟨.unexpectedToken t.describe, rfl, t, by simp, rfl⟩

/-- A formula is read from some lexemes if and only if the rules derive it from all of them, and
otherwise reading stops at one of the lexemes or misses one behind them. -/
theorem readTerm_derives (ts : List Lexeme) :
    (∀ term, readTerm ts = .ok term ↔ Derives 0 ts term) ∧
    ((∃ term, Derives 0 ts term) ∨ readTerm ts = .error .unexpectedEnd ∨
      ∃ t ∈ ts, readTerm ts = .error (.unexpectedToken t.describe)) := by
  obtain ⟨term, hread, hterm⟩ | ⟨fault, hread, hfault⟩ := readTerm_cases ts
  · refine ⟨fun other => ⟨fun hother => ?_, readTerm_of_derives⟩, .inl ⟨term, hterm⟩⟩
    cases hread.symm.trans hother
    exact hterm
  · refine ⟨fun other => ⟨fun hother => ?_, readTerm_of_derives⟩, .inr ?_⟩
    · cases hread.symm.trans hother
    · cases fault with
      | unexpectedEnd => exact .inl hread
      | unexpectedToken token =>
        obtain ⟨t, ht, rfl⟩ := hfault
        exact .inr ⟨t, ht, hread⟩
      | _ => exact hfault.elim

end LayeredConfig.Formula
