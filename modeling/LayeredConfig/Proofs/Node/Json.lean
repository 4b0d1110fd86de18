import LayeredConfig.Node.Json
import LayeredConfig.Node.JsonReader
import LayeredConfig.Proofs.Node.Within
import LayeredConfig.Proofs.Number.Decimal
import LayeredConfig.Proofs.Text.Trimming

/-! The compact JSON text of plain data determines it: reading undoes writing. -/

namespace LayeredConfig.Node

open Number Text

lemma hexValue?_hexDigit {n : Nat} (h : n < 16) : hexValue? (hexDigit n) = some n := by
  have hall : ∀ n < 16, hexValue? (hexDigit n) = some n := by decide
  exact hall n h

lemma hexChar?_control {c : Char} (h : c.toNat < 32) :
    hexChar? ['0', '0', hexDigit (c.toNat / 16), hexDigit (c.toNat % 16)] = some c := by
  have hhigh := hexValue?_hexDigit (n := c.toNat / 16) (by omega)
  have hlow := hexValue?_hexDigit (n := c.toNat % 16) (by omega)
  have hzero : hexValue? '0' = some 0 := rfl
  have hvalid : c.toNat.isValidChar := c.valid
  simp [hexChar?, hhigh, hlow, hzero, Nat.div_add_mod, hvalid, Char.ofNat_toNat]

lemma eq_ofNat {c : Char} {n : Nat} (h : c.toNat = n) : c = Char.ofNat n :=
  h ▸ (Char.ofNat_toNat c).symm

lemma readChars_short {mark c : Char} (h : unescape? mark = some c) (rest : List Char) :
    readChars ('\\' :: mark :: rest) = (readChars rest).map fun (s, rest) => (c :: s, rest) := by
  have hmark : mark ≠ 'u' := by
    rintro rfl
    cases h
  rw [readChars.eq_def]
  simp only [hmark, h, Char.reduceEq, if_false, if_true]
  rfl

lemma readChars_control {c : Char} (h : c.toNat < 32) (rest : List Char) :
    readChars ('\\' :: 'u' :: '0' :: '0' :: hexDigit (c.toNat / 16) :: hexDigit (c.toNat % 16) :: rest) =
      (readChars rest).map fun (s, rest) => (c :: s, rest) := by
  rw [readChars.eq_def]
  simp only [hexChar?_control h, Char.reduceEq, if_false, if_true]
  rfl

lemma readChars_plain {c : Char} (hquote : c ≠ '"') (hbackslash : c ≠ '\\') (rest : List Char) :
    readChars (c :: rest) = (readChars rest).map fun (s, rest) => (c :: s, rest) := by
  rw [readChars.eq_def]
  simp only [hquote, hbackslash, if_false]

lemma readChars_escapeChar (c : Char) (rest : List Char) :
    readChars (escapeChar c ++ rest) = (readChars rest).map fun (s, rest) => (c :: s, rest) := by
  rw [escapeChar]
  split_ifs with hquote hbackslash hfeed hreturn htab hback hform hcontrol
  · exact readChars_short (by rw [hquote]; rfl) rest
  · exact readChars_short (by rw [hbackslash]; rfl) rest
  · exact readChars_short (by rw [hfeed]; rfl) rest
  · exact readChars_short (by rw [hreturn]; rfl) rest
  · exact readChars_short (by rw [htab]; rfl) rest
  · exact readChars_short (by rw [eq_ofNat hback]; rfl) rest
  · exact readChars_short (by rw [eq_ofNat hform]; rfl) rest
  · exact readChars_control hcontrol rest
  · exact readChars_plain hquote hbackslash rest

lemma readChars_escaped (s rest : List Char) :
    readChars (s.flatMap escapeChar ++ '"' :: rest) = some (s, rest) := by
  induction s with
  | nil =>
    rw [List.flatMap_nil, List.nil_append, readChars.eq_def]
    rfl
  | cons c s ih =>
    rw [List.flatMap_cons, List.append_assoc, readChars_escapeChar, ih]
    rfl

def Stops (rest : List Char) : Prop := ∀ c ∈ rest.head?, c.isDigit = false

lemma readWhole_toDigits (n : Int64) {rest : List Char} (hrest : Stops rest) :
    readWhole (decide (n.toInt < 0)) (Nat.toDigits 10 n.toInt.natAbs ++ rest) =
      some (.int n, rest) := by
  have hscan := scanDigits_append (fun c => isDigit_of_mem_decimal (n := n.toInt.natAbs)) hrest
  have hempty : (Nat.toDigits 10 n.toInt.natAbs).isEmpty = false :=
    List.isEmpty_eq_false_iff.mpr Nat.toDigits_ne_nil
  have hvalue : signed (decide (n.toInt < 0)) (digitsValue (Nat.toDigits 10 n.toInt.natAbs)) =
      n.toInt := plainValue_wholeLiteral n.toInt
  simp only [readWhole, hscan, hempty, hvalue, int64?_eq_some_iff.mpr rfl, Bool.false_eq_true,
    if_false, Option.map_some]

lemma readValue_digit {c : Char} (hc : c.isDigit = true) (bound : Nat) (rest : List Char) :
    readValue (bound + 1) (c :: rest) = readWhole false (c :: rest) := by
  rw [readValue]
  all_goals
    rintro rfl
    exact absurd hc (by decide)

lemma readValue_int (n : Int64) {bound : Nat} {rest : List Char} (hbound : 0 < bound)
    (hrest : Stops rest) :
    readValue bound ((toString n.toInt).toList ++ rest) = some (.int n, rest) := by
  obtain ⟨bound, rfl⟩ := Nat.exists_eq_succ_of_ne_zero hbound.ne'
  have hwhole := readWhole_toDigits n hrest
  rw [toList_toString, minus]
  by_cases hnegative : n.toInt < 0
  · simp only [hnegative, decide_true, if_true] at hwhole ⊢
    exact hwhole
  · simp only [hnegative, decide_false, Bool.false_eq_true, if_false] at hwhole ⊢
    obtain ⟨c, digits, hdigits⟩ := List.exists_cons_of_ne_nil
      (Nat.toDigits_ne_nil (b := 10) (n := n.toInt.natAbs))
    have hc : c.isDigit = true := isDigit_of_mem_decimal (hdigits ▸ List.mem_cons_self)
    rw [hdigits, List.cons_append] at hwhole ⊢
    exact (readValue_digit hc bound _).trans hwhole

lemma stops_itemsJson (items : List Node) (rest : List Char) :
    Stops (itemsJson items ++ ']' :: rest) := by
  cases items <;> rintro c ⟨⟩ <;> rfl

lemma stops_fieldsJson (fields : List (String × Node)) (rest : List Char) :
    Stops (fieldsJson fields ++ '}' :: rest) := by
  rcases fields with _ | ⟨⟨key, value⟩, fields⟩ <;> rintro c ⟨⟩ <;> rfl

lemma dropStart?_closing {bound : Nat} {s : List Char} {r : Node × List Char}
    (h : readValue bound s = some r) : dropStart? [']'] s = none := by
  rw [Option.eq_none_iff_forall_ne_some]
  intro rest hrest
  obtain rfl := dropStart?_eq_some.mp hrest
  cases bound with
  | zero => cases h
  | succ bound => cases h

lemma readValue_string (s : String) (bound : Nat) (rest : List Char) :
    readValue (bound + 1) (jsonString s.toList ++ rest) = some (.string s, rest) := by
  have htext : jsonString s.toList ++ rest = '"' :: (s.toList.flatMap escapeChar ++ '"' :: rest) := by
    simp [jsonString]
  rw [htext, readValue, readChars_escaped]
  simp

lemma readField_keyJson (key : String) {value : Node} {bound : Nat} {rest : List Char}
    (h : readValue bound (jsonChars value ++ rest) = some (value, rest)) :
    readField (readValue bound) (keyJson key ++ (jsonChars value ++ rest)) =
      some ((key, value), rest) := by
  have htext : keyJson key ++ (jsonChars value ++ rest) =
      '"' :: (key.toList.flatMap escapeChar ++ '"' :: ':' :: (jsonChars value ++ rest)) := by
    simp [keyJson, jsonString]
  rw [htext, readField, readChars_escaped]
  simp [dropStart?, h]

def ExactHere (n : Node) : Prop := ¬ Marker n ∧ n.kind ≠ .float

-- By induction on the tree, with any text behind a value. A number ends only where this text does
-- not go on with a digit; behind an item stands a comma or a bracket.
mutual

lemma readValue_json : (n : Node) → n.Everywhere ExactHere → ∀ (bound : Nat) {rest : List Char},
    n.jsonChars.length ≤ bound → Stops rest → readValue bound (n.jsonChars ++ rest) = some (n, rest)
  | .null, _, bound + 1, rest, _, _ => rfl
  | .bool true, _, bound + 1, rest, _, _ => rfl
  | .bool false, _, bound + 1, rest, _, _ => rfl
  | .int n, _, bound, rest, hbound, hrest =>
    readValue_int n ((List.length_pos_iff.mpr (toString_ne_nil n.toInt)).trans_le hbound) hrest
  | .string s, _, bound + 1, rest, _, _ => readValue_string s bound rest
  | .sequence [], _, bound + 1, rest, _, _ => rfl
  | .sequence (item :: items), h, bound + 1, rest, hbound, _ => by
    simp only [jsonChars, List.length_cons, List.length_append, List.length_nil] at hbound
    have hitem := readValue_json item h.2.1 bound (by omega) (stops_itemsJson items rest)
    have hitems := readItems_json items h.2.2 bound (by omega) rest
    have htext : jsonChars (.sequence (item :: items)) ++ rest =
        '[' :: (jsonChars item ++ (itemsJson items ++ ']' :: rest)) := by simp [jsonChars]
    rw [htext, readValue, dropStart?_closing hitem]
    simp only [hitem, hitems, Option.bind_eq_bind, Option.bind_some]
    rfl
  | .mapping [], _, bound + 1, rest, _, _ => rfl
  | .mapping ((key, value) :: fields), h, bound + 1, rest, hbound, _ => by
    simp only [jsonChars, List.length_cons, List.length_append, List.length_nil] at hbound
    have hvalue := readValue_json value h.2.1 bound (by omega) (stops_fieldsJson fields rest)
    have hfields := readFields_json fields h.2.2 bound (by omega) rest
    have htext : jsonChars (.mapping ((key, value) :: fields)) ++ rest =
        '{' :: (keyJson key ++ (jsonChars value ++ (fieldsJson fields ++ '}' :: rest))) := by
      simp [jsonChars]
    have hfield := readField_keyJson key hvalue
    have hopen : dropStart? ['}'] (keyJson key ++
        (jsonChars value ++ (fieldsJson fields ++ '}' :: rest))) = none := rfl
    rw [htext, readValue, hopen]
    simp only [hfield, hfields, Option.bind_eq_bind, Option.bind_some]
    rfl
  | .float _, h, _, _, _, _ => absurd rfl h.2
  | .expression _, h, _, _, _, _ | .tag _ _, h, _, _, _, _ => absurd trivial h.1
  | .conditional _ _, h, _, _, _, _ => absurd trivial h.1.1

lemma readItems_json : (items : List Node) → ItemsEverywhere ExactHere items → ∀ (bound : Nat),
    (itemsJson items).length < bound → ∀ rest,
      readItems bound (itemsJson items ++ ']' :: rest) = some (items, rest)
  | [], _, bound + 1, _, rest => rfl
  | item :: items, h, bound + 1, hbound, rest => by
    simp only [itemsJson, List.length_cons, List.length_append] at hbound
    have hitem := readValue_json item h.1 bound (by omega) (stops_itemsJson items rest)
    have hitems := readItems_json items h.2 bound (by omega) rest
    have htext : itemsJson (item :: items) ++ ']' :: rest =
        ',' :: (jsonChars item ++ (itemsJson items ++ ']' :: rest)) := by simp [itemsJson]
    rw [htext, readItems]
    simp only [hitem, hitems, Option.bind_eq_bind, Option.bind_some]
    rfl

lemma readFields_json : (fields : List (String × Node)) → FieldsEverywhere ExactHere fields →
    ∀ (bound : Nat), (fieldsJson fields).length < bound → ∀ rest,
      readFields bound (fieldsJson fields ++ '}' :: rest) = some (fields, rest)
  | [], _, bound + 1, _, rest => rfl
  | (key, value) :: fields, h, bound + 1, hbound, rest => by
    simp only [fieldsJson, List.length_cons, List.length_append] at hbound
    have hvalue := readValue_json value h.1 bound (by omega) (stops_fieldsJson fields rest)
    have hfields := readFields_json fields h.2 bound (by omega) rest
    have htext : fieldsJson ((key, value) :: fields) ++ '}' :: rest =
        ',' :: (keyJson key ++ (jsonChars value ++ (fieldsJson fields ++ '}' :: rest))) := by
      simp [fieldsJson]
    have hfield := readField_keyJson key hvalue
    rw [htext, readFields]
    simp only [hfield, hfields, Option.bind_eq_bind, Option.bind_some]
    rfl

end

lemma ofJson?_json {n : Node} (h : n.Everywhere ExactHere) : ofJson? n.json = some n := by
  have hend : Stops [] := fun _ hc => nomatch hc
  have hread := readValue_json n h n.jsonChars.length le_rfl hend
  rw [List.append_nil] at hread
  simp only [ofJson?, json, String.toList_ofList, hread]

lemma exact_of_isResolved {n : Node} (hn : n.isResolved = true)
    (hfloat : ∀ x, ¬ Within n (.float x)) : n.Everywhere ExactHere := by
  refine everywhere_of_within n fun m hm => ⟨isResolved_iff.mp hn m hm, fun hkind => ?_⟩
  cases m with
  | float x => exact hfloat x hm
  | _ => cases hkind

/-- A tree without markers and floats is read back from its text. So two of them with one text are
the same tree, with the fields of every mapping in the same order. -/
theorem eq_of_json_eq {a b : Node}
    (ha : a.isResolved = true) (hfloat : ∀ x, ¬ Within a (.float x))
    (hb : b.isResolved = true) (hfloat' : ∀ x, ¬ Within b (.float x)) :
    ofJson? a.json = some a ∧ (a.json = b.json → a = b) := by
  have hread := ofJson?_json (exact_of_isResolved ha hfloat)
  have hread' := ofJson?_json (exact_of_isResolved hb hfloat')
  refine ⟨hread, fun htext => Option.some_inj.mp ?_⟩
  calc some a = ofJson? a.json := hread.symm
    _ = ofJson? b.json := by rw [htext]
    _ = some b := hread'

def quotedTree : Node := .mapping [
  ("\",\"x\":[1]\x7d", .string "\\\n\t\x01\x08é"),
  ("list", .sequence [.int (-3), .bool true, .null, .mapping [], .sequence []])]

def reorderedTree : Node := .mapping [
  ("list", .sequence [.int (-3), .bool true, .null, .mapping [], .sequence []]),
  ("\",\"x\":[1]\x7d", .string "\\\n\t\x01\x08é")]

lemma not_within_float {n : Node} (h : n.Everywhere fun m => m.kind ≠ .float) (x : Float) :
    ¬ Within n (.float x) :=
  fun hx => (h.within hx).here rfl

theorem json_reordered_ne :
    quotedTree.isResolved = true ∧ (∀ x, ¬ Within quotedTree (.float x)) ∧
    reorderedTree.isResolved = true ∧ (∀ x, ¬ Within reorderedTree (.float x)) ∧
    ofJson? quotedTree.json = some quotedTree ∧ quotedTree.json ≠ reorderedTree.json := by
  have hfloat : ∀ x, ¬ Within quotedTree (.float x) := not_within_float (by
    simp [quotedTree, Everywhere, FieldsEverywhere, ItemsEverywhere, kind])
  have hfloat' : ∀ x, ¬ Within reorderedTree (.float x) := not_within_float (by
    simp [reorderedTree, Everywhere, FieldsEverywhere, ItemsEverywhere, kind])
  obtain ⟨hread, hsame⟩ := eq_of_json_eq rfl hfloat rfl hfloat'
  exact ⟨rfl, hfloat, rfl, hfloat', hread, fun htext => absurd (hsame htext)
    (by simp [quotedTree, reorderedTree])⟩

end LayeredConfig.Node
