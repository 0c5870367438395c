import Mathlib

/-!
# Text

The string routines of Go's standard library that identifiers and proofs pass through:
`strings.TrimSpace`, `strings.TrimPrefix`, the case maps, `encoding/hex`, and the zero-padded
decimal numeral of `strconv`. Strings are handled through their list of code points, so that
every routine is a list function and evaluates on concrete text.

A few facts carry the users of this file. `decodeTrimmedHex_encodeHex0x` reads back what was written
as `0x` followed by hexadecimal digits, through the trimming a reader applies first.
`padDecimal_injective` says that padding a numeral with zeros loses nothing. Trimming and raising
a text is idempotent, by `trimSpace_trimSpace`, `trimSpace_toUpper` and `toUpper_toUpper`, and so is
trimming and lowering one. `label_inj` reads a text back that a label ends, and `toString_colon_inj` a number
from the front of a name.
-/

namespace Foundation

/-! ## Space and case -/

/-- The code points `unicode.IsSpace` accepts. -/
def isSpace (c : Char) : Bool :=
  (0x09 ≤ c.toNat && c.toNat ≤ 0x0D) || c.toNat == 0x20 || c.toNat == 0x85 || c.toNat == 0xA0 ||
    c.toNat == 0x1680 || (0x2000 ≤ c.toNat && c.toNat ≤ 0x200A) || c.toNat == 0x2028 ||
    c.toNat == 0x2029 || c.toNat == 0x202F || c.toNat == 0x205F || c.toNat == 0x3000

/-- `strings.TrimSpace`. -/
def trimSpace (s : String) : String := String.ofList ((s.toList.dropWhile isSpace).reverse.dropWhile isSpace).reverse

/-- `strings.TrimPrefix`: drop `p` from the front of `s` if it is there. -/
def trimPrefix (s p : String) : String :=
  if p.toList.isPrefixOf s.toList then String.ofList (s.toList.drop p.toList.length) else s

/-- `strings.ToUpper`, on the letters of ASCII. -/
def toUpper (s : String) : String := String.ofList (s.toList.map Char.toUpper)

/-- `strings.ToLower`, on the letters of ASCII. -/
def toLower (s : String) : String := String.ofList (s.toList.map Char.toLower)

private theorem dropWhile_eq_self_of_forall {α : Type*} {p : α → Bool} {l : List α} (h : ∀ a ∈ l, p a = false) :
    l.dropWhile p = l := by
  cases l with
  | nil => rfl
  | cons a l => rw [List.dropWhile_cons_of_neg (by simp [h a])]

theorem trimSpace_eq_self {s : String} (h : ∀ c ∈ s.toList, isSpace c = false) : trimSpace s = s := by
  rw [trimSpace, dropWhile_eq_self_of_forall h, dropWhile_eq_self_of_forall (by simpa using h),
    List.reverse_reverse, String.ofList_toList]

/-- A trimmed text stays trimmed behind one without spaces. -/
theorem trimSpace_append {p t : String} (hp : ∀ c ∈ p.toList, isSpace c = false) (hne : p ≠ "")
    (ht : trimSpace t = t) : trimSpace (p ++ t) = p ++ t := by
  have hback : List.rdropWhile isSpace t.toList = t.toList := by
    have hdrop : List.rdropWhile isSpace (t.toList.dropWhile isSpace) = t.toList :=
      (String.toList_ofList.symm).trans (congrArg String.toList ht)
    rw [← hdrop, List.rdropWhile_idempotent]
  have hpne : p.toList ≠ [] := fun h ↦ hne (String.toList_inj.mp h)
  have hfront : (p ++ t).toList.dropWhile isSpace = (p ++ t).toList := by
    rw [String.toList_append, List.dropWhile_eq_self_iff]
    intro hlen
    have hmem : (p.toList ++ t.toList)[0] ∈ p.toList := by
      rw [List.getElem_append_left (List.length_pos_iff.mpr hpne)]
      exact List.getElem_mem _
    rw [hp _ hmem]
    exact Bool.false_ne_true
  have hwhole : List.rdropWhile isSpace (p ++ t).toList = (p ++ t).toList := by
    rw [String.toList_append, List.rdropWhile_eq_self_iff]
    intro hne'
    by_cases htne : t.toList = []
    · have hmem : (p.toList ++ t.toList).getLast hne' ∈ p.toList := by
        simp only [htne, List.append_nil]
        exact List.getLast_mem _
      rw [hp _ hmem]
      exact Bool.false_ne_true
    · rw [List.getLast_append_of_ne_nil hne' htne]
      exact List.rdropWhile_eq_self_iff.mp hback htne
  have htrim : trimSpace (p ++ t) = String.ofList (List.rdropWhile isSpace ((p ++ t).toList.dropWhile isSpace)) := rfl
  rw [htrim, hfront, hwhole, String.ofList_toList]

/-- A text between two without spaces is trimmed already. -/
theorem trimSpace_between {p t : String} (m : String) (hp : ∀ c ∈ p.toList, isSpace c = false) (hpne : p ≠ "")
    (ht : ∀ c ∈ t.toList, isSpace c = false) (htne : t ≠ "") : trimSpace (p ++ m ++ t) = p ++ m ++ t := by
  have hdrop : ∀ {a b : List Char}, (∀ c ∈ a, isSpace c = false) → a ≠ [] →
      (a ++ b).dropWhile isSpace = a ++ b := by
    intro a b ha hne
    obtain ⟨c, l, rfl⟩ := List.exists_cons_of_ne_nil hne
    exact List.dropWhile_cons_of_neg (by simp [ha c])
  have hne : ∀ {s : String}, s ≠ "" → s.toList ≠ [] := fun hs h ↦ hs (String.toList_inj.mp h)
  have hfront := hdrop hp (hne hpne) (b := m.toList ++ t.toList)
  have hback := hdrop (a := t.toList.reverse) (b := (p.toList ++ m.toList).reverse) (by simpa using ht)
    (by simpa using hne htne)
  rw [← List.reverse_append] at hback
  rw [trimSpace, String.toList_append, String.toList_append, List.append_assoc, hfront, ← List.append_assoc, hback,
    List.reverse_reverse, ← String.toList_append, ← String.toList_append, String.ofList_toList]

private theorem mem_dropWhile_of_not {α : Type*} {p : α → Bool} {l : List α} {a : α} (ha : a ∈ l) (h : p a = false) :
    a ∈ l.dropWhile p := by
  have hmem : a ∈ l.takeWhile p ++ l.dropWhile p := by rwa [List.takeWhile_append_dropWhile]
  rcases List.mem_append.mp hmem with hmem | hmem
  · exact absurd ((List.mem_takeWhile_imp hmem).symm.trans h) (by simp)
  · exact hmem

variable {c : Char}

/-- Trimming takes no character away that is no space. -/
theorem mem_trimSpace {s : String} (hc : c ∈ s.toList) (h : isSpace c = false) : c ∈ (trimSpace s).toList := by
  have hfront := mem_dropWhile_of_not hc h
  have hback := mem_dropWhile_of_not (List.mem_reverse.mpr hfront) h
  rw [trimSpace, String.toList_ofList]
  exact List.mem_reverse.mpr hback

/-- A text with a character that is no space is not blank. -/
theorem trimSpace_ne_empty {s : String} (hc : c ∈ s.toList) (h : isSpace c = false) : trimSpace s ≠ "" := by
  intro hempty
  have hmem := mem_trimSpace hc h
  rw [hempty] at hmem
  exact absurd hmem List.not_mem_nil

theorem mem_of_mem_trimSpace {s : String} (h : c ∈ (trimSpace s).toList) : c ∈ s.toList := by
  rw [trimSpace, String.toList_ofList, List.mem_reverse] at h
  exact (List.dropWhile_sublist _).subset (List.mem_reverse.mp ((List.dropWhile_sublist _).subset h))

/-- Raised text has no letter that raising would change. -/
theorem notMem_toUpper {s : String} (h : c.toUpper ≠ c) : c ∉ (toUpper s).toList := by
  intro hmem
  rw [toUpper, String.toList_ofList] at hmem
  obtain ⟨e, -, rfl⟩ := List.mem_map.mp hmem
  exact h e.toUpper_toUpper_eq_toUpper

theorem isSpace_eq_false_of_printable (h : 0x21 ≤ c.toNat) (h' : c.toNat ≤ 0x7E) : isSpace c = false := by
  simp only [isSpace, Bool.or_eq_false_iff, Bool.and_eq_false_iff, beq_eq_false_iff_ne, decide_eq_false_iff_not]
  omega

theorem isSpace_toUpper (c : Char) : isSpace c.toUpper = isSpace c := by
  by_cases h : 'a'.val ≤ c.val ∧ c.val ≤ 'z'.val
  · -- a lower-case letter is sent to an upper-case one, and neither is a space
    have hlow : 97 ≤ c.toNat ∧ c.toNat ≤ 122 := by simpa [UInt32.le_iff_toNat_le] using h
    have hval : c.toUpper.val = c.val + ('A'.val - 'a'.val) := by rw [Char.toUpper, dif_pos h]
    have hdiff : ('A'.val - 'a'.val).toNat = 2 ^ 32 - 32 := by decide
    have hup : c.toUpper.toNat = (c.toNat + (2 ^ 32 - 32)) % 2 ^ 32 := by
      rw [Char.toNat, hval, UInt32.toNat_add, hdiff, Char.toNat]
    rw [isSpace_eq_false_of_printable (by omega) (by omega), isSpace_eq_false_of_printable (by omega) (by omega)]
  · rw [Char.toUpper, dif_neg h]

theorem isSpace_toLower (c : Char) : isSpace c.toLower = isSpace c := by
  by_cases h : c.val ≥ 'A'.val ∧ c.val ≤ 'Z'.val
  · have hup : 65 ≤ c.toNat ∧ c.toNat ≤ 90 := by simpa [UInt32.le_iff_toNat_le] using h
    have hval : c.toLower.val = c.val + ('a'.val - 'A'.val) := by rw [Char.toLower, dif_pos h]
    have hdiff : ('a'.val - 'A'.val).toNat = 32 := by decide
    have hlow : c.toLower.toNat = (c.toNat + 32) % 2 ^ 32 := by
      rw [Char.toNat, hval, UInt32.toNat_add, hdiff, Char.toNat]
    rw [isSpace_eq_false_of_printable (by omega) (by omega), isSpace_eq_false_of_printable (by omega) (by omega)]
  · rw [Char.toLower, dif_neg h]

/-- The spaces of a lowered text are those of the text. -/
theorem mem_of_mem_toLower {s : String} (hc : isSpace c = true) (h : c ∈ (toLower s).toList) : c ∈ s.toList := by
  rw [toLower, String.toList_ofList] at h
  obtain ⟨e, he, rfl⟩ := List.mem_map.mp h
  rw [isSpace_toLower] at hc
  rw [Char.toLower, dif_neg]
  · exact he
  · intro hup
    have hup : 65 ≤ e.toNat ∧ e.toNat ≤ 90 := by simpa [UInt32.le_iff_toNat_le] using hup
    rw [isSpace_eq_false_of_printable (by omega) (by omega)] at hc
    exact absurd hc Bool.false_ne_true

theorem trimSpace_toUpper (s : String) : trimSpace (toUpper s) = toUpper (trimSpace s) := by
  have hcomp : isSpace ∘ Char.toUpper = isSpace := funext isSpace_toUpper
  simp [trimSpace, toUpper, List.dropWhile_map, ← List.map_reverse, hcomp]

theorem trimSpace_toLower (s : String) : trimSpace (toLower s) = toLower (trimSpace s) := by
  have hcomp : isSpace ∘ Char.toLower = isSpace := funext isSpace_toLower
  simp [trimSpace, toLower, List.dropWhile_map, ← List.map_reverse, hcomp]

theorem trimSpace_trimSpace (s : String) : trimSpace (trimSpace s) = trimSpace s := by
  have hfront : (List.rdropWhile isSpace (s.toList.dropWhile isSpace)).dropWhile isSpace =
      List.rdropWhile isSpace (s.toList.dropWhile isSpace) := by
    rw [List.dropWhile_eq_self_iff]
    intro hlen
    -- the trimmed text starts as the text without its leading spaces does
    have hpre := List.rdropWhile_prefix isSpace (s.toList.dropWhile isSpace)
    rw [hpre.getElem hlen]
    exact List.dropWhile_eq_self_iff.mp (List.dropWhile_idempotent isSpace s.toList) _
  have htrim : ∀ t : String, trimSpace t =
      String.ofList (List.rdropWhile isSpace (t.toList.dropWhile isSpace)) := fun _ ↦ rfl
  rw [htrim s, htrim, String.toList_ofList, hfront, List.rdropWhile_idempotent]

theorem toUpper_toUpper (s : String) : toUpper (toUpper s) = toUpper s := by
  simp [toUpper, Function.comp_def, Char.toUpper_toUpper_eq_toUpper]

theorem toLower_toLower (s : String) : toLower (toLower s) = toLower s := by
  simp [toLower, Function.comp_def, Char.toLower_toLower_eq_toLower]

theorem trimPrefix_append (p s : String) : trimPrefix (p ++ s) p = s := by
  rw [trimPrefix, String.toList_append, if_pos (by simp), List.drop_left, String.ofList_toList]

/-! ## Hexadecimal -/

/-- The lower-case hexadecimal digit of a half byte. -/
def hexDigit (n : ℕ) : Char := Char.ofNat (if n < 10 then 0x30 + n else 0x57 + n)

/-- The value of a hexadecimal digit of either case. -/
def hexValue (c : Char) : Option ℕ :=
  if 0x30 ≤ c.toNat ∧ c.toNat ≤ 0x39 then some (c.toNat - 0x30)
  else if 0x61 ≤ c.toNat ∧ c.toNat ≤ 0x66 then some (c.toNat - 0x57)
  else if 0x41 ≤ c.toNat ∧ c.toNat ≤ 0x46 then some (c.toNat - 0x37)
  else none

/-- `hex.EncodeToString`. -/
def encodeHex (b : List UInt8) : String :=
  String.ofList (b.flatMap fun x ↦ [hexDigit (x.toNat / 16), hexDigit (x.toNat % 16)])

/-- The digit pairs of `hex.DecodeString`. An odd digit and a character that is not a digit are
errors. -/
def decodeHexList : List Char → Option (List UInt8)
  | [] => some []
  | [_] => none
  | c :: d :: l => do
    let hi ← hexValue c
    let lo ← hexValue d
    let rest ← decodeHexList l
    return UInt8.ofNat (16 * hi + lo) :: rest

/-- `hex.DecodeString`. -/
def decodeHex (s : String) : Option (List UInt8) := decodeHexList s.toList

theorem hexValue_hexDigit : ∀ n < 16, hexValue (hexDigit n) = some n := by decide

theorem isSpace_hexDigit : ∀ n < 16, isSpace (hexDigit n) = false := by decide

private theorem div_lt_sixteen (x : UInt8) : x.toNat / 16 < 16 := by
  have := x.toNat_lt
  omega

theorem decodeHex_encodeHex (b : List UInt8) : decodeHex (encodeHex b) = some b := by
  rw [decodeHex, encodeHex, String.toList_ofList]
  induction b with
  | nil => rfl
  | cons x b ih =>
    have hx : 16 * (x.toNat / 16) + x.toNat % 16 = x.toNat := Nat.div_add_mod _ _
    simp only [List.flatMap_cons, List.cons_append, List.nil_append, decodeHexList,
      hexValue_hexDigit _ (div_lt_sixteen x), hexValue_hexDigit _ (Nat.mod_lt x.toNat (by decide)),
      ih, hx, Option.bind_eq_bind, Option.bind_some, UInt8.ofNat_toNat, pure]

private theorem isSpace_of_mem_encodeHex {b : List UInt8} (h : c ∈ (encodeHex b).toList) : isSpace c = false := by
  rw [encodeHex, String.toList_ofList, List.mem_flatMap] at h
  obtain ⟨x, -, hc⟩ := h
  rcases List.mem_pair.mp hc with rfl | rfl
  · exact isSpace_hexDigit _ (div_lt_sixteen x)
  · exact isSpace_hexDigit _ (Nat.mod_lt _ (by decide))

/-- Decode text that may carry surrounding space and a leading `0x`. -/
def decodeTrimmedHex (s : String) : Option (List UInt8) := decodeHex (trimPrefix (trimSpace s) "0x")

/-- Write bytes as `0x` and hexadecimal digits. -/
def encodeHex0x (b : List UInt8) : String := "0x" ++ encodeHex b

@[simp]
theorem trimSpace_encodeHex0x (b : List UInt8) : trimSpace (encodeHex0x b) = encodeHex0x b := by
  refine trimSpace_eq_self fun c hc ↦ ?_
  rw [encodeHex0x, String.toList_append, List.mem_append] at hc
  rcases hc with hc | hc
  · rcases List.mem_pair.mp hc with rfl | rfl <;> decide
  · exact isSpace_of_mem_encodeHex hc

/-- **Reading back.** What is written as `0x` and digits decodes to the bytes it was written
from. -/
theorem decodeTrimmedHex_encodeHex0x (b : List UInt8) : decodeTrimmedHex (encodeHex0x b) = some b := by
  rw [decodeTrimmedHex, trimSpace_encodeHex0x, encodeHex0x, trimPrefix_append, decodeHex_encodeHex]

theorem encodeHex0x_injective : Function.Injective encodeHex0x := by
  intro b c h
  have hdecode := congrArg decodeTrimmedHex h
  rw [decodeTrimmedHex_encodeHex0x, decodeTrimmedHex_encodeHex0x] at hdecode
  exact Option.some.inj hdecode

theorem encodeHex0x_ne_empty (b : List UInt8) : encodeHex0x b ≠ "" := by
  intro h
  have hlist := congrArg String.toList h
  rw [encodeHex0x, String.toList_append] at hlist
  exact absurd (List.append_eq_nil_iff.mp hlist).1 (by decide)

theorem encodeHex_injective : Function.Injective encodeHex := by
  intro b c h
  have hdecode := congrArg decodeHex h
  rw [decodeHex_encodeHex, decodeHex_encodeHex] at hdecode
  exact Option.some.inj hdecode

theorem encodeHex_ne_empty {b : List UInt8} (hb : b ≠ []) : encodeHex b ≠ "" := by
  intro h
  exact hb (encodeHex_injective (h.trans rfl))

/-! ## Decimal numerals -/

/-- The decimal digits of `big.Int.SetString`. -/
def parseDigits (l : List Char) : Option ℤ :=
  if l ≠ [] ∧ l.all Char.isDigit then some (Nat.ofDigitChars 10 l 0) else none

/-- `big.Int.SetString` in base ten. -/
def parseBigInt (s : String) : Option ℤ :=
  match s.toList with
  | '-' :: l => (parseDigits l).map (- ·)
  | '+' :: l => parseDigits l
  | l => parseDigits l

/-- `big.Int.IsInt64`. -/
def isInt64 (x : ℤ) : Bool := -2 ^ 63 ≤ x && x < 2 ^ 63

/-- `strconv.ParseInt` to base ten, for numbers of 64 bits. -/
def parseInt (s : String) : Option ℤ := (parseBigInt s).filter isInt64

/-- The decimal numeral of `n`, padded on the left with zeros to at least `width` digits. -/
def padDecimal (width n : ℕ) : String :=
  String.ofList (List.replicate (width - (Nat.toDigits 10 n).length) '0' ++ Nat.toDigits 10 n)

/-- The value of the digits does not see the zeros. -/
theorem ofDigitChars_padDecimal (width n : ℕ) : Nat.ofDigitChars 10 (padDecimal width n).toList 0 = n := by
  rw [padDecimal, String.toList_ofList, Nat.ofDigitChars_append, Nat.ofDigitChars_replicate_zero, Nat.mul_zero,
    Nat.ofDigitChars_ten_toDigits]

/-- Padding keeps numerals apart. -/
theorem padDecimal_injective (width : ℕ) : Function.Injective (padDecimal width) := by
  intro m n h
  rw [← ofDigitChars_padDecimal width m, h, ofDigitChars_padDecimal]

theorem isDigit_of_mem_toString {n : ℕ} (hc : c ∈ (toString n).toList) : c.isDigit = true := by
  have hmem : c ∈ Nat.toDigits 10 n := by simpa using hc
  exact Nat.isDigit_of_mem_toDigits (by decide) (by decide) hmem

theorem isSpace_of_isDigit (hc : c.isDigit = true) : isSpace c = false := by
  simp only [Char.isDigit, Bool.and_eq_true, decide_eq_true_eq, UInt32.le_iff_toNat_le] at hc
  exact isSpace_eq_false_of_printable (le_trans (by decide) hc.1) (le_trans hc.2 (by decide))

theorem trimSpace_toString (n : ℕ) : trimSpace (toString n) = toString n :=
  trimSpace_eq_self fun _ hc ↦ isSpace_of_isDigit (isDigit_of_mem_toString hc)

/-- A numeral is a padded one of width zero. -/
theorem toString_injective : Function.Injective (toString : ℕ → String) := by
  intro m n h
  refine padDecimal_injective 0 ?_
  simpa [padDecimal, toString, Nat.repr] using h

theorem isSpace_of_mem_toString_int {n : ℤ} (hc : c ∈ (toString n).toList) : isSpace c = false := by
  cases n with
  | ofNat n => exact isSpace_of_isDigit (isDigit_of_mem_toString hc)
  | negSucc n =>
    change c ∈ ("-" ++ toString (n + 1)).toList at hc
    rw [String.toList_append, List.mem_append] at hc
    rcases hc with hc | hc
    · rw [List.mem_singleton.mp hc]
      decide
    · exact isSpace_of_isDigit (isDigit_of_mem_toString hc)

private theorem toString_ne_neg (m n : ℕ) : toString m ≠ "-" ++ toString n := by
  intro h
  have hmem : '-' ∈ (toString m).toList := by
    rw [h, String.toList_append]
    exact List.mem_append_left _ List.mem_cons_self
  exact absurd (isDigit_of_mem_toString hmem) (by decide)

/-- A sign keeps the negative numbers apart from the others. -/
theorem toString_int_injective : Function.Injective (toString : ℤ → String) := by
  intro m n h
  cases m with
  | ofNat m =>
    cases n with
    | ofNat n => exact congrArg Int.ofNat (toString_injective h)
    | negSucc n => exact absurd h (toString_ne_neg m (n + 1))
  | negSucc m =>
    cases n with
    | ofNat n => exact absurd h.symm (toString_ne_neg n (m + 1))
    | negSucc n =>
      have hnat : m + 1 = n + 1 := toString_injective ((String.append_right_inj "-").mp h)
      rw [Nat.add_right_cancel hnat]

/-! ## Labels

A label between two texts marks where the first ends if it has a character that this text does not have. -/

section Labels

variable {α : Type*} {a b : α} {l m label x y : List α}

theorem append_cons_inj (hl : a ∉ l) (hm : a ∉ m) (h : l ++ a :: x = m ++ a :: y) : l = m ∧ x = y := by
  induction l generalizing m with
  | nil =>
    cases m with
    | nil => exact ⟨rfl, List.tail_eq_of_cons_eq h⟩
    | cons b m => exact absurd (List.head_eq_of_cons_eq h) (List.ne_of_not_mem_cons hm)
  | cons b l ih =>
    cases m with
    | nil => exact absurd (List.head_eq_of_cons_eq h).symm (List.ne_of_not_mem_cons hl)
    | cons e m =>
      obtain ⟨rfl, htail⟩ := List.cons.inj h
      obtain ⟨rfl, hback⟩ := ih (List.not_mem_of_not_mem_cons hl) (List.not_mem_of_not_mem_cons hm) htail
      exact ⟨rfl, hback⟩

private theorem append_label_inj (hlabel : a ∈ label) (hl : a ∉ l) (hm : a ∉ m)
    (h : l ++ (label ++ x) = m ++ (label ++ y)) : l = m ∧ x = y := by
  obtain ⟨front, back, rfl, hfront⟩ := List.eq_append_cons_of_mem hlabel
  simp only [List.append_assoc, List.cons_append] at h
  rw [← List.append_assoc, ← List.append_assoc m] at h
  obtain ⟨hsame, hrest⟩ := append_cons_inj (by simp [hl, hfront]) (by simp [hm, hfront]) h
  exact ⟨List.append_cancel_right hsame, List.append_cancel_left hrest⟩

end Labels

variable {label p q t u : String}

/-- The text in front of a label can be read back, and so can the text behind it. -/
theorem label_inj (c : Char) (hlabel : c ∈ label.toList) (hp : c ∉ p.toList) (hq : c ∉ q.toList)
    (h : p ++ (label ++ t) = q ++ (label ++ u)) : p = q ∧ t = u := by
  have hlist := congrArg String.toList h
  simp only [String.toList_append] at hlist
  obtain ⟨hfront, hback⟩ := append_label_inj hlabel hp hq hlist
  exact ⟨String.toList_inj.mp hfront, String.toList_inj.mp hback⟩

/-- The same for the last place of a label, where the text behind it lacks the character. -/
theorem label_inj_last (c : Char) (hlabel : c ∈ label.toList) (hp : c ∉ p.toList) (hq : c ∉ q.toList)
    (h : t ++ label ++ p = u ++ label ++ q) : t = u ∧ p = q := by
  have hlist := congrArg (fun s ↦ s.toList.reverse) h
  simp only [String.toList_append, List.reverse_append, List.append_assoc] at hlist
  obtain ⟨hback, hfront⟩ := append_label_inj (List.mem_reverse.mpr hlabel) (mt List.mem_reverse.mp hp)
    (mt List.mem_reverse.mp hq) hlist
  exact ⟨String.toList_inj.mp (List.reverse_injective hfront), String.toList_inj.mp (List.reverse_injective hback)⟩

/-! ## Numbers in names

Names are made of texts and numbers with colons between them. A number has no colon and no space in it, and
the case maps do not change it. -/

theorem toUpper_append (s t : String) : toUpper (s ++ t) = toUpper s ++ toUpper t := by
  rw [toUpper, toUpper, toUpper, String.toList_append, List.map_append, String.ofList_append]

theorem toLower_append (s t : String) : toLower (s ++ t) = toLower s ++ toLower t := by
  rw [toLower, toLower, toLower, String.toList_append, List.map_append, String.ofList_append]

/-- The characters of a numeral are digits, or its sign. -/
theorem isDigit_or_sign_of_mem_toString {n : ℤ} (hc : c ∈ (toString n).toList) : c.isDigit = true ∨ c = '-' := by
  cases n with
  | ofNat n => exact .inl (isDigit_of_mem_toString hc)
  | negSucc n =>
    change c ∈ ("-" ++ toString (n + 1)).toList at hc
    rw [String.toList_append, List.mem_append] at hc
    rcases hc with hc | hc
    · exact .inr (List.mem_singleton.mp hc)
    · exact .inl (isDigit_of_mem_toString hc)

theorem colon_notMem_toString (n : ℤ) : ':' ∉ (toString n).toList := by
  intro hmem
  rcases isDigit_or_sign_of_mem_toString hmem with hdigit | hsign
  · exact absurd hdigit (by decide)
  · exact absurd hsign (by decide)

private theorem toUpper_of_isDigit (hc : c.isDigit = true) : c.toUpper = c := by
  simp only [Char.isDigit, Bool.and_eq_true, decide_eq_true_eq] at hc
  rw [Char.toUpper, dif_neg]
  intro hlower
  exact absurd (UInt32.le_trans hlower.1 hc.2) (by decide)

private theorem toLower_of_isDigit (hc : c.isDigit = true) : c.toLower = c := by
  simp only [Char.isDigit, Bool.and_eq_true, decide_eq_true_eq] at hc
  rw [Char.toLower, dif_neg]
  intro hupper
  exact absurd (UInt32.le_trans hupper.1 hc.2) (by decide)

theorem toUpper_toString (n : ℤ) : toUpper (toString n) = toString n := by
  rw [toUpper, List.map_congr_left (g := id), List.map_id, String.ofList_toList]
  intro c hc
  rcases isDigit_or_sign_of_mem_toString hc with hdigit | rfl
  · exact toUpper_of_isDigit hdigit
  · decide

theorem toLower_toString (n : ℤ) : toLower (toString n) = toString n := by
  rw [toLower, List.map_congr_left (g := id), List.map_id, String.ofList_toList]
  intro c hc
  rcases isDigit_or_sign_of_mem_toString hc with hdigit | rfl
  · exact toLower_of_isDigit hdigit
  · decide

/-- A number in front of a colon can be read back, and so can the text behind it. -/
theorem toString_colon_inj {m n : ℤ} {s t : String} :
    toString m ++ ":" ++ s = toString n ++ ":" ++ t ↔ m = n ∧ s = t := by
  constructor
  · intro h
    rw [String.append_assoc, String.append_assoc] at h
    obtain ⟨hnumber, hrest⟩ := label_inj ':' (by decide) (colon_notMem_toString m) (colon_notMem_toString n) h
    exact ⟨toString_int_injective hnumber, hrest⟩
  · rintro ⟨rfl, rfl⟩
    rfl

/-- A name, a number and a text that is trimmed. -/
theorem trimSpace_numbered {head rest : String} (n : ℤ) (hhead : head.toList.all (!isSpace ·) = true)
    (hrest : trimSpace rest = rest) :
    trimSpace (head ++ toString n ++ ":" ++ rest) = head ++ toString n ++ ":" ++ rest := by
  refine trimSpace_append (fun c hc ↦ ?_) (fun hempty ↦ ?_) hrest
  · rw [String.toList_append, String.toList_append, List.mem_append, List.mem_append] at hc
    rcases hc with (hc | hc) | hc
    · simpa using List.all_eq_true.mp hhead c hc
    · exact isSpace_of_mem_toString_int hc
    · rw [List.mem_singleton.mp hc]
      decide
  · have hmem : ':' ∈ (head ++ toString n ++ ":").toList := by simp
    rw [hempty] at hmem
    cases hmem

end Foundation
