import FunnyOption.Oracle.Contract

/-!
# Decimal prices

`normalizeDecimal` turns a decimal text into an integer number of units of `10 ^ -scale`, and `formatScaled`
writes such a number as a text again. Of `big.Rat.SetString`, which reads the text, only this is assumed: a plain
decimal text has its exact value, `decimalValue`.

The integer is the nearest one, half a unit goes up, and a number that was written by `formatScaled` is read
back as it was (`normalizeDecimal_exact`).
-/

open Foundation

namespace FunnyOption.Oracle

/-- The value of a text of digits, with digits after a point or without. -/
def decimalValue (text : String) : Option ℚ :=
  let whole := text.toList.takeWhile Char.isDigit
  match text.toList.dropWhile Char.isDigit with
  | [] => if whole = [] then none else some (Nat.ofDigitChars 10 whole 0)
  | point :: fraction =>
    if whole = [] ∨ point ≠ '.' ∨ fraction = [] ∨ ¬ fraction.all Char.isDigit then none
    else some ((Nat.ofDigitChars 10 (whole ++ fraction) 0 : ℚ) / 10 ^ fraction.length)

/-! ## Rounding -/

/-- A text with a non-negative value is read. -/
theorem normalizeDecimal_eq_some (codec : Codec) {value : String} {v : ℚ} (hne : trimSpace value ≠ "")
    (hv : codec.parseRat (trimSpace value) = some v) (hnonneg : 0 ≤ v) (scale : ℕ) :
    ∃ q : ℕ, normalizeDecimal codec value scale = some (q, formatScaled q scale) ∧
      -(1 / 2) < (q : ℚ) - v * 10 ^ scale ∧ (q : ℚ) - v * 10 ^ scale ≤ 1 / 2 := by
  rw [normalizeDecimal, if_neg hne, hv, Option.bind_some, if_neg (not_lt.mpr hnonneg)]
  refine ⟨_, rfl, ?_⟩
  have hscaled : v * 10 ^ scale = v * (10 ^ scale : ℕ) := by push_cast; rfl
  have hx : 0 ≤ v * (10 ^ scale : ℕ) := mul_nonneg hnonneg (by positivity)
  rw [hscaled]
  generalize v * ((10 ^ scale : ℕ) : ℚ) = x at hx ⊢
  have hlt := Nat.mod_lt x.num.toNat x.den_pos
  have hnum : x * x.den = (x.num.toNat / x.den : ℕ) * x.den + (x.num.toNat % x.den : ℕ) := by
    rw [Rat.mul_den_eq_num, ← Nat.cast_mul, ← Nat.cast_add, Nat.div_add_mod', ← Int.cast_natCast,
      Int.toNat_of_nonneg (Rat.num_nonneg.mpr hx)]
  generalize x.num.toNat / x.den = q at hnum ⊢
  generalize x.num.toNat % x.den = r at hnum hlt ⊢
  -- the distance from the quotient is the remainder over the denominator
  have hd : (0 : ℚ) < x.den := by exact_mod_cast x.den_pos
  have hdist : x - q = r / x.den := by
    rw [eq_div_iff hd.ne', sub_mul, hnum]
    ring
  have hpos : (0 : ℚ) ≤ r / x.den := by positivity
  have hone : (r : ℚ) / x.den < 1 := (div_lt_one hd).mpr (by exact_mod_cast hlt)
  split_ifs with hup
  · have hhalf : (1 : ℚ) / 2 ≤ r / x.den := by
      rw [div_le_div_iff₀ two_pos hd, one_mul]
      exact_mod_cast hup.2
    push_cast
    constructor <;> linarith
  · have hhalf : (r : ℚ) / x.den < 1 / 2 := by
      rw [div_lt_div_iff₀ hd two_pos, one_mul]
      exact_mod_cast (by omega : r * 2 < x.den)
    constructor <;> linarith

/-- Rounding respects the order. -/
theorem le_of_half {q q' : ℕ} (x x' : ℚ) (hq : q - x ≤ 1 / 2) (hq' : -(1 / 2) < q' - x') (hle : x ≤ x') : q ≤ q' := by
  refine Nat.lt_add_one_iff.mp ?_
  have hlt : (q : ℚ) < (q' + 1 : ℕ) := by
    push_cast
    linarith
  exact_mod_cast hlt

/-- A text that is read has a value. -/
theorem exists_of_normalizeDecimal {codec : Codec} {value text : String} {scale q : ℕ}
    (h : normalizeDecimal codec value scale = some (q, text)) :
    trimSpace value ≠ "" ∧ ∃ v, codec.parseRat (trimSpace value) = some v ∧ 0 ≤ v := by
  rw [normalizeDecimal] at h
  split_ifs at h with hne
  obtain ⟨v, hv, h⟩ := Option.bind_eq_some_iff.mp h
  split_ifs at h with hneg
  exact ⟨hne, v, hv, not_lt.mp hneg⟩

/-! ## Texts -/

theorem takeWhile_digits {l : List Char} (hl : ∀ c ∈ l, c.isDigit = true) (rest : List Char)
    (hrest : ∀ c ∈ rest.head?, c.isDigit = false) :
    (l ++ rest).takeWhile Char.isDigit = l ∧ (l ++ rest).dropWhile Char.isDigit = rest := by
  induction l with
  | nil => cases rest with
    | nil => exact ⟨rfl, rfl⟩
    | cons c rest => simp [hrest c rfl]
  | cons c l ih =>
    obtain ⟨htake, hdrop⟩ := ih fun d hd ↦ hl d (List.mem_cons_of_mem c hd)
    simp [hl c List.mem_cons_self, htake, hdrop]

/-- The digits of what `formatScaled` writes, which are more than the scale. -/
theorem formatScaled_digits (q : ℕ) {scale : ℕ} (hscale : scale ≠ 0) : ∃ digits : List Char,
    (∀ c ∈ digits, c.isDigit = true) ∧ scale < digits.length ∧ Nat.ofDigitChars 10 digits 0 = q ∧
      formatScaled q scale = String.ofList (digits.take (digits.length - scale)) ++ "." ++
        String.ofList (digits.drop (digits.length - scale)) := by
  refine ⟨(padDecimal (scale + 1) q).toList, fun c hc ↦ ?_, ?_, ofDigitChars_padDecimal _ q, ?_⟩
  · rw [padDecimal, String.toList_ofList, List.mem_append] at hc
    rcases hc with hc | hc
    · rw [List.eq_of_mem_replicate hc]
      decide
    · exact Nat.isDigit_of_mem_toDigits (by decide) (by decide) hc
  · rw [padDecimal, String.toList_ofList, List.length_append, List.length_replicate]
    omega
  · rw [formatScaled, if_neg hscale]
    rfl

/-- The value of what `formatScaled` writes. -/
theorem decimalValue_formatScaled (q scale : ℕ) : decimalValue (formatScaled q scale) = some ((q : ℚ) / 10 ^ scale) ∧
    ∀ c ∈ (formatScaled q scale).toList, isSpace c = false := by
  by_cases hscale : scale = 0
  · have hdigits : ∀ c ∈ (toString q).toList, c.isDigit = true := fun c hc ↦ isDigit_of_mem_toString hc
    obtain ⟨htake, hdrop⟩ := takeWhile_digits hdigits [] (by simp)
    rw [List.append_nil] at htake hdrop
    have htext : formatScaled q scale = toString q := by
      rw [formatScaled, if_pos hscale]
    rw [htext]
    refine ⟨?_, fun c hc ↦ isSpace_of_isDigit (hdigits c hc)⟩
    rw [decimalValue, htake, hdrop, hscale]
    simp
  · obtain ⟨digits, hdigits, hlength, hvalue, htext⟩ := formatScaled_digits q hscale
    have hlist : (formatScaled q scale).toList =
        digits.take (digits.length - scale) ++ '.' :: digits.drop (digits.length - scale) := by
      simp [htext]
    obtain ⟨htake, hdrop⟩ := takeWhile_digits (fun c hc ↦ hdigits c (List.mem_of_mem_take hc))
      ('.' :: digits.drop (digits.length - scale)) (by simp)
    have hall : ∀ c ∈ digits.drop (digits.length - scale), c.isDigit = true := fun c hc ↦
      hdigits c (List.mem_of_mem_drop hc)
    constructor
    · rw [decimalValue, hlist, htake, hdrop]
      have hnonempty : digits ≠ [] := List.ne_nil_of_length_pos (Nat.zero_lt_of_lt hlength)
      have hform : ¬ (digits.take (digits.length - scale) = [] ∨ '.' ≠ '.' ∨
          digits.drop (digits.length - scale) = [] ∨ ¬ (digits.drop (digits.length - scale)).all Char.isDigit) := by
        simp only [List.take_eq_nil_iff, List.drop_eq_nil_iff, List.all_eq_true.mpr hall, hnonempty, ne_eq,
          not_true_eq_false, or_false, false_or]
        omega
      dsimp only
      rw [if_neg hform, List.take_append_drop, hvalue, List.length_drop, Nat.sub_sub_self hlength.le]
    · rw [hlist]
      intro c hc
      rcases List.mem_append.mp hc with hc | hc
      · exact isSpace_of_isDigit (hdigits c (List.mem_of_mem_take hc))
      · rcases List.mem_cons.mp hc with rfl | hc
        · decide
        · exact isSpace_of_isDigit (hall c hc)

/-- **Normalisation is exact rounding.** -/
theorem normalizeDecimal_exact (codec : Codec)
    (hcodec : ∀ text v, decimalValue text = some v → codec.parseRat text = some v) (scale : ℕ) :
    (∀ value v, trimSpace value ≠ "" → codec.parseRat (trimSpace value) = some v → 0 ≤ v →
      ∃ q : ℕ, normalizeDecimal codec value scale = some (q, formatScaled q scale) ∧
        |q - v * 10 ^ scale| ≤ 1 / 2 ∧ (|q - v * 10 ^ scale| = 1 / 2 → v * 10 ^ scale < q)) ∧
    (∀ value value' v v' q q' text text', codec.parseRat (trimSpace value) = some v →
      codec.parseRat (trimSpace value') = some v' → v ≤ v' → normalizeDecimal codec value scale = some (q, text) →
      normalizeDecimal codec value' scale = some (q', text') → q ≤ q') ∧
    ∀ q, normalizeDecimal codec (formatScaled q scale) scale = some (q, formatScaled q scale) := by
  refine ⟨fun value v hne hv hnonneg ↦ ?_, ?_, fun q ↦ ?_⟩
  · obtain ⟨q, hq, hlower, hupper⟩ := normalizeDecimal_eq_some codec hne hv hnonneg scale
    refine ⟨q, hq, abs_le.mpr ⟨hlower.le, hupper⟩, fun htie ↦ ?_⟩
    rcases eq_or_eq_neg_of_abs_eq htie with hhalf | hhalf <;> linarith
  · intro value value' v v' q q' text text' hv hv' hle hq hq'
    obtain ⟨hne, w, hw, hnonneg⟩ := exists_of_normalizeDecimal hq
    obtain rfl := Option.some_inj.mp (hv.symm.trans hw)
    obtain ⟨hne', -⟩ := exists_of_normalizeDecimal hq'
    obtain ⟨_, heq, -, hupper⟩ := normalizeDecimal_eq_some codec hne hv hnonneg scale
    obtain ⟨_, heq', hlower, -⟩ := normalizeDecimal_eq_some codec hne' hv' (hnonneg.trans hle) scale
    obtain ⟨rfl, -⟩ := Prod.mk.inj (Option.some_inj.mp (hq.symm.trans heq))
    obtain ⟨rfl, -⟩ := Prod.mk.inj (Option.some_inj.mp (hq'.symm.trans heq'))
    exact le_of_half _ _ hupper hlower (mul_le_mul_of_nonneg_right hle (by positivity))
  · obtain ⟨hvalue, hspace⟩ := decimalValue_formatScaled q scale
    have htrim := trimSpace_eq_self hspace
    have hne : formatScaled q scale ≠ "" := by
      intro hempty
      rw [hempty] at hvalue
      exact absurd hvalue (by simp [decimalValue])
    obtain ⟨q', hq', hlower, hupper⟩ := normalizeDecimal_eq_some codec (htrim.symm ▸ hne)
      (htrim.symm ▸ hcodec _ _ hvalue) (by positivity) scale
    rw [div_mul_cancel₀ _ (by positivity)] at hlower hupper
    obtain rfl : q' = q :=
      (le_of_half _ q hupper (by simp) le_rfl).antisymm (le_of_half q _ (by simp) hlower le_rfl)
    exact hq'

/-- A codec that reads only decimals. -/
private def decimalCodec : Codec :=
  ⟨fun _ ↦ none, fun _ ↦ .absent, id, fun _ ↦ none, fun _ ↦ none, fun _ ↦ "", decimalValue⟩

/-- A text that is read as it was written. -/
theorem normalizeDecimal_exact_cents : formatScaled 13 2 = "0.13" ∧
    normalizeDecimal decimalCodec (formatScaled 13 2) 2 = some (13, formatScaled 13 2) :=
  ⟨by decide, (normalizeDecimal_exact decimalCodec (fun _ _ h ↦ h) 2).2.2 13⟩

end FunnyOption.Oracle
