import Mathlib.Data.String.Basic
import UssdFlows.Flow.Condition
import UssdFlows.Proofs.Flow.Choices
import UssdFlows.Proofs.Number.Nearest

/-!
# What a condition compares

The four comparisons by size go by one linear order: that of the values if both texts
denote finite numbers, and that of the texts by code point otherwise
(`Operator.comparedAs_numbers`, `Operator.comparedAs_texts`).  So they agree with each other in every case
(`Operator.comparisons_agree`).

Numbers are those of the binary64 format, so what is compared of two numerals are the
numbers of the format nearest to them; whole numbers up to `2 ^ 53` are such numbers
themselves, and numerals of whole numbers beyond the format are compared as texts
(`Operator.numerals_compared`).
-/

namespace UssdFlows

variable {l r : String}

/-! ## Numerals -/

namespace Number

variable {c : Char} {cs : List Char} {x : Binary64}

theorem isFinite_of_finiteOf? {s : String} (h : finiteOf? s = some x) : x.isFinite = true := by
  simp only [finiteOf?] at h
  split at h
  · exact absurd h (by simp)
  · split at h
    · split at h
      · rename_i hfinite
        rwa [← Option.some.inj h]
      · exact absurd h (by simp)
    · exact absurd h (by simp)

theorem isDigit_iff : c.isDigit = true ↔ 48 ≤ c.toNat ∧ c.toNat ≤ 57 := by
  simp only [Char.isDigit, Bool.and_eq_true, decide_eq_true_eq]
  exact Iff.rfl

theorem not_isBlank_of_isDigit (h : c.isDigit = true) : Text.isBlank c = false := by
  have hrange := isDigit_iff.1 h
  simp [Text.isBlank, Text.isWhiteSpace]
  omega

theorem asciiDigit_of_isDigit (h : c.isDigit = true) : asciiDigit c = c := by
  have hzero : '0'.toNat = 48 := rfl
  have hback : 48 + (c.toNat - 48) = c.toNat := by
    have hrange := isDigit_iff.1 h
    omega
  simp only [asciiDigit, Text.digitValue?, if_pos h, hzero, hback, Char.ofNat_toNat]

/-- A list of digits is read as a whole number. -/
theorem readDecimal?_digits (hne : cs ≠ []) (hdigits : ∀ c ∈ cs, c.isDigit = true) :
    readDecimal? cs = some (Binary64.ofDecimal false (readDigits cs) 0) := by
  obtain ⟨d, ds, rfl⟩ := List.exists_cons_of_ne_nil hne
  have hd : d.isDigit = true := hdigits d List.mem_cons_self
  have hother {c : Char} (hc : c.isDigit = false) : d ≠ c := by
    rintro rfl
    exact absurd hd (by rw [hc]; exact Bool.false_ne_true)
  have hsign : splitSign (d :: ds) = (false, d :: ds) := by
    rw [splitSign.eq_3 _ (by simp [hother (c := '-') rfl]) (by simp [hother (c := '+') rfl])]
  have hlower : d.toLower = d := by
    have hcapital : ¬ (d.val ≥ 'A'.val ∧ d.val ≤ 'Z'.val) := by
      rintro ⟨hle, -⟩
      have hle : 65 ≤ d.toNat := hle
      have hrange := isDigit_iff.1 hd
      omega
    exact dif_neg hcapital
  have htake : (d :: ds).takeWhile Char.isDigit = d :: ds := List.takeWhile_eq_self_iff.2 hdigits
  have hdrop : (d :: ds).dropWhile Char.isDigit = [] := List.dropWhile_eq_nil_iff.2 hdigits
  have hread : readUnsigned? false (d :: ds) =
      some (Binary64.ofDecimal false (readDigits (d :: ds)) 0) := by
    simp [readUnsigned?, spanDigits, htake, hdrop, readExponent?]
  simp [readDecimal?, hsign, hlower, hother, hread]

/-- A numeral denotes the number that its whole number is read as, if that is finite. -/
theorem finiteOf?_numeral {s : String} {m : Nat} (h : readNat? s.toList = some m) :
    finiteOf? s =
      if (Binary64.ofDecimal false m 0).isFinite then some (Binary64.ofDecimal false m 0)
      else none := by
  rw [readNat?] at h
  split at h
  · rename_i hdigits
    rw [Bool.and_eq_true, List.all_eq_true, Bool.not_eq_true', List.isEmpty_eq_false_iff] at hdigits
    obtain ⟨hne, hdigits⟩ := hdigits
    have hstrip : Text.stripBy Text.isBlank s.toList = s.toList :=
      Text.stripBy_eq_self
        (fun c hc => not_isBlank_of_isDigit (hdigits c (List.mem_of_mem_head? hc)))
        (fun c hc => not_isBlank_of_isDigit (hdigits c (List.mem_of_getLast? hc)))
    have hunder : s.toList.contains '_' = false := by
      rw [← Bool.not_eq_true, List.contains_iff_mem]
      exact fun hmem => absurd (hdigits '_' hmem) (by decide)
    have hmap : s.toList.map asciiDigit = s.toList := by
      conv_rhs => rw [← List.map_id s.toList]
      exact List.map_congr_left fun c hc => asciiDigit_of_isDigit (hdigits c hc)
    rw [← Option.some.inj h, finiteOf?, hstrip, hunder, hmap, readDecimal?_digits hne hdigits]
    rfl
  · exact absurd h (by simp)

/-- Blanks around a text do not change the number that it denotes. -/
theorem finiteOf?_pad {before after : String} (hbefore : Text.isBlankText before = true)
    (hafter : Text.isBlankText after = true) (s : String) :
    finiteOf? (before ++ s ++ after) = finiteOf? s := by
  rw [Text.isBlankText, List.all_eq_true] at hbefore hafter
  rw [finiteOf?, String.toList_append, String.toList_append, Text.stripBy_pad hbefore hafter,
    finiteOf?]

end Number

/-! ## One order -/

namespace Operator

/-- The four comparisons of two texts by size go by the order of `a` and `b`. -/
structure ComparedAs {α : Type} [LT α] (l r : String) (a b : α) : Prop where
  equal : equals.holds (some l) r = true ↔ a = b
  unequal : notEquals.holds (some l) r = true ↔ a ≠ b
  greater : greaterThan.holds (some l) r = true ↔ b < a
  less : lessThan.holds (some l) r = true ↔ a < b

theorem comparedAs_numbers {x y : Binary64} (hl : Number.finiteOf? l = some x)
    (hr : Number.finiteOf? r = some y) : ComparedAs l r x.value y.value := by
  have hx := Number.isFinite_of_finiteOf? hl
  have hy := Number.isFinite_of_finiteOf? hr
  have heq := Binary64.equal_iff hx hy
  constructor <;>
    simp only [holds, compares, Operands.ofTexts, hl, hr, Operands.equal, Operands.less,
      Operands.greater, Bool.not_eq_true']
  · exact heq
  · rw [← Bool.not_eq_true, heq]
  · exact Binary64.less_iff hy hx
  · exact Binary64.less_iff hx hy

theorem comparedAs_texts (h : Number.finiteOf? l = none ∨ Number.finiteOf? r = none) :
    ComparedAs l r l r := by
  have htexts : Operands.ofTexts l r = .texts l r := by
    rw [Operands.ofTexts]
    rcases h with h | h
    · simp [h]
    · cases Number.finiteOf? l <;> simp [h]
  constructor <;>
    simp only [holds, compares, htexts, Operands.equal, Operands.less, Operands.greater]
  · exact beq_iff_eq
  · simp
  · exact decide_eq_true_iff
  · exact decide_eq_true_iff

section Order

variable {α : Type} [LinearOrder α] {a b : α}

/-- The comparisons by size agree with each other if they go by a linear order. -/
theorem ComparedAs.agree (h : ComparedAs l r a b) (hswap : ComparedAs r l b a) :
    [lessThan, equals, greaterThan].countP (fun o => o.holds (some l) r) = 1 ∧
      notEquals.holds (some l) r = !equals.holds (some l) r ∧
      greaterThan.holds (some l) r = lessThan.holds (some r) l ∧
      equals.holds (some l) r = equals.holds (some r) l := by
  refine ⟨?_, ?_, ?_, ?_⟩
  · simp only [List.countP_cons, List.countP_nil, h.less, h.equal, h.greater]
    rcases lt_trichotomy a b with hlt | rfl | hlt
    · simp [hlt, hlt.ne, hlt.not_gt]
    · simp
    · simp [hlt, hlt.ne', hlt.not_gt]
  · rw [Bool.eq_iff_iff, h.unequal, Bool.not_eq_true', ← Bool.not_eq_true, h.equal]
  · rw [Bool.eq_iff_iff, h.greater, hswap.less]
  · rw [Bool.eq_iff_iff, h.equal, hswap.equal, eq_comm]

end Order

/-- A text that starts with another one contains it. -/
theorem contains_of_startsWith (h : startsWith.holds (some l) r = true) :
    contains.holds (some l) r = true := by
  obtain ⟨after, heq⟩ := List.isPrefixOf_iff_prefix.1 h
  exact occursIn_iff.2 ⟨[], after, heq.symm⟩

/-- **Agreement.**  Of two texts exactly one of "less", "equal" and "greater" holds, being
different is not being equal, "greater" is "less" seen from the other side, equality goes
both ways, and what a text starts with it contains.  If both are numbers, blanks around
them change no comparison by size. -/
theorem comparisons_agree (l r : String) :
    ([lessThan, equals, greaterThan].countP (fun o => o.holds (some l) r) = 1 ∧
      notEquals.holds (some l) r = !equals.holds (some l) r ∧
      greaterThan.holds (some l) r = lessThan.holds (some r) l ∧
      equals.holds (some l) r = equals.holds (some r) l) ∧
    (startsWith.holds (some l) r = true → contains.holds (some l) r = true) ∧
    ∀ p p' q q' : String, [p, p', q, q'].all Text.isBlankText = true →
      (Number.finiteOf? l).isSome = true → (Number.finiteOf? r).isSome = true →
      ∀ o ∈ [lessThan, equals, greaterThan, notEquals],
        o.holds (some (p ++ l ++ p')) (q ++ r ++ q') = o.holds (some l) r := by
  refine ⟨?_, contains_of_startsWith, fun p p' q q' hblank hl hr o ho => ?_⟩
  · cases hl : Number.finiteOf? l with
    | none => exact (comparedAs_texts (.inl hl)).agree (comparedAs_texts (.inr hl))
    | some x =>
        cases hr : Number.finiteOf? r with
        | none => exact (comparedAs_texts (.inr hr)).agree (comparedAs_texts (.inl hr))
        | some y => exact (comparedAs_numbers hl hr).agree (comparedAs_numbers hr hl)
  · obtain ⟨x, hx⟩ := Option.isSome_iff_exists.1 hl
    obtain ⟨y, hy⟩ := Option.isSome_iff_exists.1 hr
    simp only [List.all_cons, List.all_nil, Bool.and_true, Bool.and_eq_true] at hblank
    obtain ⟨hp, hp', hq, hq'⟩ := hblank
    have h := comparedAs_numbers hx hy
    have hpad := comparedAs_numbers ((Number.finiteOf?_pad hp hp' l).trans hx)
      ((Number.finiteOf?_pad hq hq' r).trans hy)
    simp only [List.mem_cons, List.not_mem_nil, or_false] at ho
    rcases ho with rfl | rfl | rfl | rfl
    · rw [Bool.eq_iff_iff, hpad.less, h.less]
    · rw [Bool.eq_iff_iff, hpad.equal, h.equal]
    · rw [Bool.eq_iff_iff, hpad.greater, h.greater]
    · rw [Bool.eq_iff_iff, hpad.unequal, h.unequal]

/-- A number with blanks around it is compared as the number, one with the beginning of
another text contains it, and just one of three comparisons holds. -/
theorem comparisons_agree_padded :
    lessThan.holds (some " 2\t") "10.0 " = lessThan.holds (some "2") "10.0" ∧
      contains.holds (some "0241234567") "024" = true ∧
      [lessThan, equals, greaterThan].countP (fun o => o.holds (some "nan") "3") = 1 := by
  refine ⟨?_, ?_, (comparisons_agree "nan" "3").1.1⟩
  · exact (comparisons_agree "2" "10.0").2.2 " " "\t" "" " " (by decide) (by decide +kernel)
      (by decide +kernel) lessThan (by decide)
  · exact (comparisons_agree "0241234567" "024").2.1 (by decide)

/-! ## Numerals as numbers -/

section Numerals

variable {m n : Nat}

theorem finiteOf?_of_lt {s : String} (h : Number.readNat? s.toList = some m)
    (hm : m < Binary64.overflow) :
    Number.finiteOf? s = some (Binary64.ofDecimal false m 0) := by
  rw [Number.finiteOf?_numeral h, if_pos (Binary64.isNearest_ofDecimal hm).inFormat.isFinite]

theorem finiteOf?_of_overflow {s : String} (h : Number.readNat? s.toList = some m)
    (hm : Binary64.overflow ≤ m) : Number.finiteOf? s = none := by
  rw [Number.finiteOf?_numeral h, Binary64.ofDecimal_overflow hm]
  rfl

theorem comparedAs_nearest (hl : Number.readNat? l.toList = some m)
    (hr : Number.readNat? r.toList = some n) (hm : m < Binary64.overflow)
    (hn : n < Binary64.overflow) :
    ∃ x y : Binary64, x.IsNearest m ∧ y.IsNearest n ∧ ComparedAs l r x.value y.value :=
  ⟨_, _, Binary64.isNearest_ofDecimal hm, Binary64.isNearest_ofDecimal hn,
    comparedAs_numbers (finiteOf?_of_lt hl hm) (finiteOf?_of_lt hr hn)⟩

theorem comparedAs_whole (hl : Number.readNat? l.toList = some m)
    (hr : Number.readNat? r.toList = some n) (hm : m ≤ 2 ^ 53) (hn : n ≤ 2 ^ 53) :
    ComparedAs l r m n := by
  obtain ⟨x, y, hx, hy, h⟩ := comparedAs_nearest hl hr (hm.trans_lt Binary64.lt_overflow)
    (hn.trans_lt Binary64.lt_overflow)
  rw [hx.value_whole hm, hy.value_whole hn] at h
  exact ⟨h.equal.trans Nat.cast_inj, h.unequal.trans Nat.cast_inj.not,
    h.greater.trans Nat.cast_lt, h.less.trans Nat.cast_lt⟩

theorem readNat?_of_digits {s : String} (hne : s ≠ "") (h : s.toList.all Char.isDigit = true) :
    ∃ m, Number.readNat? s.toList = some m := by
  refine ⟨Number.readDigits s.toList, if_pos ?_⟩
  have hlist : s.toList ≠ [] := fun hnil => hne (String.toList_eq_nil_iff.1 hnil)
  rw [h, Bool.and_true, Bool.not_eq_true', List.isEmpty_eq_false_iff]
  exact hlist

end Numerals

/-- **Numerals.**  Two texts of decimal digits are compared as whole numbers up to
`2 ^ 53`, as the numbers of the format nearest to their whole numbers below the limit of
the format, and as texts if one of them is beyond that or has no digits. -/
theorem numerals_compared (l r : String) (hl : l.toList.all Char.isDigit = true)
    (hr : r.toList.all Char.isDigit = true) :
    (l = "" ∨ r = "") ∧ ComparedAs l r l r ∨
    ∃ m n : Nat, Number.readNat? l.toList = some m ∧ Number.readNat? r.toList = some n ∧
      (m ≤ 2 ^ 53 → n ≤ 2 ^ 53 → ComparedAs l r m n) ∧
      (m < Binary64.overflow → n < Binary64.overflow →
        ∃ x y : Binary64, x.IsNearest m ∧ y.IsNearest n ∧ ComparedAs l r x.value y.value) ∧
      (Binary64.overflow ≤ m ∨ Binary64.overflow ≤ n → ComparedAs l r l r) := by
  by_cases hempty : l = "" ∨ r = ""
  · refine .inl ⟨hempty, comparedAs_texts ?_⟩
    have hnone : Number.finiteOf? "" = none := by decide
    rcases hempty with rfl | rfl
    · exact .inl hnone
    · exact .inr hnone
  · obtain ⟨hl0, hr0⟩ := not_or.1 hempty
    obtain ⟨m, hm⟩ := readNat?_of_digits hl0 hl
    obtain ⟨n, hn⟩ := readNat?_of_digits hr0 hr
    exact .inr ⟨m, n, hm, hn, comparedAs_whole hm hn, comparedAs_nearest hm hn,
      fun h => comparedAs_texts (h.imp (finiteOf?_of_overflow hm) (finiteOf?_of_overflow hn))⟩

/-- Ten is greater than nine, which as a text it is not. -/
theorem numerals_compared_ten : greaterThan.holds (some "10") "9" = true := by
  obtain ⟨h, -⟩ | ⟨m, n, hm, hn, hwhole, -⟩ :=
    numerals_compared "10" "9" (by decide) (by decide)
  · exact absurd h (by decide)
  · obtain rfl : 10 = m := Option.some.inj hm
    obtain rfl : 9 = n := Option.some.inj hn
    exact (hwhole (by decide) (by decide)).greater.2 (by decide)

/-- The numerals of two neighbouring whole numbers beyond `2 ^ 53` are found equal, and a
numeral of more than 309 digits is found less than a single digit. -/
theorem numerals_conflated :
    Number.readNat? "9007199254740993".toList = some 9007199254740993 ∧
      Number.readNat? "9007199254740992".toList = some 9007199254740992 ∧
      equals.holds (some "9007199254740993") "9007199254740992" = true ∧
      lessThan.holds (some (String.ofList ('1' :: List.replicate 309 '0'))) "9" = true := by
  have hlist : (String.ofList ('1' :: List.replicate 309 '0')).toList =
      '1' :: List.replicate 309 '0' := String.toList_ofList
  have hread : Number.readNat? (String.ofList ('1' :: List.replicate 309 '0')).toList =
      some (Nat.pow 10 309) := by
    rw [hlist]
    decide +kernel
  have hlimit : Binary64.overflow ≤ Nat.pow 10 309 := by decide +kernel
  refine ⟨by decide +kernel, by decide +kernel, by decide +kernel,
    (comparedAs_texts (.inl (finiteOf?_of_overflow hread hlimit))).less.2 ?_⟩
  rw [String.lt_iff_toList_lt, hlist]
  decide +kernel

end Operator

end UssdFlows
