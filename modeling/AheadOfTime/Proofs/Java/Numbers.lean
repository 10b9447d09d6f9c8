import AheadOfTime.Proofs.Binary64.Decimal
import AheadOfTime.Proofs.Java.Constants

/-!
# Numbers written as Java literals

The digits of an integer are read as that integer, and a decimal as one with its value, whether
it is written with a power of ten or without.
-/

namespace AheadOfTime.Java

namespace Constant

/-- Digits, at least one of them. -/
def Digits (chars : List Char) : Prop :=
  chars ≠ [] ∧ ∀ c ∈ chars, c.isDigit = true

theorem digits_singleton {c : Char} (digit : c.isDigit = true) : Digits [c] :=
  ⟨List.cons_ne_nil c [], List.forall_mem_singleton.2 digit⟩

theorem digits?_eq {chars : List Char} (digits : Digits chars) :
    digits? chars = some (Nat.ofDigitChars 10 chars 0) := by
  rw [digits?, if_pos ⟨digits.1, List.all_eq_true.2 digits.2⟩]

theorem digits_toDigits (value : Nat) : Digits (Nat.toDigits 10 value) :=
  ⟨Nat.toDigits_ne_nil, fun _ member => Nat.isDigit_of_mem_toDigits (by decide) (by decide) member⟩

theorem integer?_toDigits (long : Bool) (value : Nat) :
    integer? long (Nat.toDigits 10 value) = some (.integer value long) := by
  have plain : Nat.toDigits 10 value = ['0'] ∨ (Nat.toDigits 10 value).head? ≠ some '0' := by
    rcases Nat.eq_zero_or_pos value with rfl | positive
    · exact .inl rfl
    · obtain ⟨c, rest, digits, notZero⟩ := (Binary64.leading_toDigits positive).first
      rw [digits]
      exact .inr fun same => notZero (Option.some.inj same)
  rw [integer?, if_pos plain, digits?_eq (digits_toDigits value), Nat.ofDigitChars_ten_toDigits]
  rfl

/-- An integer is written as the digits of its magnitude, with a sign before them if it is
negative. -/
theorem toList_toString (value : Int) :
    (toString value).toList =
      (if value < 0 then ['-'] else []) ++ Nat.toDigits 10 value.natAbs := by
  cases value with
  | ofNat value =>
      exact Nat.toList_repr
  | negSucc value =>
      rw [if_pos (Int.negSucc_lt_zero value), Int.toString_eq_repr]
      change ("-" ++ (value + 1).repr).toList = _
      rw [String.toList_append, Nat.toList_repr]
      rfl

theorem power?_toString (value : Int) : power? (toString value).toList = some value := by
  have digits := digits_toDigits value.natAbs
  rw [toList_toString]
  split_ifs with negative
  · rw [List.singleton_append, power?, digits?_eq digits, Nat.ofDigitChars_ten_toDigits]
    refine congrArg some ?_
    change -(value.natAbs : Int) = value
    omega
  · have unsigned : ∀ sign : Char, sign.isDigit = false → ∀ rest,
        [] ++ Nat.toDigits 10 value.natAbs ≠ sign :: rest := by
      intro sign notDigit rest same
      rw [List.nil_append] at same
      rw [digits.2 sign (same ▸ List.mem_cons_self)] at notDigit
      cases notDigit
    rw [power?]
    · rw [List.nil_append, digits?_eq digits, Nat.ofDigitChars_ten_toDigits]
      refine congrArg some (Int.natAbs_of_nonneg ?_)
      omega
    · exact unsigned '-' rfl
    · exact unsigned '+' rfl

/-- How the digits of a real number are written: without a point, or with one among them. -/
inductive Pointed : (mantissa whole fraction : List Char) → Prop where
  | whole (whole : List Char) : Pointed whole whole []
  | point (whole fraction : List Char) : Pointed (whole ++ '.' :: fraction) whole fraction

/-- How a power of ten is written behind a number: not at all, or with a mark before it. -/
inductive Powered : (suffix : List Char) → (power : Int) → Prop where
  | unit : Powered [] 0
  | marked {chars : List Char} {power : Int} (isPower : power? chars = some power) :
      Powered ('e' :: chars) power

theorem isPowerMark_of_isDigit {c : Char} (digit : c.isDigit = true) : isPowerMark c = false := by
  rw [isPowerMark, Bool.or_eq_false_iff, beq_eq_false_iff_ne, beq_eq_false_iff_ne]
  constructor
  · rintro rfl
    cases digit
  · rintro rfl
    cases digit

theorem ne_point_of_isDigit {c : Char} (digit : c.isDigit = true) : c ≠ '.' := by
  rintro rfl
  cases digit

section

variable {mantissa whole fraction : List Char} (pointed : Pointed mantissa whole fraction)
  (digits : Digits (whole ++ fraction))
include pointed digits

theorem Pointed.each : ∀ c ∈ mantissa, c.isDigit = true ∨ c = '.' := by
  obtain ⟨-, each⟩ := digits
  cases pointed with
  | whole =>
      rw [List.append_nil] at each
      exact fun c member => .inl (each c member)
  | point =>
      obtain ⟨wholeEach, fractionEach⟩ := List.forall_mem_append.1 each
      refine List.forall_mem_append.2 ⟨fun c member => .inl (wholeEach c member), ?_⟩
      exact List.forall_mem_cons.2 ⟨.inr rfl, fun c member => .inl (fractionEach c member)⟩

theorem Pointed.split :
    mantissa.takeWhile (· != '.') = whole ∧ (mantissa.dropWhile (· != '.')).drop 1 = fraction := by
  have wholeEach : ∀ c ∈ whole, (c != '.') = true := fun c member =>
    bne_iff_ne.2 (ne_point_of_isDigit (digits.2 c (List.mem_append_left _ member)))
  cases pointed with
  | whole =>
      rw [List.takeWhile_eq_self_iff.2 wholeEach, List.dropWhile_eq_nil_iff.2 wholeEach]
      exact ⟨rfl, rfl⟩
  | point =>
      rw [List.takeWhile_append_of_pos wholeEach, List.dropWhile_append_of_pos wholeEach]
      simp

theorem real?_eq {suffix : List Char} {power : Int} (powered : Powered suffix power) :
    real? (mantissa ++ suffix) =
      some (.real (Nat.ofDigitChars 10 (whole ++ fraction) 0) (power - fraction.length)) := by
  have unmarked : ∀ c ∈ mantissa, (!isPowerMark c) = true := by
    intro c member
    rcases pointed.each digits c member with digit | rfl
    · rw [isPowerMark_of_isDigit digit]
      rfl
    · rfl
  obtain ⟨isWhole, isFraction⟩ := pointed.split digits
  have parts : (mantissa ++ suffix).takeWhile (!isPowerMark ·) = mantissa ∧
      (mantissa ++ suffix).dropWhile (!isPowerMark ·) = suffix := by
    rw [List.takeWhile_append_of_pos unmarked, List.dropWhile_append_of_pos unmarked]
    cases powered with
    | unit =>
        exact ⟨List.append_nil _, rfl⟩
    | marked isPower =>
        exact ⟨List.append_nil _, rfl⟩
  rw [real?]
  simp only [parts, isWhole, isFraction, digits?_eq digits]
  cases powered with
  | unit =>
      rfl
  | marked isPower =>
      simp [isPower]

end

/-- A number that ends in digits bears no mark of a type. -/
theorem number?_append {chars : List Char} (digits : Digits chars) (before : List Char) :
    number? (before ++ chars) =
      if (before ++ chars).all Char.isDigit then integer? false (before ++ chars)
      else real? (before ++ chars) := by
  obtain ⟨nonempty, each⟩ := digits
  have unmarked : ∀ mark : Char, mark.isDigit = false →
      (before ++ chars).getLast? ≠ some mark := by
    intro mark notDigit same
    rw [List.getLast?_append_of_ne_nil _ nonempty] at same
    rw [each mark (List.mem_of_getLast? same)] at notDigit
    cases notDigit
  rw [number?, if_neg, if_neg]
  · exact not_or.2 ⟨unmarked 'd' rfl, unmarked 'D' rfl⟩
  · exact not_or.2 ⟨unmarked 'L' rfl, unmarked 'l' rfl⟩

/-! ## Numbers as words -/

/-- Whether characters are one word, which is read as a number. -/
structure Writes (chars : List Char) (constant : Constant) : Prop where
  begins : ∃ c rest, chars = c :: rest ∧ c.isDigit = true
  ascii : ∀ c ∈ chars, c.toNat < 0x80
  tokenizes : Tokenizes chars [.word (encodeUnits chars)]
  number : number? chars = some constant

theorem tokenizes_of_ascii {chars : List Char} (nonempty : chars ≠ [])
    (each : ∀ c ∈ chars, c.toNat < 0x80 ∧ isWordUnit c.toNat = true) :
    Tokenizes chars [.word (encodeUnits chars)] := by
  refine .word nonempty ?_
  rw [encodeUnits_of_ascii fun c member => (each c member).1]
  exact List.forall_mem_map.2 fun c member => (each c member).2

theorem digit_or_point {c : Char} (isPart : c.isDigit = true ∨ c = '.') :
    c.toNat < 0x80 ∧ isWordUnit c.toNat = true := by
  rcases isPart with digit | rfl
  · exact ⟨toNat_lt_of_isDigit digit, (of_isDigit digit).1⟩
  · decide

theorem writes_integer (value : Nat) : Writes (Nat.toDigits 10 value) (.integer value false) where
  begins := by
    obtain ⟨nonempty, each⟩ := digits_toDigits value
    obtain ⟨c, rest, digits⟩ := List.exists_cons_of_ne_nil nonempty
    exact ⟨c, rest, digits, each c (digits ▸ List.mem_cons_self)⟩
  ascii c member := toNat_lt_of_isDigit ((digits_toDigits value).2 c member)
  tokenizes := by
    obtain ⟨nonempty, each⟩ := digits_toDigits value
    exact tokenizes_of_ascii nonempty fun c member => digit_or_point (.inl (each c member))
  number := by
    have digits := digits_toDigits value
    have read := number?_append digits []
    rwa [List.nil_append, if_pos (List.all_eq_true.2 digits.2), integer?_toDigits] at read

theorem writes_long (value : Nat) :
    Writes (Nat.toDigits 10 value ++ ['L']) (.integer value true) where
  begins := by
    obtain ⟨c, rest, digits, digit⟩ := (writes_integer value).begins
    exact ⟨c, rest ++ ['L'], by rw [digits]; rfl, digit⟩
  ascii := by
    refine List.forall_mem_append.2 ⟨(writes_integer value).ascii, ?_⟩
    exact List.forall_mem_singleton.2 (by decide)
  tokenizes := by
    have each := (digits_toDigits value).2
    refine tokenizes_of_ascii (by simp) (List.forall_mem_append.2 ⟨fun c member => ?_, ?_⟩)
    · exact digit_or_point (.inl (each c member))
    · exact List.forall_mem_singleton.2 (by decide)
  number := by
    rw [number?, List.getLast?_concat, if_pos (.inl rfl), List.dropLast_concat,
      integer?_toDigits]

theorem writes_point {whole fraction : List Char} (wholeDigits : Digits whole)
    (fractionDigits : Digits fraction) :
    Writes (whole ++ '.' :: fraction)
      (.real (Nat.ofDigitChars 10 (whole ++ fraction) 0) (-fraction.length)) := by
  have digits : Digits (whole ++ fraction) :=
    ⟨List.append_ne_nil_of_left_ne_nil wholeDigits.1 _,
      List.forall_mem_append.2 ⟨wholeDigits.2, fractionDigits.2⟩⟩
  have pointed := Pointed.point whole fraction
  have each := pointed.each digits
  obtain ⟨c, rest, isWhole⟩ := List.exists_cons_of_ne_nil wholeDigits.1
  have notInteger : ¬(whole ++ ['.'] ++ fraction).all Char.isDigit = true := by
    rw [List.all_eq_true]
    intro all
    cases all '.' (by simp)
  refine ⟨⟨c, rest ++ '.' :: fraction, ?_, ?_⟩, fun c member => (digit_or_point (each c member)).1,
    tokenizes_of_ascii (by simp) fun c member => digit_or_point (each c member), ?_⟩
  · rw [isWhole]
    rfl
  · exact wholeDigits.2 c (isWhole ▸ List.mem_cons_self)
  · have read := number?_append fractionDigits (whole ++ ['.'])
    have real := real?_eq pointed digits .unit
    rw [if_neg notInteger, List.append_assoc, List.singleton_append] at read
    rwa [List.append_nil, zero_sub, ← read] at real

theorem writes_power {mantissa whole fraction : List Char}
    (pointed : Pointed mantissa whole fraction) (wholeDigits : Digits whole)
    (fractionEach : ∀ c ∈ fraction, c.isDigit = true) (power : Int) :
    Writes (mantissa ++ 'e' :: (toString power).toList)
      (.real (Nat.ofDigitChars 10 (whole ++ fraction) 0) (power - fraction.length)) := by
  have digits : Digits (whole ++ fraction) :=
    ⟨List.append_ne_nil_of_left_ne_nil wholeDigits.1 _,
      List.forall_mem_append.2 ⟨wholeDigits.2, fractionEach⟩⟩
  have each := pointed.each digits
  have magnitude := digits_toDigits power.natAbs
  have magnitudeEach : ∀ c ∈ Nat.toDigits 10 power.natAbs,
      c.toNat < 0x80 ∧ isWordUnit c.toNat = true :=
    fun c member => digit_or_point (.inl (magnitude.2 c member))
  obtain ⟨c, rest, isMantissa, digit⟩ : ∃ c rest, mantissa = c :: rest ∧ c.isDigit = true := by
    obtain ⟨c, rest, isWhole⟩ := List.exists_cons_of_ne_nil wholeDigits.1
    have digit := wholeDigits.2 c (isWhole ▸ List.mem_cons_self)
    cases pointed with
    | whole =>
        exact ⟨c, rest, isWhole, digit⟩
    | point =>
        exact ⟨c, rest ++ '.' :: fraction, by rw [isWhole]; rfl, digit⟩
  have signAscii : ∀ c ∈ (if power < 0 then ['-'] else []), c.toNat < 0x80 := by
    split_ifs
    · exact List.forall_mem_singleton.2 (by decide)
    · exact List.forall_mem_nil _
  refine ⟨⟨c, rest ++ 'e' :: (toString power).toList, by rw [isMantissa]; rfl, digit⟩, ?ascii,
    ?tokenizes, ?number⟩
  case ascii =>
    rw [toList_toString]
    refine List.forall_mem_append.2 ⟨fun c member => (digit_or_point (each c member)).1,
      List.forall_mem_cons.2 ⟨by decide, List.forall_mem_append.2 ⟨signAscii, ?_⟩⟩⟩
    exact fun c member => (magnitudeEach c member).1
  case tokenizes =>
    rw [toList_toString]
    split_ifs with negative
    · have someDigit : ∃ c ∈ mantissa, c.isDigit = true :=
        ⟨c, isMantissa ▸ List.mem_cons_self, digit⟩
      exact .power each someDigit magnitude.2
    · refine tokenizes_of_ascii (by simp) (List.forall_mem_append.2 ⟨fun c member => ?_,
        List.forall_mem_cons.2 ⟨by decide, magnitudeEach⟩⟩)
      exact digit_or_point (each c member)
  case number =>
    have notInteger : ¬(mantissa ++ 'e' :: (toString power).toList).all Char.isDigit = true := by
      rw [List.all_eq_true]
      intro all
      cases all 'e' (by simp)
    have real := real?_eq pointed digits (.marked (power?_toString power))
    have read := number?_append magnitude
      (mantissa ++ 'e' :: (if power < 0 then ['-'] else []))
    rw [List.append_assoc, List.cons_append, ← toList_toString, if_neg notInteger] at read
    rwa [← read] at real

open Binary64 (Decimal Leading)

section

variable {decimal : Decimal} (leading : Leading decimal.digits)
include leading

theorem digits_of_leading : Digits decimal.digits := by
  obtain ⟨c, rest, digits, -⟩ := leading.first
  exact ⟨by rw [digits]; exact List.cons_ne_nil _ _, leading.each⟩

/-- A decimal written without a power of ten. -/
theorem writes_plain :
    ∃ digits scale, Writes (decimal.plain true) (.real digits scale) ∧
      (digits * 10 ^ scale : ℚ) = decimal.value := by
  have digits := digits_of_leading leading
  have zeros : ∀ count, ∀ c ∈ List.replicate count '0', c.isDigit = true := by
    intro count c member
    rw [List.eq_of_mem_replicate member]
    rfl
  have zeroDigits : Digits ['0'] := digits_singleton rfl
  rw [Decimal.plain, Decimal.value]
  simp only []
  split_ifs with fractional whole
  · have fraction : Digits (List.replicate (-decimal.exponent).toNat '0' ++ decimal.digits) :=
      ⟨List.append_ne_nil_of_right_ne_nil _ digits.1,
        List.forall_mem_append.2 ⟨zeros _, digits.2⟩⟩
    have number : Nat.ofDigitChars 10
        (['0'] ++ (List.replicate (-decimal.exponent).toNat '0' ++ decimal.digits)) 0 =
          Nat.ofDigitChars 10 decimal.digits 0 := by
      simp [Nat.ofDigitChars_cons, Nat.ofDigitChars_append, Nat.ofDigitChars_replicate_zero]
    have writes := writes_point zeroDigits fraction
    rw [number, List.length_append, List.length_replicate] at writes
    refine ⟨_, _, writes, ?_⟩
    congr 2
    omega
  · have wholeDigits : Digits
        (decimal.digits ++ List.replicate (decimal.exponent.toNat - decimal.digits.length) '0') :=
      ⟨List.append_ne_nil_of_left_ne_nil digits.1 _,
        List.forall_mem_append.2 ⟨digits.2, zeros _⟩⟩
    refine ⟨_, _, writes_point wholeDigits zeroDigits, ?_⟩
    obtain ⟨count, isCount⟩ := Int.eq_ofNat_of_zero_le
      (by omega : 0 ≤ decimal.exponent - decimal.digits.length)
    have point (number : Nat) : Nat.ofDigitChars 10 ['0'] number = 10 * number := rfl
    rw [show decimal.exponent.toNat - decimal.digits.length = count by omega, isCount,
      Nat.ofDigitChars_append, Nat.ofDigitChars_append, Nat.ofDigitChars_replicate_zero, point]
    push_cast
    rw [List.length_singleton, Nat.cast_one, zpow_neg_one, zpow_natCast]
    ring
  · have front : (decimal.digits.take decimal.exponent.toNat).length = decimal.exponent.toNat :=
      List.length_take_of_le (by omega)
    have wholeDigits : Digits (decimal.digits.take decimal.exponent.toNat) :=
      ⟨List.ne_nil_of_length_pos (by omega),
        fun c member => digits.2 c (List.mem_of_mem_take member)⟩
    have fractionDigits : Digits (decimal.digits.drop decimal.exponent.toNat) :=
      ⟨List.ne_nil_of_length_pos (by rw [List.length_drop]; omega),
        fun c member => digits.2 c (List.mem_of_mem_drop member)⟩
    refine ⟨_, _, writes_point wholeDigits fractionDigits, ?_⟩
    rw [List.take_append_drop, List.length_drop]
    congr 2
    omega

/-- A decimal written with a power of ten. -/
theorem writes_scientific :
    ∃ digits scale, Writes decimal.scientific (.real digits scale) ∧
      (digits * 10 ^ scale : ℚ) = decimal.value := by
  obtain ⟨c, fraction, digits, -⟩ := leading.first
  have each := leading.each
  rw [digits] at each
  obtain ⟨first, fractionEach⟩ := List.forall_mem_cons.1 each
  obtain ⟨mantissa, isMantissa, pointed⟩ : ∃ mantissa,
      mantissa = [c] ++ (if fraction.isEmpty then [] else '.' :: fraction) ∧
        Pointed mantissa [c] fraction := by
    refine ⟨_, rfl, ?_⟩
    cases fraction with
    | nil =>
        exact .whole [c]
    | cons first rest =>
        exact .point [c] (first :: rest)
  have written : decimal.scientific =
      mantissa ++ 'e' :: (toString (decimal.exponent - 1)).toList := by
    rw [Decimal.scientific, digits, isMantissa]
    rfl
  rw [written]
  refine ⟨_, _, writes_power pointed (digits_singleton first) fractionEach _, ?_⟩
  rw [Decimal.value, digits, List.singleton_append, List.length_cons]
  congr 2
  omega

end

end Constant

end AheadOfTime.Java
