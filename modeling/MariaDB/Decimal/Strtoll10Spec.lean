import Mathlib.Order.Lattice.Nat
import MariaDB.Decimal.StringRoundTrip

set_option autoImplicit false

/- What `my_strtoll10` reads. A string is split as spaces, an optional sign,
leading zeros, the significant digits and the rest, which does not start with
a digit. The three digit groups of the function (nine digits in `i`, nine in
`j`, two in `k`) together read the value of the digits exactly; a value that
does not fit saturates with `ERANGE`. The end pointer stops after twenty
significant digits: the function gives up reading there. -/
namespace MariaDB.Decimal

/-- The value and `*error` the contract of `my_strtoll10` gives for the digits
of value `v` after an optional sign: `-v` with `-1` for a negative number up to
`2^63`, `v` as a `longlong` pattern with `0` for a number below `2^64`, and
otherwise the saturated value with `ERANGE`. -/
def strtoll10Saturate (negative : Bool) (v : Nat) : Int × Int :=
  if negative then
    if v ≤ 2 ^ 63 then (-(v : Int), -1) else (-2 ^ 63, myErrnoErange)
  else if v < 2 ^ 64 then (toLonglong v, 0) else (toLonglong (2 ^ 64 - 1), myErrnoErange)

theorem strtoll10Saturate_def (negative : Bool) (v : Nat) :
    strtoll10Saturate negative v =
      if negative then
        if v ≤ 2 ^ 63 then (-(v : Int), -1) else (-2 ^ 63, myErrnoErange)
      else if v < 2 ^ 64 then (toLonglong v, 0) else (toLonglong (2 ^ 64 - 1), myErrnoErange) := rfl

/-- The triple `my_strtoll10` returns: the saturated value, the end offset and
`*error`. -/
def strtoll10Result (negative : Bool) (v endp : Nat) : Int × Nat × Int :=
  ((strtoll10Saturate negative v).1, endp, (strtoll10Saturate negative v).2)

theorem strtoll10Result_def (negative : Bool) (v endp : Nat) :
    strtoll10Result negative v endp = ((strtoll10Saturate negative v).1, endp, (strtoll10Saturate negative v).2) :=
  rfl

/-- The sign `my_strtoll10` reads: whether the number is negative, and how
many characters the sign takes. -/
def strtoll10Sign : List UInt8 → Bool × Nat
  | c :: _ => if c = '-'.toUInt8 then (true, 1) else if c = '+'.toUInt8 then (false, 1) else (false, 0)
  | [] => (false, 0)

/-- The number after the sign: `EDOM` without digits, otherwise the saturated
value of the whole digit run and an end pointer after at most twenty
significant digits, counted from `offset`. -/
def strtoll10Digits (negative : Bool) (offset : Nat) (body : List UInt8) : Int × Nat × Int :=
  let digits := body.takeWhile latin1IsDigit
  if digits = [] then (0, 0, myErrnoEdom)
  else strtoll10Result negative (horner 0 digits)
    (offset + min digits.length ((digits.takeWhile (· = '0'.toUInt8)).length + 20))

/-- What `my_strtoll10` computes, stated over the parts of the string: the
spaces, an optional sign and the digits after it. -/
def strtoll10Spec (str : List UInt8) : Int × Nat × Int :=
  let after := str.dropWhile latin1IsSpace
  let sign := strtoll10Sign after
  strtoll10Digits sign.1 ((str.takeWhile latin1IsSpace).length + sign.2) (after.drop sign.2)

/-! ## Digit values -/

theorem digitValue_lt {c : UInt8} (h : latin1IsDigit c = true) : digitValue c < 10 := by
  rw [latin1IsDigit_iff] at h
  simp only [digitValue]
  have : '0'.toNat = 48 := rfl
  omega

theorem one_le_digitValue {c : UInt8} (h : latin1IsDigit c = true) (nz : c ≠ '0'.toUInt8) :
    1 ≤ digitValue c := by
  rw [latin1IsDigit_iff] at h
  have ne : c.toNat ≠ 48 := fun e => nz (UInt8.toNat_inj.mp e)
  simp only [digitValue]
  have : '0'.toNat = 48 := rfl
  omega

theorem horner_add (x : Nat) (cs : List UInt8) : horner x cs = x * 10 ^ cs.length + horner 0 cs := by
  induction cs generalizing x with
  | nil => simp
  | cons c cs ih =>
    rw [horner_cons, horner_cons, ih, ih (digitValue c + 0 * 10), List.length_cons, pow_succ]
    ring

theorem horner_lt {cs : List UInt8} (digits : ∀ c ∈ cs, latin1IsDigit c = true) :
    horner 0 cs < 10 ^ cs.length := by
  induction cs using List.reverseRecOn with
  | nil => simp
  | append_singleton cs c ih =>
    have last := digitValue_lt (digits c (by simp))
    have init := ih fun d mem => digits d (by simp [mem])
    rw [horner_append, horner_cons, horner_nil, List.length_append, List.length_singleton, pow_succ]
    omega

theorem pow_le_horner {c : UInt8} {cs : List UInt8} (digit : latin1IsDigit c = true)
    (nz : c ≠ '0'.toUInt8) : 10 ^ cs.length ≤ horner 0 (c :: cs) := by
  rw [horner_cons, Nat.zero_mul, Nat.add_zero, horner_add]
  have := one_le_digitValue digit nz
  have := Nat.mul_le_mul_right (10 ^ cs.length) this
  omega

theorem horner_lead_lt {d : UInt8} {D : List UInt8} (digit : latin1IsDigit d = true)
    (digits : ∀ c ∈ D, latin1IsDigit c = true) : horner (digitValue d) D < 10 ^ (D.length + 1) := by
  have := @horner_lt (d :: D) (List.forall_mem_cons.mpr ⟨digit, digits⟩)
  rwa [horner_cons, Nat.zero_mul, Nat.add_zero, List.length_cons] at this

theorem pow_le_horner_lead {d : UInt8} (D : List UInt8) (digit : latin1IsDigit d = true)
    (lead : d ≠ '0'.toUInt8) : 10 ^ D.length ≤ horner (digitValue d) D := by
  have := @pow_le_horner d D digit lead
  rwa [horner_cons, Nat.zero_mul, Nat.add_zero] at this

theorem horner_zeros {Z : List UInt8} (zeros : ∀ c ∈ Z, c = '0'.toUInt8) (cs : List UInt8) :
    horner 0 (Z ++ cs) = horner 0 cs := by
  induction Z with
  | nil => rfl
  | cons z Z ih =>
    have zero : digitValue '0'.toUInt8 + 0 * 10 = 0 := rfl
    rw [List.cons_append, horner_cons, zeros z List.mem_cons_self, zero,
      ih fun c mem => zeros c (List.mem_cons_of_mem z mem)]

/-! ## The digit loops -/

theorem gatherDigits_of_le (acc : Nat) {n : Nat} {D : List UInt8} (R : List UInt8)
    (digits : ∀ c ∈ D, latin1IsDigit c = true) (le : n ≤ D.length) :
    gatherDigits n acc (D ++ R) = (horner acc (D.take n), D.drop n ++ R, true) := by
  induction n generalizing acc D with
  | zero => rfl
  | succ n ih =>
    obtain ⟨c, D, rfl⟩ := List.exists_cons_of_length_pos (by omega : 0 < D.length)
    rw [List.cons_append, gatherDigits_succ_cons, if_pos (digits c List.mem_cons_self), Nat.add_comm,
      ih _ (fun d mem => digits d (List.mem_cons_of_mem c mem)) (by simp at le; omega)]
    rfl

theorem gatherDigits_exact (acc : Nat) {n : Nat} {D : List UInt8} (rest : List UInt8)
    (digits : ∀ c ∈ D, latin1IsDigit c = true) (len : D.length = n) :
    gatherDigits n acc (D ++ rest) = (horner acc D, rest, true) := by
  subst len
  simpa using gatherDigits_of_le acc rest digits (le_refl D.length)

theorem gatherDigits_of_lt (acc : Nat) {n : Nat} {D : List UInt8} (R : List UInt8)
    (digits : ∀ c ∈ D, latin1IsDigit c = true) (lt : D.length < n)
    (stop : latin1IsDigit (R.headD 0) = false) :
    gatherDigits n acc (D ++ R) = (horner acc D, R, R.isEmpty) := by
  induction D generalizing acc n with
  | nil =>
    obtain ⟨n, rfl⟩ : ∃ k, n = k + 1 := ⟨n - 1, by simp at lt; omega⟩
    cases R with
    | nil => rfl
    | cons r R =>
      simp only [List.headD_cons] at stop
      simp [gatherDigits_succ_cons, stop]
  | cons c D ih =>
    obtain ⟨n, rfl⟩ : ∃ k, n = k + 1 := ⟨n - 1, by simp at lt; omega⟩
    rw [List.cons_append, gatherDigits_succ_cons, if_pos (digits c List.mem_cons_self), Nat.add_comm,
      ih _ (fun d mem => digits d (List.mem_cons_of_mem c mem)) (by simp at lt; omega)]
    rfl

theorem gatherDigits_succ_of_digit (n acc : Nat) {c : UInt8} (cs : List UInt8)
    (digit : latin1IsDigit c = true) :
    gatherDigits (n + 1) acc (c :: cs) = gatherDigits n (acc * 10 + digitValue c) cs := by
  rw [gatherDigits_succ_cons, if_pos digit]

/-- The three digit groups, by the number of digits after the first
significant one: the first group ends early, the second ends early, or both are
full and the rest holds what the third group and the overflow test see. -/
theorem digit_groups (D : List UInt8) :
    D.length < 8 ∨ (∃ A B, D = A ++ B ∧ A.length = 8 ∧ B.length < 9) ∨
      ∃ A B C, D = A ++ B ++ C ∧ A.length = 8 ∧ B.length = 9 := by
  by_cases short : D.length < 8
  · exact Or.inl short
  by_cases mid : D.length < 17
  · exact Or.inr (Or.inl ⟨D.take 8, D.drop 8, (List.take_append_drop 8 D).symm,
      by simp; omega, by simp; omega⟩)
  · refine Or.inr (Or.inr ⟨D.take 8, (D.drop 8).take 9, (D.drop 8).drop 9, ?_, by simp; omega,
      by simp; omega⟩)
    rw [List.append_assoc, List.take_append_drop, List.take_append_drop]

/-! ## Spaces, sign and leading zeros -/

theorem dropWhile_spaces {W : List UInt8} (S : List UInt8) (spaces : ∀ c ∈ W, latin1IsSpace c = true)
    (start : latin1IsSpace (S.headD 0) = false) : (W ++ S).dropWhile latin1IsSpace = S := by
  induction W with
  | nil =>
    cases S with
    | nil => rfl
    | cons s S => exact List.dropWhile_cons_of_neg (by simpa using start)
  | cons w W ih =>
    rw [List.cons_append, List.dropWhile_cons_of_pos (spaces w List.mem_cons_self)]
    exact ih fun c mem => spaces c (List.mem_cons_of_mem w mem)

theorem dropWhile_zeros (k : Nat) (S : List UInt8) (lead : S.headD 0 ≠ '0'.toUInt8) :
    (List.replicate k '0'.toUInt8 ++ S).dropWhile (· = '0'.toUInt8) = S := by
  induction k with
  | zero =>
    cases S with
    | nil => rfl
    | cons s S => exact List.dropWhile_cons_of_neg (by simpa using lead)
  | succ k ih => rw [List.replicate_succ, List.cons_append, List.dropWhile_cons_of_pos (by simp), ih]

theorem takeWhile_spaces {W : List UInt8} (S : List UInt8) (spaces : ∀ c ∈ W, latin1IsSpace c = true)
    (start : latin1IsSpace (S.headD 0) = false) : (W ++ S).takeWhile latin1IsSpace = W := by
  rw [List.takeWhile_append_of_pos spaces]
  cases S with
  | nil => simp
  | cons s S => simp [List.takeWhile_cons_of_neg (by simpa using start)]

theorem takeWhile_digits {D : List UInt8} (R : List UInt8) (digits : ∀ c ∈ D, latin1IsDigit c = true)
    (stop : latin1IsDigit (R.headD 0) = false) : (D ++ R).takeWhile latin1IsDigit = D := by
  rw [List.takeWhile_append_of_pos digits]
  cases R with
  | nil => simp
  | cons r R => simp [List.takeWhile_cons_of_neg (by simpa using stop)]

/-- What a `dropWhile` leaves does not start with a character it drops. -/
theorem headD_dropWhile {p : UInt8 → Bool} (l : List UInt8) (zero : p 0 = false) :
    p ((l.dropWhile p).headD 0) = false := by
  cases h : l.dropWhile p with
  | nil => exact zero
  | cons c cs =>
    have := List.head_dropWhile_not p (l := l) (by simp [h])
    simpa [h] using this

theorem zero_isDigit : latin1IsDigit '0'.toUInt8 = true := by decide

theorem plus_ne_minus : '+'.toUInt8 ≠ '-'.toUInt8 := by decide

/-- What follows the spaces is not a space: a sign, a leading zero or the first
significant digit. -/
theorem start_not_space {X : List UInt8} (k : Nat) {d : UInt8} (rest : List UInt8)
    (sign : X = [] ∨ X = ['+'.toUInt8] ∨ X = ['-'.toUInt8]) (digit : latin1IsDigit d = true) :
    latin1IsSpace ((X ++ List.replicate k '0'.toUInt8 ++ d :: rest).headD 0) = false := by
  rcases sign with rfl | rfl | rfl
  · cases k <;> simp [List.replicate_succ, latin1IsSpace_of_digit digit, latin1IsSpace_of_digit zero_isDigit]
  all_goals rfl

/-! ## The exits of the function

Each exit of `my_strtoll10` returns what `strtoll10Result` gives for the digits
it has read, provided the sign and the end offset are the ones it computed. -/

theorem strtoll10Result_small (negative : Bool) {v : Nat} (endp : Nat) (small : v < 10 ^ 18) :
    strtoll10Result negative v endp =
      (if negative then -(v : Int) else v, endp, if negative then -1 else 0) := by
  have fits : v < 2 ^ 63 := by omega
  cases negative
  · rw [strtoll10Result_def, strtoll10Saturate_def, if_neg Bool.false_ne_true, if_pos (by omega), toLonglong,
      if_pos fits]
    rfl
  · rw [strtoll10Result_def, strtoll10Saturate_def, if_pos rfl, if_pos fits.le]
    rfl

/-- `end4` after `-`: nineteen digits, compared with `2^63`. -/
theorem strtoll10Result_negative {negative : Bool} {v e endp : Nat} (neg : negative = true)
    (he : e = endp) :
    (if 2 ^ 63 < v then ((-2 ^ 63 : Int), e, myErrnoErange) else (-(v : Int), e, -1)) =
      strtoll10Result negative v endp := by
  rw [strtoll10Result_def, strtoll10Saturate_def, if_pos neg, he]
  split_ifs <;> first | rfl | omega

theorem strtoll10Result_unsigned {negative : Bool} {v e endp : Nat} (pos : negative = false)
    (fits : v < 2 ^ 64) (he : e = endp) :
    ((toLonglong v, e, 0) : Int × Nat × Int) = strtoll10Result negative v endp := by
  rw [strtoll10Result_def, strtoll10Saturate_def, pos, if_neg Bool.false_ne_true, if_pos fits, he]

theorem strtoll10Result_negative_overflow {negative : Bool} {v e endp : Nat} (neg : negative = true)
    (big : 2 ^ 63 < v) (he : e = endp) :
    ((-2 ^ 63 : Int), e, myErrnoErange) = strtoll10Result negative v endp := by
  rw [strtoll10Result_def, strtoll10Saturate_def, if_pos neg, if_neg (Nat.not_le.mpr big), he]

theorem strtoll10Result_unsigned_overflow {negative : Bool} {v e endp : Nat} (pos : negative = false)
    (big : 2 ^ 64 ≤ v) (he : e = endp) :
    (toLonglong (2 ^ 64 - 1), e, myErrnoErange) = strtoll10Result negative v endp := by
  rw [strtoll10Result_def, strtoll10Saturate_def, pos, if_neg Bool.false_ne_true, if_neg (Nat.not_lt.mpr big), he]

/-- The test against `cutoff`, `cutoff2` and `cutoff3` compares the groups
`i`, `j`, `k` lexicographically with those of `M`, which is comparing the
value with `M`. -/
theorem cutoff_iff (M : Nat) {i j k : Nat} (hj : j < 10 ^ 9) (hk : k < 100) :
    (M / 10 ^ 11 < i ∨ i = M / 10 ^ 11 ∧ (M % 10 ^ 11 / 100 < j ∨ j = M % 10 ^ 11 / 100 ∧ M % 100 < k)) ↔
      M < i * 10 ^ 11 + j * 100 + k := by
  omega

theorem strtoll10Result_twenty_unsigned {negative : Bool} {i j k e endp : Nat} (pos : negative = false)
    (hj : j < 10 ^ 9) (hk : k < 100) (he : e = endp) :
    (if (2 ^ 64 - 1) / 10 ^ 11 < i ∨ i = (2 ^ 64 - 1) / 10 ^ 11 ∧
          ((2 ^ 64 - 1) % 10 ^ 11 / 100 < j ∨ j = (2 ^ 64 - 1) % 10 ^ 11 / 100 ∧ (2 ^ 64 - 1) % 100 < k)
      then (toLonglong (2 ^ 64 - 1), e, myErrnoErange)
      else ((toLonglong (i * 10 ^ 11 + j * 100 + k), e, 0) : Int × Nat × Int)) =
      strtoll10Result negative (i * 10 ^ 11 + j * 100 + k) endp := by
  by_cases big : 2 ^ 64 - 1 < i * 10 ^ 11 + j * 100 + k
  · rw [if_pos ((cutoff_iff _ hj hk).mpr big)]
    exact strtoll10Result_unsigned_overflow pos (by omega) he
  · rw [if_neg (fun h => big ((cutoff_iff _ hj hk).mp h))]
    exact strtoll10Result_unsigned pos (by omega) he

/-- Twenty digits after `-` are at least `10^19`, past `2^63`, so the test
always overflows and the unsigned value it would return is never reached. -/
theorem strtoll10Result_twenty_negative {negative : Bool} {i j k e endp : Nat} (neg : negative = true)
    (hi : 10 ^ 8 ≤ i) (hj : j < 10 ^ 9) (hk : k < 100) (he : e = endp) :
    (if 2 ^ 63 / 10 ^ 11 < i ∨ i = 2 ^ 63 / 10 ^ 11 ∧
          (2 ^ 63 % 10 ^ 11 / 100 < j ∨ j = 2 ^ 63 % 10 ^ 11 / 100 ∧ 2 ^ 63 % 100 < k)
      then ((-2 ^ 63 : Int), e, myErrnoErange)
      else (toLonglong (i * 10 ^ 11 + j * 100 + k), e, -1)) =
      strtoll10Result negative (i * 10 ^ 11 + j * 100 + k) endp := by
  rw [if_pos ((cutoff_iff _ hj hk).mpr (by omega))]
  exact strtoll10Result_negative_overflow neg (by omega) he

/-! ## What `my_strtoll10` reads -/

/-- `my_strtoll10` on spaces `W`, a sign `X`, `k` leading zeros, the
significant digits `d :: D` and a rest `R` that does not start with a digit:
the saturated value of the digits, and an end pointer after at most twenty
significant digits. -/
theorem myStrtoll10_digits {W X : List UInt8} (k : Nat) {d : UInt8} {D R : List UInt8}
    (spaces : ∀ c ∈ W, latin1IsSpace c = true) (sign : X = [] ∨ X = ['+'.toUInt8] ∨ X = ['-'.toUInt8])
    (digit : latin1IsDigit d = true) (lead : d ≠ '0'.toUInt8) (digits : ∀ c ∈ D, latin1IsDigit c = true)
    (stop : latin1IsDigit (R.headD 0) = false) :
    myStrtoll10 (W ++ X ++ List.replicate k '0'.toUInt8 ++ d :: D ++ R) =
      strtoll10Result (X = ['-'.toUInt8]) (horner 0 (List.replicate k '0'.toUInt8 ++ d :: D))
        (W.length + X.length + k + min (D.length + 1) 20) := by
  have zeroSign := ne_sign_of_digit zero_isDigit
  have dSign := ne_sign_of_digit digit
  have lower := pow_le_horner_lead D digit lead
  rw [horner_zeros (fun c mem => List.eq_of_mem_replicate mem), horner_cons, Nat.zero_mul, Nat.add_zero,
    show W ++ X ++ List.replicate k '0'.toUInt8 ++ d :: D ++ R =
      W ++ (X ++ List.replicate k '0'.toUInt8 ++ d :: (D ++ R)) by simp]
  unfold myStrtoll10
  rw [dropWhile_spaces _ spaces (start_not_space k _ sign digit)]
  generalize hL : (W ++ (X ++ List.replicate k '0'.toUInt8 ++ d :: (D ++ R))).length = L
  simp only [List.length_append, List.length_replicate, List.length_cons] at hL
  -- the sign, then the leading zeros: every case reaches the first group at `d`
  rcases sign with rfl | rfl | rfl <;> rcases k with _ | k
  all_goals simp only [List.replicate_zero, List.replicate_succ, List.nil_append, List.cons_append,
    dSign.1, dSign.2, zeroSign.1, zeroSign.2, plus_ne_minus, or_self, or_true, true_or,
    if_true, if_false, lead, digit, dropWhile_zeros _ (d :: (D ++ R)) lead, gatherDigits_succ_of_digit _ _ _ digit,
    Nat.zero_mul, Nat.zero_add]
  all_goals
    rcases digit_groups D with short | ⟨A, B, rfl, hA, hB⟩ | ⟨A, B, C, rfl, hA, hB⟩
    · -- `end_i`: at most nine significant digits
      have upper := horner_lead_lt digit digits
      rw [gatherDigits_of_lt _ R digits short stop, if_pos (by cases R <;> simp),
        strtoll10Result_small _ _ (lt_of_lt_of_le upper (Nat.pow_le_pow_right (by omega) (by omega)))]
      simp [plus_ne_minus] at hL ⊢
      omega
    · -- `end_i_and_j`: ten to seventeen
      simp only [List.mem_append, or_imp, forall_and] at digits
      obtain ⟨dA, dB⟩ := digits
      have upper := horner_lead_lt digit (List.forall_mem_append.mpr ⟨dA, dB⟩)
      simp only [List.length_append] at upper
      rw [List.append_assoc, gatherDigits_exact _ _ dA hA]
      dsimp only
      rw [gatherDigits_of_lt 0 R dB (by omega) stop,
        strtoll10Result_small _ _ (lt_of_lt_of_le upper (Nat.pow_le_pow_right (by omega) (by omega))),
        horner_append, horner_add (horner _ A)]
      by_cases empty : B ++ R = []
      · obtain ⟨rfl, rfl⟩ := List.append_eq_nil_iff.mp empty
        simp [plus_ne_minus] at hL ⊢
        omega
      · have partial_j : ¬R.isEmpty = true ∨ R = [] ∧ (B ++ R).length - R.length ≠ 9 := by
          cases R <;> simp
          omega
        dsimp only
        rw [if_neg (by simpa using empty), if_pos partial_j]
        simp [plus_ne_minus] at hL ⊢
        omega
    · -- both groups full: eighteen digits or more
      simp only [List.mem_append, or_imp, forall_and] at digits
      obtain ⟨⟨dA, dB⟩, dC⟩ := digits
      have joined : horner (digitValue d) (A ++ B ++ C) =
          horner (horner (digitValue d) A * 10 ^ 9 + horner 0 B) C := by
        rw [horner_append, horner_append, horner_add (horner _ A), hB]
      have hI := horner_lead_lt digit dA
      have hI' := pow_le_horner_lead A digit lead
      have hJ := horner_lt dB
      rw [hA] at hI hI'
      rw [hB] at hJ
      have nonempty : B ++ (C ++ R) ≠ [] := by
        intro h
        have := congrArg List.length h
        simp only [List.length_append, List.length_nil] at this
        omega
      rw [joined, List.append_assoc, List.append_assoc, gatherDigits_exact _ _ dA hA]
      dsimp only
      rw [if_neg (by simpa using nonempty), gatherDigits_exact _ _ dB hB]
      dsimp only
      rw [if_neg (show ¬(¬true = true ∨ C ++ R = [] ∧ (B ++ (C ++ R)).length - (C ++ R).length ≠ 9) by
        simp [hB])]
      rcases C with _ | ⟨e, _ | ⟨f, _ | ⟨g, G⟩⟩⟩
      · -- eighteen: the rest does not start with a digit
        rw [horner_nil, strtoll10Result_small _ _ (by omega)]
        rcases R with _ | ⟨r, R⟩
        · simp [plus_ne_minus] at hL ⊢
          omega
        · simp only [List.headD_cons] at stop
          simp [stop, plus_ne_minus] at hL ⊢
          omega
      · -- nineteen: `end4` with the last digit in `k`
        have e19 := dC e (by simp)
        have := digitValue_lt e19
        have value : horner (horner (digitValue d) A * 10 ^ 9 + horner 0 B) [e] =
            horner (digitValue d) A * 10 ^ 10 + horner 0 B * 10 + digitValue e := by
          rw [horner_cons, horner_nil]
          omega
        rw [value]
        simp only [List.nil_append, List.cons_append, e19, not_true_eq_false, if_false]
        rcases R with _ | ⟨r, R⟩
        · dsimp only
          first
            | exact strtoll10Result_negative (by simp) (by simp at hL ⊢; omega)
            | exact strtoll10Result_unsigned (by simp [plus_ne_minus]) (by omega) (by simp at hL ⊢; omega)
        · simp only [List.headD_cons] at stop
          simp only [stop, Bool.false_eq_true, if_false]
          first
            | exact strtoll10Result_negative (by simp) (by simp at hL ⊢; omega)
            | exact strtoll10Result_unsigned (by simp [plus_ne_minus]) (by omega) (by simp at hL ⊢; omega)
      · -- twenty: the cut-off test
        have e20 := dC e (by simp)
        have f20 := dC f (by simp)
        have value : horner (horner (digitValue d) A * 10 ^ 9 + horner 0 B) [e, f] =
            horner (digitValue d) A * 10 ^ 11 + horner 0 B * 100 + (digitValue e * 10 + digitValue f) := by
          rw [horner_cons, horner_cons, horner_nil]
          omega
        have hK : digitValue e * 10 + digitValue f < 100 := by
          have := digitValue_lt e20
          have := digitValue_lt f20
          omega
        rw [value]
        simp only [List.nil_append, List.cons_append, e20, f20, not_true_eq_false, if_false, if_true]
        -- the rest does not start with a third digit for `k`
        rw [if_neg (by cases R with | nil => simp | cons r R => simpa using stop)]
        first
          | exact strtoll10Result_twenty_negative (by simp) hI' hJ hK (by simp at hL ⊢; omega)
          | exact strtoll10Result_twenty_unsigned (by simp [plus_ne_minus]) hJ hK (by simp at hL ⊢; omega)
      · -- a twenty-first digit: overflow, with the end pointer after the twentieth
        have len : 20 ≤ (A ++ B ++ e :: f :: g :: G).length := by simp; omega
        have big : 10 ^ 20 ≤ horner (horner (digitValue d) A * 10 ^ 9 + horner 0 B) (e :: f :: g :: G) :=
          joined ▸ le_trans (Nat.pow_le_pow_right (by omega) len) lower
        simp only [List.cons_append, dC e (by simp), dC f (by simp), dC g (by simp),
          not_true_eq_false, if_false, if_true]
        first
          | exact strtoll10Result_negative_overflow (by simp) (by omega) (by simp at hL ⊢; omega)
          | exact strtoll10Result_unsigned_overflow (by simp [plus_ne_minus]) (by omega)
              (by simp at hL ⊢; omega)

/-- Only zeros: the value is zero and the end pointer is after the last zero,
however many there are. -/
theorem myStrtoll10_zeros {W X : List UInt8} (k : Nat) {R : List UInt8}
    (spaces : ∀ c ∈ W, latin1IsSpace c = true) (sign : X = [] ∨ X = ['+'.toUInt8] ∨ X = ['-'.toUInt8])
    (stop : latin1IsDigit (R.headD 0) = false) :
    myStrtoll10 (W ++ X ++ List.replicate (k + 1) '0'.toUInt8 ++ R) =
      strtoll10Result (X = ['-'.toUInt8]) 0 (W.length + X.length + (k + 1)) := by
  have zeroSign := ne_sign_of_digit zero_isDigit
  have notZero : R.headD 0 ≠ '0'.toUInt8 := fun h => by rw [h, zero_isDigit] at stop; cases stop
  rw [List.replicate_succ, strtoll10Result_small _ _ (by norm_num),
    show W ++ X ++ '0'.toUInt8 :: List.replicate k '0'.toUInt8 ++ R =
      W ++ (X ++ List.replicate 0 '0'.toUInt8 ++ '0'.toUInt8 :: (List.replicate k '0'.toUInt8 ++ R)) by simp]
  unfold myStrtoll10
  rw [dropWhile_spaces _ spaces (start_not_space 0 _ sign zero_isDigit)]
  generalize hL : (W ++ (X ++ List.replicate 0 '0'.toUInt8 ++ '0'.toUInt8 ::
    (List.replicate k '0'.toUInt8 ++ R))).length = L
  simp only [List.length_append, List.length_replicate, List.length_cons] at hL
  rcases sign with rfl | rfl | rfl
  all_goals simp only [List.replicate_zero, List.nil_append, List.cons_append, List.append_nil,
    zeroSign.1, zeroSign.2, plus_ne_minus, or_self, or_true, true_or, if_true, if_false,
    dropWhile_zeros k R notZero]
  -- the zeros are skipped; what is left holds no digit for the first group
  all_goals
    cases R with
    | nil =>
      simp [plus_ne_minus] at hL ⊢
      omega
    | cons r R =>
      simp only [List.headD_cons] at stop
      simp [gatherDigits_succ_cons, stop, plus_ne_minus] at hL ⊢
      omega

/-- No digit after the optional sign: `EDOM`, with the end pointer back at the
start of the string. -/
theorem myStrtoll10_noDigits {W X R : List UInt8} (spaces : ∀ c ∈ W, latin1IsSpace c = true)
    (sign : X = [] ∨ X = ['+'.toUInt8] ∨ X = ['-'.toUInt8]) (stop : latin1IsDigit (R.headD 0) = false)
    (start : X = [] → latin1IsSpace (R.headD 0) = false ∧ R.headD 0 ≠ '+'.toUInt8 ∧
      R.headD 0 ≠ '-'.toUInt8) :
    myStrtoll10 (W ++ X ++ R) = (0, 0, myErrnoEdom) := by
  have notZero : R.headD 0 ≠ '0'.toUInt8 := fun h => by rw [h, zero_isDigit] at stop; cases stop
  rcases sign with rfl | rfl | rfl
  · obtain ⟨notSpace, notPlus, notMinus⟩ := start rfl
    rw [List.append_nil]
    unfold myStrtoll10
    rw [dropWhile_spaces _ spaces notSpace]
    cases R with
    | nil => rfl
    | cons r R =>
      simp only [List.headD_cons] at stop notZero notPlus notMinus
      simp [notPlus, notMinus, notZero, stop]
  all_goals
    unfold myStrtoll10
    rw [List.append_assoc, dropWhile_spaces _ spaces rfl]
    cases R with
    | nil => simp [plus_ne_minus]
    | cons r R =>
      simp only [List.headD_cons] at stop notZero
      simp [plus_ne_minus, notZero, stop]

/-- Past twenty significant digits the function gives up with `ERANGE` and
leaves the end pointer after the twentieth digit, not at the end of the digit
run. -/
theorem myStrtoll10_twenty_one_digits :
    myStrtoll10 "123456789012345678901".toUTF8.toList = (toLonglong (2 ^ 64 - 1), 20, myErrnoErange) ∧
      ("123456789012345678901".toUTF8.toList.takeWhile latin1IsDigit).length = 21 := by
  constructor <;> decide +kernel

/-! ## The reference reading -/

theorem strtoll10Spec_eq {W X body : List UInt8} (spaces : ∀ c ∈ W, latin1IsSpace c = true)
    (sign : X = [] ∨ X = ['+'.toUInt8] ∨ X = ['-'.toUInt8])
    (start : X = [] → latin1IsSpace (body.headD 0) = false ∧ body.headD 0 ≠ '+'.toUInt8 ∧
      body.headD 0 ≠ '-'.toUInt8) :
    strtoll10Spec (W ++ X ++ body) = strtoll10Digits (X = ['-'.toUInt8]) (W.length + X.length) body := by
  have notSpace : latin1IsSpace ((X ++ body).headD 0) = false := by
    rcases sign with rfl | rfl | rfl
    · exact (start rfl).1
    all_goals rfl
  rw [strtoll10Spec, List.append_assoc, dropWhile_spaces _ spaces notSpace,
    takeWhile_spaces _ spaces notSpace]
  rcases sign with rfl | rfl | rfl
  · obtain ⟨_, notPlus, notMinus⟩ := start rfl
    cases body with
    | nil => rfl
    | cons b body =>
      simp only [List.headD_cons] at notPlus notMinus
      simp [strtoll10Sign, notPlus, notMinus]
  · simp [strtoll10Sign, plus_ne_minus]
  · simp [strtoll10Sign]

theorem strtoll10Digits_digits (negative : Bool) (offset k : Nat) {d : UInt8} {D R : List UInt8}
    (digit : latin1IsDigit d = true) (lead : d ≠ '0'.toUInt8) (digits : ∀ c ∈ D, latin1IsDigit c = true)
    (stop : latin1IsDigit (R.headD 0) = false) :
    strtoll10Digits negative offset (List.replicate k '0'.toUInt8 ++ d :: D ++ R) =
      strtoll10Result negative (horner 0 (List.replicate k '0'.toUInt8 ++ d :: D))
        (offset + k + min (D.length + 1) 20) := by
  have run : ∀ c ∈ List.replicate k '0'.toUInt8 ++ d :: D, latin1IsDigit c = true := by
    intro c mem
    rcases List.mem_append.mp mem with zero | rest
    · rw [List.eq_of_mem_replicate zero]
      exact zero_isDigit
    · rcases List.mem_cons.mp rest with rfl | mem
      · exact digit
      · exact digits c mem
  have zeros : (List.replicate k '0'.toUInt8 ++ d :: D).takeWhile (· = '0'.toUInt8) =
      List.replicate k '0'.toUInt8 := by
    rw [List.takeWhile_append_of_pos (fun c mem => by simp [List.eq_of_mem_replicate mem]),
      List.takeWhile_cons_of_neg (by simpa using lead), List.append_nil]
  rw [strtoll10Digits, takeWhile_digits R run stop, if_neg (by simp), zeros]
  simp only [List.length_append, List.length_replicate, List.length_cons]
  congr 1
  omega

theorem strtoll10Digits_zeros (negative : Bool) (offset k : Nat) {R : List UInt8}
    (stop : latin1IsDigit (R.headD 0) = false) :
    strtoll10Digits negative offset (List.replicate (k + 1) '0'.toUInt8 ++ R) =
      strtoll10Result negative 0 (offset + (k + 1)) := by
  have zero : ∀ c ∈ List.replicate (k + 1) '0'.toUInt8, c = '0'.toUInt8 :=
    fun c mem => List.eq_of_mem_replicate mem
  rw [strtoll10Digits, takeWhile_digits R (fun c mem => zero c mem ▸ zero_isDigit) stop,
    if_neg (by simp), List.takeWhile_eq_self_iff.mpr (fun c mem => by simp [zero c mem])]
  have value := horner_zeros zero []
  rw [List.append_nil] at value
  rw [value]
  simp

theorem strtoll10Digits_noDigits (negative : Bool) (offset : Nat) {R : List UInt8}
    (stop : latin1IsDigit (R.headD 0) = false) : strtoll10Digits negative offset R = (0, 0, myErrnoEdom) := by
  have none : R.takeWhile latin1IsDigit = [] := by
    cases R with
    | nil => rfl
    | cons r R => exact List.takeWhile_cons_of_neg (by simpa using stop)
  rw [strtoll10Digits, none, if_pos rfl]

/-- A run of leading zeros split off a string. -/
theorem zeros_split (body : List UInt8) :
    ∃ k rest, body = List.replicate k '0'.toUInt8 ++ rest ∧ rest.headD 0 ≠ '0'.toUInt8 := by
  refine ⟨(body.takeWhile (· = '0'.toUInt8)).length, body.dropWhile (· = '0'.toUInt8), ?_, ?_⟩
  · have run : body.takeWhile (· = '0'.toUInt8) =
        List.replicate (body.takeWhile (· = '0'.toUInt8)).length '0'.toUInt8 :=
      List.eq_replicate_iff.mpr ⟨rfl, fun c mem => by simpa using List.mem_takeWhile_imp mem⟩
    rw [← run, List.takeWhile_append_dropWhile]
  · simpa using headD_dropWhile (p := (· = '0'.toUInt8)) body (by decide)

/-- Every string splits into spaces, an optional sign, leading zeros and what
follows them. -/
theorem strtoll10_split (str : List UInt8) :
    ∃ W X k rest, str = W ++ X ++ List.replicate k '0'.toUInt8 ++ rest ∧ (∀ c ∈ W, latin1IsSpace c = true) ∧
      (X = [] ∨ X = ['+'.toUInt8] ∨ X = ['-'.toUInt8]) ∧ rest.headD 0 ≠ '0'.toUInt8 ∧
      (X = [] → latin1IsSpace ((List.replicate k '0'.toUInt8 ++ rest).headD 0) = false ∧
        (List.replicate k '0'.toUInt8 ++ rest).headD 0 ≠ '+'.toUInt8 ∧
        (List.replicate k '0'.toUInt8 ++ rest).headD 0 ≠ '-'.toUInt8) := by
  obtain ⟨W, after, rfl, spaces, notSpace⟩ : ∃ W after, str = W ++ after ∧
      (∀ c ∈ W, latin1IsSpace c = true) ∧ latin1IsSpace (after.headD 0) = false :=
    ⟨_, _, List.takeWhile_append_dropWhile.symm, fun c mem => List.mem_takeWhile_imp mem,
      headD_dropWhile str rfl⟩
  cases after with
  | nil =>
    exact ⟨W, [], 0, [], by simp, spaces, Or.inl rfl, by decide, fun _ => ⟨rfl, by decide, by decide⟩⟩
  | cons c cs =>
    by_cases minus : c = '-'.toUInt8
    · obtain ⟨k, rest, rfl, lead⟩ := zeros_split cs
      exact ⟨W, ['-'.toUInt8], k, rest, by simp [minus], spaces, Or.inr (Or.inr rfl), lead,
        fun h => absurd h (by simp)⟩
    by_cases plus : c = '+'.toUInt8
    · obtain ⟨k, rest, rfl, lead⟩ := zeros_split cs
      exact ⟨W, ['+'.toUInt8], k, rest, by simp [plus], spaces, Or.inr (Or.inl rfl), lead,
        fun h => absurd h (by simp)⟩
    · obtain ⟨k, rest, body, lead⟩ := zeros_split (c :: cs)
      refine ⟨W, [], k, rest, by rw [body]; simp, spaces, Or.inl rfl, lead, fun _ => ?_⟩
      rw [← body]
      exact ⟨notSpace, plus, minus⟩

/-- `my_strtoll10` is its reference reading: the exact value of the digit run,
saturated with `ERANGE`, `EDOM` without digits, and the end pointer after at
most twenty significant digits. -/
theorem myStrtoll10_eq_spec (str : List UInt8) : myStrtoll10 str = strtoll10Spec str := by
  obtain ⟨W, X, k, rest, rfl, spaces, sign, lead, start⟩ := strtoll10_split str
  cases rest with
  | nil =>
    rcases k with _ | k
    · rw [List.replicate_zero, List.append_nil, List.append_nil,
        show W ++ X = W ++ X ++ [] by simp, myStrtoll10_noDigits spaces sign rfl (by simpa using start),
        strtoll10Spec_eq spaces sign (by simpa using start), strtoll10Digits_noDigits _ _ rfl]
    · rw [show W ++ X ++ List.replicate (k + 1) '0'.toUInt8 ++ [] =
          W ++ X ++ List.replicate (k + 1) '0'.toUInt8 ++ [] from rfl,
        myStrtoll10_zeros k spaces sign rfl, List.append_assoc,
        strtoll10Spec_eq spaces sign start, strtoll10Digits_zeros _ _ k rfl, Nat.add_assoc]
  | cons d rest =>
    by_cases digit : latin1IsDigit d = true
    · -- a significant digit: the run after it up to the first other character
      have split := (List.takeWhile_append_dropWhile (p := latin1IsDigit) (l := rest)).symm
      have digits : ∀ c ∈ rest.takeWhile latin1IsDigit, latin1IsDigit c = true :=
        fun c mem => List.mem_takeWhile_imp mem
      have stop := headD_dropWhile rest (p := latin1IsDigit) rfl
      rw [split, ← List.cons_append, ← List.append_assoc,
        myStrtoll10_digits k spaces sign digit lead digits stop, List.append_assoc,
        List.append_assoc, strtoll10Spec_eq spaces sign (by rw [List.cons_append, ← split]; exact start),
        ← List.append_assoc, strtoll10Digits_digits _ _ k digit lead digits stop]
    · have stop : latin1IsDigit ((d :: rest).headD 0) = false := by simpa using digit
      rcases k with _ | k
      · rw [List.replicate_zero, List.append_nil, myStrtoll10_noDigits spaces sign stop (by simpa using start),
          strtoll10Spec_eq spaces sign (by simpa using start), strtoll10Digits_noDigits _ _ stop]
      · rw [myStrtoll10_zeros k spaces sign stop, List.append_assoc, strtoll10Spec_eq spaces sign start,
          strtoll10Digits_zeros _ _ k stop, Nat.add_assoc]

/-! ## Reads without an error -/

/-- Without a sign the saturation only bites past `2^64 - 1`: below it the
value comes back as its `longlong` pattern with no error. -/
theorem strtoll10Result_false_of_lt {v : Nat} (endp : Nat) (fits : v < 2 ^ 64) :
    strtoll10Result false v endp = (toLonglong v, endp, 0) :=
  (strtoll10Result_unsigned rfl fits rfl).symm

theorem strtoll10Result_error_ne_zero {v endp : Nat} {r : Int} {n : Nat}
    (h : strtoll10Result true v endp = (r, n, 0)) : False := by
  simp only [strtoll10Result_def, strtoll10Saturate_def, if_pos, Prod.mk.injEq] at h
  split_ifs at h <;> simp [myErrnoErange] at h

theorem strtoll10Result_fits {v endp : Nat} {r : Int} {n : Nat}
    (h : strtoll10Result false v endp = (r, n, 0)) : v < 2 ^ 64 := by
  by_contra big
  rw [← strtoll10Result_unsigned_overflow rfl (Nat.not_lt.mp big) rfl] at h
  simp [myErrnoErange] at h

theorem lt_twenty_of_pow_lt {n : Nat} (h : 10 ^ n < 2 ^ 64) : n < 20 := by
  by_contra big
  have := Nat.pow_le_pow_right (show 0 < 10 by omega) (Nat.not_lt.mp big)
  omega

/-- Spaces, an optional `+` and a run of digits whose value fits in 64 bits
read back as that value, with the end pointer after the run. -/
theorem myStrtoll10_unsigned {W X D R : List UInt8} (spaces : ∀ c ∈ W, latin1IsSpace c = true)
    (sign : X = [] ∨ X = ['+'.toUInt8]) (ne : D ≠ []) (digits : ∀ c ∈ D, latin1IsDigit c = true)
    (stop : latin1IsDigit (R.headD 0) = false) (fits : horner 0 D < 2 ^ 64) :
    myStrtoll10 (W ++ X ++ D ++ R) = (toLonglong (horner 0 D), W.length + X.length + D.length, 0) := by
  have sign' : X = [] ∨ X = ['+'.toUInt8] ∨ X = ['-'.toUInt8] := by tauto
  have notMinus : decide (X = ['-'.toUInt8]) = false := by
    rcases sign with rfl | rfl <;> simp [plus_ne_minus]
  obtain ⟨k, rest, rfl, lead⟩ := zeros_split D
  have zero : ∀ c ∈ List.replicate k '0'.toUInt8, c = '0'.toUInt8 := fun c mem => List.eq_of_mem_replicate mem
  cases rest with
  | nil =>
    -- only zeros: the value is zero
    obtain ⟨k, rfl⟩ : ∃ j, k = j + 1 := ⟨k - 1, by cases k <;> simp_all⟩
    have value := horner_zeros zero []
    rw [List.append_nil] at value ⊢
    rw [myStrtoll10_zeros k spaces sign' stop, notMinus, value, strtoll10Result_false_of_lt _ (by norm_num)]
    simp
  | cons d D =>
    have digit := digits d (by simp)
    have digits' : ∀ c ∈ D, latin1IsDigit c = true := fun c mem => digits c (by simp [mem])
    have lower := @pow_le_horner d D digit lead
    rw [← horner_zeros zero] at lower
    have short := lt_twenty_of_pow_lt (lt_of_le_of_lt lower fits)
    rw [show W ++ X ++ (List.replicate k '0'.toUInt8 ++ d :: D) ++ R =
        W ++ X ++ List.replicate k '0'.toUInt8 ++ d :: D ++ R by simp,
      myStrtoll10_digits k spaces sign' digit lead digits' stop, notMinus,
      strtoll10Result_false_of_lt _ fits]
    simp only [List.length_append, List.length_replicate, List.length_cons]
    congr 2
    omega

theorem sign_of_ne_minus {X : List UInt8} (sign : X = [] ∨ X = ['+'.toUInt8] ∨ X = ['-'.toUInt8])
    (ne : decide (X = ['-'.toUInt8]) = false) : X = [] ∨ X = ['+'.toUInt8] := by
  rcases sign with rfl | rfl | rfl
  · exact Or.inl rfl
  · exact Or.inr rfl
  · simp at ne

/-- `my_strtoll10` reports no error only for spaces, an optional `+` and a run
of digits whose value fits in 64 bits. -/
theorem myStrtoll10_ok {p : List UInt8} {r : Int} {n : Nat} (h : myStrtoll10 p = (r, n, 0)) :
    ∃ W X D R, p = W ++ X ++ D ++ R ∧ (∀ c ∈ W, latin1IsSpace c = true) ∧
      (X = [] ∨ X = ['+'.toUInt8]) ∧ D ≠ [] ∧ (∀ c ∈ D, latin1IsDigit c = true) ∧
      latin1IsDigit (R.headD 0) = false ∧ horner 0 D < 2 ^ 64 := by
  obtain ⟨W, X, k, rest, rfl, spaces, sign, lead, start⟩ := strtoll10_split p
  have zero : ∀ c ∈ List.replicate k '0'.toUInt8, latin1IsDigit c = true :=
    fun c mem => List.eq_of_mem_replicate mem ▸ zero_isDigit
  -- which exit returned no error: the sign must be `+` or absent
  have unsigned : ∀ {v e : Nat}, strtoll10Result (X = ['-'.toUInt8]) v e = (r, n, 0) →
      (X = [] ∨ X = ['+'.toUInt8]) ∧ v < 2 ^ 64 := by
    intro v e result
    cases minus : decide (X = ['-'.toUInt8])
    · rw [minus] at result
      exact ⟨sign_of_ne_minus sign minus, strtoll10Result_fits result⟩
    · rw [minus] at result
      exact (strtoll10Result_error_ne_zero result).elim
  by_cases digit : latin1IsDigit (rest.headD 0) = true
  · obtain ⟨d, rest, rfl⟩ : ∃ d rest', rest = d :: rest' := by
      cases rest with
      | nil => exact absurd digit (by decide)
      | cons d rest => exact ⟨d, rest, rfl⟩
    simp only [List.headD_cons] at digit lead
    have split := (List.takeWhile_append_dropWhile (p := latin1IsDigit) (l := rest)).symm
    have digits : ∀ c ∈ rest.takeWhile latin1IsDigit, latin1IsDigit c = true :=
      fun c mem => List.mem_takeWhile_imp mem
    have stop := headD_dropWhile rest (p := latin1IsDigit) rfl
    rw [split, ← List.cons_append, ← List.append_assoc,
      myStrtoll10_digits k spaces sign digit lead digits stop] at h
    obtain ⟨unsigned, fits⟩ := unsigned h
    refine ⟨W, X, List.replicate k '0'.toUInt8 ++ d :: rest.takeWhile latin1IsDigit,
      rest.dropWhile latin1IsDigit, by simp, spaces, unsigned, by simp, ?_, stop, fits⟩
    intro c mem
    rcases List.mem_append.mp mem with z | rest
    · exact zero c z
    · rcases List.mem_cons.mp rest with rfl | mem
      · exact digit
      · exact digits c mem
  · have stop : latin1IsDigit (rest.headD 0) = false := by simpa using digit
    rcases k with _ | k
    · rw [List.replicate_zero, List.append_nil, myStrtoll10_noDigits spaces sign stop (by simpa using start)] at h
      simp [myErrnoEdom] at h
    · rw [myStrtoll10_zeros k spaces sign stop] at h
      obtain ⟨unsigned, -⟩ := unsigned h
      refine ⟨W, X, List.replicate (k + 1) '0'.toUInt8, rest, rfl, spaces, unsigned, by simp, zero, stop, ?_⟩
      rw [← List.append_nil (List.replicate (k + 1) '0'.toUInt8),
        horner_zeros (fun c mem => List.eq_of_mem_replicate mem)]
      norm_num

end MariaDB.Decimal
