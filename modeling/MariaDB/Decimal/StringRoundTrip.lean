import MariaDB.Decimal.String

set_option autoImplicit false

/- The text a decimal prints to reads back as the same decimal. The printer's
loops and the parser's loops cut the digits at the same word boundaries: the
integer words are printed and read from the point leftward, nine digits each
with the partial word last, and the fraction words rightward with the partial
word last. Each side is first described word by word; the round trip is then
one induction over the words. -/
namespace MariaDB.Decimal

/-! ## Digit characters -/

/-- The digits of `cs` least significant first, as the integer loop of
`internal_str2dec` weighs them. -/
def lowValue (cs : List UInt8) : Nat := Nat.ofDigits 10 (cs.map digitValue)

/-- The digits of `cs` most significant first, gathered onto `x` as the
fraction loop of `internal_str2dec` gathers them. -/
def horner (x : Nat) (cs : List UInt8) : Nat := cs.foldl (fun x c => digitValue c + x * 10) x

theorem digitValue_digitChar {y : Nat} (h : y < 10) : digitValue (digitChar y) = y := by
  revert y
  decide

theorem latin1IsDigit_digitChar {y : Nat} (h : y < 10) : latin1IsDigit (digitChar y) = true := by
  revert y
  decide

@[simp] theorem lowValue_nil : lowValue [] = 0 := rfl

theorem lowValue_append (cs ds : List UInt8) :
    lowValue (cs ++ ds) = lowValue cs + 10 ^ cs.length * lowValue ds := by
  rw [lowValue, List.map_append, Nat.ofDigits_append, List.length_map, ← lowValue, ← lowValue]

@[simp] theorem horner_nil (x : Nat) : horner x [] = x := rfl

@[simp] theorem horner_cons (x : Nat) (c : UInt8) (cs : List UInt8) :
    horner x (c :: cs) = horner (digitValue c + x * 10) cs := rfl

theorem horner_append (x : Nat) (cs ds : List UInt8) : horner x (cs ++ ds) = horner (horner x cs) ds :=
  List.foldl_append

theorem leadDigitChars_succ (n x : Nat) :
    leadDigitChars (n + 1) x = digitChar (x / digMask) :: leadDigitChars n (x % digMask * 10) := by
  have low : x - x / digMask * digMask = x % digMask := by unfold digMask; omega
  show digitChar (x / digMask) :: leadDigitChars n ((x - x / digMask * digMask) * 10) = _
  rw [low]

@[simp] theorem length_lowDigitChars (n x : Nat) : (lowDigitChars n x).length = n := by
  induction n generalizing x with
  | zero => rfl
  | succ n ih => simp [lowDigitChars_succ, ih]

@[simp] theorem length_leadDigitChars (n x : Nat) : (leadDigitChars n x).length = n := by
  induction n generalizing x with
  | zero => rfl
  | succ n ih => simp [leadDigitChars_succ, ih]

theorem lowDigitChars_ne_nil {n : Nat} (x : Nat) (h : 0 < n) : lowDigitChars n x ≠ [] := by
  rw [ne_eq, ← List.length_eq_zero_iff, length_lowDigitChars]
  omega

theorem leadDigitChars_ne_nil {n : Nat} (x : Nat) (h : 0 < n) : leadDigitChars n x ≠ [] := by
  rw [ne_eq, ← List.length_eq_zero_iff, length_leadDigitChars]
  omega

theorem reverse_lowDigitChars_succ (n x : Nat) :
    (lowDigitChars (n + 1) x).reverse = digitChar (x % 10) :: (lowDigitChars n (x / 10)).reverse := by
  have low : x - x / 10 * 10 = x % 10 := by omega
  rw [lowDigitChars_succ, List.reverse_append, low]
  rfl

/-- The low digits printed backward read back, least significant first, as
the value modulo their width. -/
theorem lowValue_lowDigitChars (n x : Nat) : lowValue (lowDigitChars n x).reverse = x % 10 ^ n := by
  induction n generalizing x with
  | zero => simp [Nat.mod_one]
  | succ n ih =>
    rw [reverse_lowDigitChars_succ, lowValue, List.map_cons, Nat.ofDigits_cons, ← lowValue, ih,
      digitValue_digitChar (Nat.mod_lt _ (by norm_num)), pow_succ', Nat.mod_mul]

theorem lowDigitChars_digits (n x : Nat) : ∀ c ∈ lowDigitChars n x, latin1IsDigit c = true := by
  induction n generalizing x with
  | zero => simp
  | succ n ih =>
    intro c mem
    rw [← List.mem_reverse, reverse_lowDigitChars_succ, List.mem_cons, List.mem_reverse] at mem
    rcases mem with rfl | mem
    · exact latin1IsDigit_digitChar (Nat.mod_lt _ (by norm_num))
    · exact ih _ c mem

/-- The first character of `n + 1` low digits is the digit of weight `10 ^ n`. -/
theorem lowDigitChars_succ_eq_cons (n x : Nat) :
    ∃ cs, lowDigitChars (n + 1) x = digitChar (x / 10 ^ n % 10) :: cs := by
  induction n generalizing x with
  | zero =>
    have low : x - x / 10 * 10 = x / 10 ^ 0 % 10 := by rw [pow_zero, Nat.div_one]; omega
    exact ⟨[], by rw [lowDigitChars_succ, lowDigitChars_zero, low]; rfl⟩
  | succ n ih =>
    obtain ⟨cs, h⟩ := ih (x / 10)
    refine ⟨cs ++ [digitChar (x - x / 10 * 10)], ?_⟩
    rw [lowDigitChars_succ, h, Nat.div_div_eq_div_mul, ← pow_succ']
    rfl

theorem div_pow_eq (x k n : Nat) (h : n ≤ k) :
    x / 10 ^ (k - n) = x / 10 ^ k * 10 ^ n + x % 10 ^ k / 10 ^ (k - n) := by
  have split : 10 ^ k = 10 ^ (k - n) * 10 ^ n := by rw [← pow_add, Nat.sub_add_cancel h]
  have expand : x = x % 10 ^ k + 10 ^ (k - n) * (10 ^ n * (x / 10 ^ k)) := by
    rw [← Nat.mul_assoc, ← split, Nat.mod_add_div]
  conv_lhs => rw [expand]
  rw [Nat.add_mul_div_left _ _ (by positivity)]
  ring

/-- The top `n` digits of a nine-digit word, gathered onto `a`. -/
theorem horner_leadDigitChars (a : Nat) {n x : Nat} (hn : n ≤ 9) (hx : x < 10 ^ 9) :
    horner a (leadDigitChars n x) = a * 10 ^ n + x / 10 ^ (9 - n) := by
  induction n generalizing a x with
  | zero => rw [leadDigitChars_zero, horner_nil, Nat.sub_zero, Nat.div_eq_of_lt hx, pow_zero]; ring
  | succ n ih =>
    have top : x / digMask < 10 := by unfold digMask; omega
    have shifted : x % digMask * 10 < 10 ^ 9 := by unfold digMask; omega
    rw [leadDigitChars_succ, horner_cons, digitValue_digitChar top, ih _ (by omega) shifted]
    have drop : x % digMask * 10 / 10 ^ (9 - n) = x % digMask / 10 ^ (8 - n) := by
      rw [show 9 - n = (8 - n) + 1 by omega, pow_succ, Nat.mul_div_mul_right _ _ (by norm_num)]
    have split := div_pow_eq x 8 n (by omega)
    rw [show (10 : Nat) ^ 8 = digMask from rfl] at split
    rw [drop, show 9 - (n + 1) = 8 - n by omega, split]
    ring

theorem leadDigitChars_digits {n x : Nat} (hx : x < 10 ^ 9) :
    ∀ c ∈ leadDigitChars n x, latin1IsDigit c = true := by
  induction n generalizing x with
  | zero => simp
  | succ n ih =>
    intro c mem
    rw [leadDigitChars_succ, List.mem_cons] at mem
    rcases mem with rfl | mem
    · exact latin1IsDigit_digitChar (by unfold digMask; omega)
    · exact ih (by unfold digMask; omega) c mem

/-! ## The parser's loops, a word at a time -/

theorem intWordsLoop_append_of_lt (cs rest : List UInt8) (x i : Nat)
    (acc : List Nat) (h : i + cs.length < 9) :
    intWordsLoop (cs ++ rest) x i acc =
      intWordsLoop rest (x + lowValue cs * 10 ^ i) (i + cs.length) acc := by
  induction cs generalizing x i with
  | nil => simp
  | cons c cs ih =>
    rw [List.length_cons] at h
    rw [List.cons_append, intWordsLoop_cons, if_neg (by omega), ih _ _ (by omega)]
    have weigh : lowValue (c :: cs) * 10 ^ i = digitValue c * 10 ^ i + lowValue cs * 10 ^ (i + 1) := by
      rw [lowValue, List.map_cons, Nat.ofDigits_cons, ← lowValue, pow_succ]
      ring
    rw [weigh, List.length_cons, ← Nat.add_assoc x, show i + 1 + cs.length = i + (cs.length + 1) by omega]

/-- The ninth digit of a word closes it: the word goes before the others. -/
theorem intWordsLoop_append_of_eq (cs rest : List UInt8) (x i : Nat)
    (acc : List Nat) (hne : cs ≠ []) (h : i + cs.length = 9) :
    intWordsLoop (cs ++ rest) x i acc = intWordsLoop rest 0 0 ((x + lowValue cs * 10 ^ i) :: acc) := by
  induction cs using List.reverseRecOn with
  | nil => exact absurd rfl hne
  | append_singleton cs c _ =>
    rw [List.length_append, List.length_singleton] at h
    rw [List.append_assoc, List.singleton_append, intWordsLoop_append_of_lt _ _ _ _ _ (by omega),
      intWordsLoop_cons, if_pos (by omega), lowValue_append]
    have weigh : 10 ^ (i + cs.length) = 10 ^ i * 10 ^ cs.length := pow_add _ _ _
    rw [show i + cs.length = 8 by omega] at weigh ⊢
    simp only [lowValue, List.map_cons, List.map_nil, Nat.ofDigits_singleton]
    rw [weigh]
    ring_nf

theorem fracWordsLoop_append_of_lt (cs rest : List UInt8) (x i : Nat)
    (h : i + cs.length < 9) :
    fracWordsLoop (cs ++ rest) x i = fracWordsLoop rest (horner x cs) (i + cs.length) := by
  induction cs generalizing x i with
  | nil => simp
  | cons c cs ih =>
    rw [List.length_cons] at h
    rw [List.cons_append, fracWordsLoop_cons, if_neg (by omega), ih _ _ (by omega), horner_cons,
      List.length_cons, Nat.add_assoc, Nat.add_comm 1]

theorem fracWordsLoop_append_of_eq (cs rest : List UInt8) (x i : Nat)
    (hne : cs ≠ []) (h : i + cs.length = 9) :
    fracWordsLoop (cs ++ rest) x i = horner x cs :: fracWordsLoop rest 0 0 := by
  induction cs using List.reverseRecOn with
  | nil => exact absurd rfl hne
  | append_singleton cs c _ =>
    rw [List.length_append, List.length_singleton] at h
    rw [List.append_assoc, List.singleton_append, fracWordsLoop_append_of_lt _ _ _ _ (by omega),
      fracWordsLoop_cons, if_pos (by omega), horner_append]
    rfl

/-- A word of at most nine digits, the last the integer loop reads, ends the
word list. -/
theorem intWordsLoop_lowDigitChars_last {k w : Nat} (acc : List Nat) (pos : 0 < k) (le : k ≤ 9)
    (lt : w < 10 ^ k) : intWordsLoop (lowDigitChars k w).reverse 0 0 acc = w :: acc := by
  have low : lowValue (lowDigitChars k w).reverse = w := by
    rw [lowValue_lowDigitChars, Nat.mod_eq_of_lt lt]
  rcases Nat.lt_or_eq_of_le le with short | full
  · have step := intWordsLoop_append_of_lt (lowDigitChars k w).reverse [] 0 0 acc
      (by simpa using short)
    rw [List.append_nil] at step
    rw [step, low]
    simp [intWordsLoop_nil, pos]
  · have step := intWordsLoop_append_of_eq (lowDigitChars k w).reverse [] 0 0 acc
      (List.reverse_ne_nil_iff.mpr (lowDigitChars_ne_nil w pos)) (by simpa using full)
    rw [List.append_nil] at step
    rw [step, low]
    simp [intWordsLoop_nil]

theorem intWordsLoop_lowDigitChars_full {w : Nat} (rest : List UInt8) (acc : List Nat)
    (lt : w < 10 ^ 9) :
    intWordsLoop ((lowDigitChars 9 w).reverse ++ rest) 0 0 acc = intWordsLoop rest 0 0 (w :: acc) := by
  rw [intWordsLoop_append_of_eq _ _ _ _ _
      (List.reverse_ne_nil_iff.mpr (lowDigitChars_ne_nil w (by norm_num))) (by simp),
    lowValue_lowDigitChars,
    Nat.mod_eq_of_lt lt]
  simp

/-- The integer digits printed from the words `rws`, last word first, read
back as those words. The words are full but the first, which has
`(intg - 1) % 9 + 1` digits. -/
theorem intWordsLoop_intDigitChars {intg : Nat} {rws : List Nat} (acc : List Nat) (pos : 0 < intg)
    (count : roundUp intg = rws.length) (lt : ∀ w ∈ rws, w < 10 ^ 9)
    (top : rws.getLastD 0 < 10 ^ ((intg - 1) % 9 + 1)) :
    intWordsLoop (intDigitChars intg rws).reverse 0 0 acc = rws.reverse ++ acc := by
  induction rws generalizing intg acc with
  | nil => simp [roundUp_def] at count; omega
  | cons w ws ih =>
    cases ws with
    | nil =>
      have single : intg ≤ 9 := by simp [roundUp_def] at count; omega
      rw [intDigitChars_cons, if_pos pos, Nat.min_eq_left single]
      simp only [intDigitChars_nil, List.nil_append, List.reverse_singleton, List.singleton_append]
      rw [List.getLastD_cons, List.getLastD_nil, show (intg - 1) % 9 + 1 = intg by omega] at top
      exact intWordsLoop_lowDigitChars_last acc pos single top
    | cons v vs =>
      have long : 9 < intg := by simp [roundUp_def] at count; omega
      rw [intDigitChars_cons, if_pos pos, Nat.min_eq_right (by omega), List.reverse_append,
        intWordsLoop_lowDigitChars_full _ _ (lt w (by simp)),
        ih (w :: acc) (by omega) (by simp [roundUp_def] at count ⊢; omega)
          (fun u mem => lt u (List.mem_cons_of_mem _ mem))
          (by rw [List.getLastD_cons] at top; rwa [show (intg - 9 - 1) % 9 = (intg - 1) % 9 by omega])]
      simp

theorem length_intDigitChars {intg : Nat} {rws : List Nat} (count : roundUp intg = rws.length) :
    (intDigitChars intg rws).length = intg := by
  induction rws generalizing intg with
  | nil => simp [roundUp_def] at count; simp; omega
  | cons w ws ih =>
    by_cases pos : 0 < intg
    · rw [intDigitChars_cons, if_pos pos, List.length_append, length_lowDigitChars,
        ih (by simp [roundUp_def] at count ⊢; omega)]
      omega
    · simp [roundUp_def] at count; omega

theorem intDigitChars_digits (intg : Nat) (rws : List Nat) :
    ∀ c ∈ intDigitChars intg rws, latin1IsDigit c = true := by
  induction rws generalizing intg with
  | nil => simp
  | cons w ws ih =>
    intro c mem
    rw [intDigitChars_cons] at mem
    split at mem
    · rcases List.mem_append.mp mem with mem | mem
      · exact ih _ c mem
      · exact lowDigitChars_digits _ _ c mem
    · simp at mem

/-- The integer digits start with the top digit of the first word. -/
theorem intDigitChars_eq_cons {intg : Nat} {rws : List Nat} (pos : 0 < intg)
    (count : roundUp intg = rws.length) :
    ∃ cs, intDigitChars intg rws =
      digitChar (rws.getLastD 0 / 10 ^ ((intg - 1) % 9) % 10) :: cs := by
  induction rws generalizing intg with
  | nil => simp [roundUp_def] at count; omega
  | cons w ws ih =>
    cases ws with
    | nil =>
      have single : intg ≤ 9 := by simp [roundUp_def] at count; omega
      obtain ⟨cs, h⟩ := lowDigitChars_succ_eq_cons (intg - 1) w
      refine ⟨cs, ?_⟩
      rw [intDigitChars_cons, if_pos pos, Nat.min_eq_left single, show intg = intg - 1 + 1 by omega]
      simp only [intDigitChars_nil, List.nil_append, List.getLastD_cons, List.getLastD_nil,
        Nat.add_sub_cancel]
      rw [h, show (intg - 1) % 9 = intg - 1 by omega]
    | cons v vs =>
      have long : 9 < intg := by simp [roundUp_def] at count; omega
      obtain ⟨cs, h⟩ := ih (show 0 < intg - 9 by omega) (by simp [roundUp_def] at count ⊢; omega)
      refine ⟨cs ++ lowDigitChars 9 w, ?_⟩
      rw [intDigitChars_cons, if_pos pos, Nat.min_eq_right (by omega), h,
        show (intg - 9 - 1) % 9 = (intg - 1) % 9 by omega]
      simp only [List.getLastD_cons, List.cons_append]

/-- A fraction word of `k ≤ 9` digits, the last the fraction loop reads. -/
theorem fracWordsLoop_leadDigitChars_last {k w : Nat} (pos : 0 < k) (le : k ≤ 9) (lt : w < 10 ^ 9)
    (dvd : 10 ^ (9 - k) ∣ w) : fracWordsLoop (leadDigitChars k w) 0 0 = [w] := by
  have top := horner_leadDigitChars 0 le lt
  rw [Nat.zero_mul, Nat.zero_add] at top
  rcases Nat.lt_or_eq_of_le le with short | full
  · have step := fracWordsLoop_append_of_lt (leadDigitChars k w) [] 0 0 (by simpa using short)
    rw [List.append_nil] at step
    rw [step, top, fracWordsLoop_nil, if_pos (by simpa using pos), length_leadDigitChars, Nat.zero_add,
      Nat.div_mul_cancel dvd]
  · have step := fracWordsLoop_append_of_eq (leadDigitChars k w) [] 0 0
      (leadDigitChars_ne_nil w pos) (by simpa using full)
    rw [List.append_nil] at step
    rw [step, top, fracWordsLoop_nil, if_neg (by omega), full]
    simp

theorem fracWordsLoop_leadDigitChars_full {w : Nat} (rest : List UInt8) (lt : w < 10 ^ 9) :
    fracWordsLoop (leadDigitChars 9 w ++ rest) 0 0 = w :: fracWordsLoop rest 0 0 := by
  rw [fracWordsLoop_append_of_eq _ _ _ _ (leadDigitChars_ne_nil w (by norm_num)) (by simp),
    horner_leadDigitChars 0 le_rfl lt]
  simp

/-- The fraction digits printed from the words `ws` read back as those words,
the last of which holds `(frac - 1) % 9 + 1` digits padded with zeros. -/
theorem fracWordsLoop_fracDigitChars {frac : Nat} {ws : List Nat}
    (count : roundUp frac = ws.length) (lt : ∀ w ∈ ws, w < 10 ^ 9)
    (last : 10 ^ (9 - ((frac - 1) % 9 + 1)) ∣ ws.getLastD 0) :
    fracWordsLoop (fracDigitChars frac ws) 0 0 = ws := by
  induction ws generalizing frac with
  | nil => simp [fracWordsLoop_nil]
  | cons w ws ih =>
    have pos : 0 < frac := by simp [roundUp_def] at count; omega
    cases ws with
    | nil =>
      have single : frac ≤ 9 := by simp [roundUp_def] at count; omega
      rw [fracDigitChars_cons, if_pos pos, Nat.min_eq_left single, fracDigitChars_nil, List.append_nil]
      rw [List.getLastD_cons, List.getLastD_nil, show (frac - 1) % 9 + 1 = frac by omega] at last
      exact fracWordsLoop_leadDigitChars_last pos single (lt w (by simp)) last
    | cons v vs =>
      have long : 9 < frac := by simp [roundUp_def] at count; omega
      rw [fracDigitChars_cons, if_pos pos, Nat.min_eq_right (by omega),
        fracWordsLoop_leadDigitChars_full _ (lt w (by simp)),
        ih (by simp [roundUp_def] at count ⊢; omega) (fun u mem => lt u (List.mem_cons_of_mem _ mem))
          (by rw [List.getLastD_cons] at last; rwa [show (frac - 9 - 1) % 9 = (frac - 1) % 9 by omega])]

theorem length_fracDigitChars {frac : Nat} {ws : List Nat} (count : roundUp frac = ws.length) :
    (fracDigitChars frac ws).length = frac := by
  induction ws generalizing frac with
  | nil => simp [roundUp_def] at count; simp; omega
  | cons w ws ih =>
    have pos : 0 < frac := by simp [roundUp_def] at count; omega
    rw [fracDigitChars_cons, if_pos pos, List.length_append, length_leadDigitChars,
      ih (by simp [roundUp_def] at count ⊢; omega)]
    omega

theorem fracDigitChars_digits {frac : Nat} {ws : List Nat} (lt : ∀ w ∈ ws, w < 10 ^ 9) :
    ∀ c ∈ fracDigitChars frac ws, latin1IsDigit c = true := by
  induction ws generalizing frac with
  | nil => simp
  | cons w ws ih =>
    intro c mem
    rw [fracDigitChars_cons] at mem
    split at mem
    · rcases List.mem_append.mp mem with mem | mem
      · exact leadDigitChars_digits (lt w (by simp)) c mem
      · exact ih (fun u mem => lt u (List.mem_cons_of_mem _ mem)) c mem
    · simp at mem

/-! ## `remove_leading_zeroes` -/

/-- The zero words skipped come off the front of the buffer, a word of
digits each; what is left starts with a nonzero word, unless no integer digit
is left. `i` is the digit count of the first word, `(intg - 1) % 9 + 1`. -/
theorem skipZeroWords_spec (ws : List Nat) (intg i : Nat) (first : 0 < intg → i = (intg - 1) % 9 + 1)
    (len : roundUp intg ≤ ws.length) :
    let r := skipZeroWords intg i ws
    ∃ m, ws = List.replicate m 0 ++ r.1 ∧ m + roundUp r.2 = roundUp intg ∧ r.2 ≤ intg ∧
      (0 < r.2 → (r.2 = intg ∨ r.2 % 9 = 0) ∧ r.1.headD 0 ≠ 0) := by
  induction ws generalizing intg i with
  | nil =>
    have zero : intg = 0 := by simp [roundUp_def] at len; omega
    exact ⟨0, by simp [skipZeroWords, zero]⟩
  | cons w ws ih =>
    intro r
    by_cases skip : 0 < intg ∧ w = 0
    · have next : r = skipZeroWords (intg - i) 9 ws := by simp only [r, skipZeroWords, if_pos skip]
      have fst := first skip.1
      obtain ⟨m, split, count, le, nonzero⟩ := ih (intg - i) 9 (fun _ => by omega)
        (by simp [roundUp_def] at len ⊢; omega)
      rw [← next] at split count le nonzero
      refine ⟨m + 1, ?_, ?_, by omega, fun pos => ⟨Or.inr ?_, (nonzero pos).2⟩⟩
      · rw [skip.2, split, List.replicate_succ, List.cons_append]
      · simp only [roundUp_def] at count ⊢
        omega
      · rcases (nonzero pos).1 with same | full
        · omega
        · exact full
    · have stop : r = (w :: ws, intg) := by simp only [r, skipZeroWords, if_neg skip]
      rw [stop]
      refine ⟨0, by simp, by simp, le_rfl, fun pos => ⟨Or.inl rfl, ?_⟩⟩
      simp only [List.headD_cons]
      omega

/-- `for (i= (intg - 1) % DIG_PER_DEC1; *buf0 < powers10[i--]; intg--)` stops
at the digit count of the word, within the same word. -/
theorem countLeadDigits_spec {w : Nat} (one : 1 ≤ w) (i : Nat) :
    ∀ intg, (intg - 1) % 9 = i → 0 < intg → w < 10 ^ (i + 1) →
      let r := countLeadDigits w i intg
      0 < r ∧ r ≤ intg ∧ (r - 1) / 9 = (intg - 1) / 9 ∧
        10 ^ ((r - 1) % 9) ≤ w ∧ w < 10 ^ ((r - 1) % 9 + 1) := by
  induction i with
  | zero =>
    intro intg digit pos lt
    simp only [countLeadDigits, if_neg (show ¬w < 1 by omega), digit, pow_zero]
    exact ⟨pos, le_rfl, trivial, one, lt⟩
  | succ i ih =>
    intro intg digit pos lt
    by_cases shorter : w < 10 ^ (i + 1)
    · simp only [countLeadDigits, if_pos shorter]
      obtain ⟨rpos, le, word, low, high⟩ := ih (intg - 1) (by omega) (by omega) shorter
      exact ⟨rpos, by omega, by omega, low, high⟩
    · simp only [countLeadDigits, if_neg shorter, digit]
      exact ⟨pos, le_rfl, trivial, by omega, lt⟩

theorem roundUp_eq_of_div_eq {a b : Nat} (ha : 0 < a) (hb : 0 < b) (h : (a - 1) / 9 = (b - 1) / 9) :
    roundUp a = roundUp b := by
  simp only [roundUp_def]
  omega

theorem word_lt_of_wellFormed {d : DecimalT} (wf : d.WellFormed) : ∀ w ∈ d.buf, w < 10 ^ 9 :=
  fun w mem => wf.word_lt w mem

/-- What `remove_leading_zeroes` leaves of a well-formed decimal: the buffer
after `m` zero words, and an integer digit count that the first word left
holds exactly. -/
theorem removeLeadingZeroes_spec {d : DecimalT} (wf : d.WellFormed) :
    let r := removeLeadingZeroes d
    ∃ m, d.buf = List.replicate m 0 ++ r.1 ∧ m + roundUp r.2 = roundUp d.intg ∧ r.2 ≤ d.intg ∧
      (0 < r.2 → 10 ^ ((r.2 - 1) % 9) ≤ r.1.headD 0 ∧ r.1.headD 0 < 10 ^ ((r.2 - 1) % 9 + 1)) := by
  intro r
  obtain ⟨m, split, count, le, nonzero⟩ := skipZeroWords_spec d.buf d.intg ((d.intg - 1) % 9 + 1)
    (fun _ => rfl) (by rw [wf.length_buf]; omega)
  set skipped := skipZeroWords d.intg ((d.intg - 1) % 9 + 1) d.buf
  by_cases pos : 0 < skipped.2
  · obtain ⟨kept, head⟩ := nonzero pos
    have mem : skipped.1.headD 0 ∈ d.buf := by
      rw [split]
      cases h : skipped.1 with
      | nil => rw [h] at head; exact absurd rfl head
      | cons v vs => simp
    -- the first word left is the top word of `d` or a full word
    have top : skipped.1.headD 0 < 10 ^ ((skipped.2 - 1) % 9 + 1) := by
      rcases kept with same | full
      · have none : m = 0 := by rw [same] at count; omega
        rw [none, List.replicate_zero, List.nil_append] at split
        by_cases part : 0 < d.intg % 9
        · have h := wf.head_lt part
          rw [← split, same, show (d.intg - 1) % 9 + 1 = d.intg % 9 by omega]
          exact h
        · rw [same, show (d.intg - 1) % 9 + 1 = 9 by omega]
          exact word_lt_of_wellFormed wf _ mem
      · rw [show (skipped.2 - 1) % 9 + 1 = 9 by omega]
        exact word_lt_of_wellFormed wf _ mem
    obtain ⟨rpos, rle, word, low, high⟩ :=
      countLeadDigits_spec (by omega) _ skipped.2 rfl pos top
    have hr : r = (skipped.1, countLeadDigits (skipped.1.headD 0) ((skipped.2 - 1) % 9) skipped.2) := by
      simp only [r, removeLeadingZeroes, skipped, if_pos pos]
    rw [hr]
    exact ⟨m, split, by rw [roundUp_eq_of_div_eq rpos pos word]; exact count, by omega,
      fun _ => ⟨low, high⟩⟩
  · have hr : r = (skipped.1, 0) := by simp only [r, removeLeadingZeroes, skipped, if_neg pos]
    rw [hr]
    exact ⟨m, split, by simp [roundUp_def] at count ⊢; omega, by omega, fun h => absurd h (by omega)⟩

/-! ## What `decimal2string` prints -/

/-- The integer digits `decimal2string` prints from what `remove_leading_zeroes`
leaves: `intg` digits of the words `buf0`, or a lone `0`. -/
def printedIntg (buf0 : List Nat) (intg : Nat) : List UInt8 :=
  if intg ≠ 0 then intDigitChars intg (buf0.take (roundUp intg)).reverse else ['0'.toUInt8]

theorem decimal2stringWidths_of_room {sign : Bool} {intg frac toLen : Nat}
    (room : (if sign then 1 else 0) + max intg 1 + (if frac ≠ 0 then 1 else 0) + frac < toLen) :
    decimal2stringWidths sign intg frac toLen 0 0 =
      (intg, frac, max intg 1, frac,
        (if sign then 1 else 0) + max intg 1 + (if frac ≠ 0 then 1 else 0) + frac, .ok) := by
  have places : (if intg = 0 then 1 else intg) = max intg 1 := by split <;> omega
  have fits : ¬toLen - 1 <
      (if sign then 1 else 0) + max intg 1 + (if frac ≠ 0 then 1 else 0) + frac := by
    omega
  simp only [decimal2stringWidths, show ¬((0 : Nat) ≠ 0) from fun h => h rfl, ↓reduceIte, places,
    fits]

theorem decimal2stringChars_unfilled (sign : Bool) (buf0 : List Nat) (intg frac : Nat) :
    decimal2stringChars sign buf0 intg frac (max intg 1) frac 0 =
      (if sign then ['-'.toUInt8] else []) ++ printedIntg buf0 intg ++
        (if frac ≠ 0 then '.'.toUInt8 :: fracDigitChars frac (buf0.drop (roundUp intg)) else []) := by
  have fill : max intg 1 - intg - (if intg = 0 then 1 else 0) = 0 := by split <;> omega
  simp only [decimal2stringChars, printedIntg, fill, Nat.sub_self, List.replicate_zero,
    List.nil_append, List.append_nil]

/-- With room for every digit and no fixed widths, `decimal2string` prints the
digits `remove_leading_zeroes` leaves, with no fill and no error. -/
theorem decimal2string_of_room {d : DecimalT} {toLen : Nat}
    (room : (if d.sign then 1 else 0) + max (removeLeadingZeroes d).2 1 +
      (if d.frac ≠ 0 then 1 else 0) + d.frac < toLen) :
    decimal2string d toLen 0 0 0 =
      ((if d.sign then ['-'.toUInt8] else []) ++
          printedIntg (removeLeadingZeroes d).1 (removeLeadingZeroes d).2 ++
          (if d.frac ≠ 0 then
            '.'.toUInt8 :: fracDigitChars d.frac
              ((removeLeadingZeroes d).1.drop (roundUp (removeLeadingZeroes d).2))
          else []),
        (if d.sign then 1 else 0) + max (removeLeadingZeroes d).2 1 +
          (if d.frac ≠ 0 then 1 else 0) + d.frac, .ok) := by
  rcases hr : removeLeadingZeroes d with ⟨buf0, intg⟩
  rw [hr] at room
  by_cases zero : intg + d.frac = 0
  -- no digit left: the zero word `tmp` prints the same lone `0`
  · have start : decimal2stringStart d = ([0], 1) := by
      simp only [decimal2stringStart, hr, if_pos zero]
    have none : intg = 0 := by omega
    have whole : d.frac = 0 := by omega
    have zeroDigit : printedIntg [0] 1 = printedIntg buf0 0 := by
      rw [show printedIntg buf0 0 = ['0'.toUInt8] from rfl]
      decide
    have room' : (if d.sign then 1 else 0) + max 1 1 + (if (0 : Nat) ≠ 0 then 1 else 0) + 0 < toLen := by
      simpa [none, whole] using room
    rw [none]
    simp only [decimal2string, start, whole, decimal2stringWidths_of_room room',
      decimal2stringChars_unfilled, zeroDigit]
    rfl
  · have start : decimal2stringStart d = (buf0, intg) := by
      simp only [decimal2stringStart, hr, if_neg zero]
    simp only [decimal2string, start, decimal2stringWidths_of_room room,
      decimal2stringChars_unfilled]

/-! ## Reading a text back -/

/-- The text `decimal2string` writes: a sign, integer digits, and a point
before fraction digits if there are any. -/
def decimalText (sign : Bool) (ip fp : List UInt8) : List UInt8 :=
  (if sign then ['-'.toUInt8] else []) ++ ip ++ (if fp = [] then [] else '.'.toUInt8 :: fp)

theorem str2decDigits_text {ip fp : List UInt8} (ipDigits : ∀ c ∈ ip, latin1IsDigit c = true)
    (fpDigits : ∀ c ∈ fp, latin1IsDigit c = true)
    (noTrim : ¬(9 < ip.length ∧ ip.take 2 = ['0'.toUInt8, '0'.toUInt8])) :
    str2decDigits (ip ++ (if fp = [] then [] else '.'.toUInt8 :: fp)) = (ip, fp, []) := by
  have stop : (if fp = [] then [] else '.'.toUInt8 :: fp).takeWhile latin1IsDigit = [] := by
    split
    · rfl
    · exact List.takeWhile_cons_of_neg (by decide)
  have ints : (ip ++ (if fp = [] then [] else '.'.toUInt8 :: fp)).takeWhile latin1IsDigit = ip := by
    rw [List.takeWhile_append_of_pos ipDigits, stop, List.append_nil]
  have fracs : fp.takeWhile latin1IsDigit = fp := List.takeWhile_eq_self_iff.mpr fpDigits
  simp only [str2decDigits, ints, List.drop_left, if_neg noTrim]
  by_cases hf : fp = []
  · simp [hf]
  · simp [hf, fracs]

theorem str2decLimits_of_room {toDec : DecimalT} {intg frac : Nat}
    (room : roundUp intg + roundUp frac ≤ toDec.len) :
    str2decLimits toDec false intg frac = some (intg, frac, .ok) := by
  simp [str2decLimits, fixIntgFracError, Nat.not_lt.mpr room]

theorem latin1IsDigit_iff (c : UInt8) : latin1IsDigit c = true ↔ 48 ≤ c.toNat ∧ c.toNat ≤ 57 := by
  simp [latin1IsDigit, UInt8.le_iff_toNat_le]
  rfl

theorem latin1IsSpace_of_digit {c : UInt8} (h : latin1IsDigit c = true) : latin1IsSpace c = false := by
  rw [latin1IsDigit_iff] at h
  simp [latin1IsSpace, UInt8.le_iff_toNat_le, ← UInt8.toNat_inj]
  omega

theorem ne_sign_of_digit {c : UInt8} (h : latin1IsDigit c = true) :
    c ≠ '-'.toUInt8 ∧ c ≠ '+'.toUInt8 := by
  rw [latin1IsDigit_iff] at h
  simp only [ne_eq, ← UInt8.toNat_inj]
  constructor <;> (intro e; rw [e] at h; revert h; decide)

/-- The text starts with its sign or its first digit, not a space; the sign is
read off before the digits. -/
theorem decimalText_start (sign : Bool) {c : UInt8} (ip' fp : List UInt8)
    (digit : latin1IsDigit c = true) :
    ∃ c' cs', (decimalText sign (c :: ip') fp).dropWhile latin1IsSpace = c' :: cs' ∧
      str2decSign c' cs' = (sign, c :: ip' ++ (if fp = [] then [] else '.'.toUInt8 :: fp)) := by
  cases sign
  · refine ⟨c, ip' ++ (if fp = [] then [] else '.'.toUInt8 :: fp), ?_, ?_⟩
    · simp [decimalText, latin1IsSpace_of_digit digit]
    · simp [str2decSign, ne_sign_of_digit digit]
  · refine ⟨'-'.toUInt8, c :: ip' ++ (if fp = [] then [] else '.'.toUInt8 :: fp), ?_, ?_⟩
    · simp only [decimalText, if_true, List.cons_append, List.nil_append]
      exact List.dropWhile_cons_of_neg (by decide)
    · simp [str2decSign]

/-- The decimal `internal_str2dec` reads from the integer digits `ip` and the
fraction digits `fp` into `toDec`, before a zero loses its sign. -/
def readDecimal (toDec : DecimalT) (sign : Bool) (ip fp : List UInt8) : DecimalT :=
  { toDec with
    intg := ip.length, frac := fp.length, sign := sign,
    buf := str2decWords ip fp ip.length fp.length }

/-- A text of digits with an optional point reads as the words of its digits,
with nothing left over and no loss. -/
theorem string2decimal_decimalText {ip fp : List UInt8} (sign : Bool) (toDec : DecimalT)
    (ipDigits : ∀ c ∈ ip, latin1IsDigit c = true) (fpDigits : ∀ c ∈ fp, latin1IsDigit c = true)
    (ipNe : ip ≠ []) (noTrim : ¬(9 < ip.length ∧ ip.take 2 = ['0'.toUInt8, '0'.toUInt8]))
    (room : roundUp ip.length + roundUp fp.length ≤ toDec.len) :
    string2decimal (decimalText sign ip fp) toDec =
      some ({ readDecimal toDec sign ip fp with
          sign := sign && !decimalIsZero (readDecimal toDec sign ip fp) },
        (decimalText sign ip fp).length, .ok) := by
  obtain ⟨c, ip', rfl⟩ := List.exists_cons_of_ne_nil ipNe
  obtain ⟨c', cs', spaces, signed⟩ := decimalText_start sign ip' fp (ipDigits c (by simp))
  have nonzero : ¬((c :: ip').length + fp.length = 0) := by simp
  simp only [string2decimal, internalStr2dec, spaces, signed,
    str2decDigits_text ipDigits fpDigits noTrim, if_neg nonzero, str2decLimits_of_room room,
    List.length_nil, Nat.sub_zero]
  rfl

/-! ## The round trip -/

theorem wordsValue_eq_zero_iff (ws : List Nat) : wordsValue ws = 0 ↔ ∀ w ∈ ws, w = 0 := by
  induction ws with
  | nil => simp
  | cons w ws ih =>
    have pos : 0 < digBase ^ ws.length := Nat.pow_pos (by decide)
    rw [wordsValue_cons, List.forall_mem_cons, ← ih, Nat.add_eq_zero_iff, Nat.mul_eq_zero]
    constructor
    · rintro ⟨zero | zero, rest⟩
      · exact ⟨zero, rest⟩
      · omega
    · rintro ⟨zero, rest⟩
      exact ⟨Or.inl zero, rest⟩

theorem decimalIsZero_iff (d : DecimalT) : decimalIsZero d = true ↔ wordsValue d.words = 0 := by
  rw [wordsValue_eq_zero_iff, decimalIsZero, List.all_eq_true]
  simp

theorem getLastD_append_of_ne_nil (l : List Nat) {l' : List Nat} (h : l' ≠ []) :
    (l ++ l').getLastD 0 = l'.getLastD 0 := by
  obtain ⟨xs, x, rfl⟩ := (List.eq_nil_or_concat l').resolve_left h
  simp

theorem getLastD_reverse_take (l : List Nat) {k : Nat} (h : 0 < k) :
    (l.take k).reverse.getLastD 0 = l.headD 0 := by
  simp [List.getLastD_eq_getLast?, List.headD_eq_head?_getD, List.head?_take, h.ne']

theorem digitChar_ne_zero {y : Nat} (h : y < 10) (pos : 0 < y) : digitChar y ≠ '0'.toUInt8 := by
  revert pos
  revert y
  decide

section Printed

/- The words `remove_leading_zeroes` leaves for `intg` integer digits: enough
of them, each below `10 ^ 9`, the first holding exactly the digits left. -/
variable {buf0 : List Nat} {intg : Nat} (len : roundUp intg ≤ buf0.length)
  (lt : ∀ w ∈ buf0, w < 10 ^ 9)
  (top : 0 < intg → 10 ^ ((intg - 1) % 9) ≤ buf0.headD 0 ∧ buf0.headD 0 < 10 ^ ((intg - 1) % 9 + 1))
include len

theorem length_take_roundUp : (buf0.take (roundUp intg)).length = roundUp intg := by
  rw [List.length_take, Nat.min_eq_left len]

theorem length_printedIntg : (printedIntg buf0 intg).length = max intg 1 := by
  unfold printedIntg
  split
  · rw [length_intDigitChars (by rw [List.length_reverse, length_take_roundUp len])]
    omega
  · simp only [List.length_singleton]
    omega

theorem printedIntg_ne_nil : printedIntg buf0 intg ≠ [] := by
  rw [ne_eq, ← List.length_eq_zero_iff, length_printedIntg len]
  omega

include top

/-- A long integer part starts with a nonzero digit, so the parser trims
nothing off it. -/
theorem printedIntg_untrimmed :
    ¬(9 < (printedIntg buf0 intg).length ∧
      (printedIntg buf0 intg).take 2 = ['0'.toUInt8, '0'.toUInt8]) := by
  rintro ⟨long, zeros⟩
  have pos : 0 < intg := by rw [length_printedIntg len] at long; omega
  obtain ⟨low, high⟩ := top pos
  have count : roundUp intg = (buf0.take (roundUp intg)).reverse.length := by
    rw [List.length_reverse, length_take_roundUp len]
  obtain ⟨cs, first⟩ := intDigitChars_eq_cons pos count
  rw [getLastD_reverse_take _ (by simp only [roundUp_def]; omega)] at first
  have digit : 0 < buf0.headD 0 / 10 ^ ((intg - 1) % 9) % 10 ∧
      buf0.headD 0 / 10 ^ ((intg - 1) % 9) % 10 < 10 := by
    have below : buf0.headD 0 / 10 ^ ((intg - 1) % 9) < 10 := by
      rw [Nat.div_lt_iff_lt_mul (by positivity), ← pow_succ']
      exact high
    have above : 1 ≤ buf0.headD 0 / 10 ^ ((intg - 1) % 9) :=
      (Nat.le_div_iff_mul_le (by positivity)).mpr (by omega)
    omega
  rw [printedIntg, if_pos (by omega), first] at zeros
  have head := congrArg List.head? zeros
  simp only [List.take_succ_cons, List.head?_cons, Option.some.injEq] at head
  exact digitChar_ne_zero digit.2 digit.1 head

include lt

/-- The integer digits printed read back as the words they came from, or as
one zero word for the lone `0`. -/
theorem intWordsLoop_printedIntg :
    intWordsLoop (printedIntg buf0 intg).reverse 0 0 [] =
      if intg ≠ 0 then buf0.take (roundUp intg) else [0] := by
  unfold printedIntg
  split
  · next pos =>
    have count : roundUp intg = (buf0.take (roundUp intg)).reverse.length := by
      rw [List.length_reverse, length_take_roundUp len]
    have words : ∀ w ∈ (buf0.take (roundUp intg)).reverse, w < 10 ^ 9 :=
      fun w mem => lt w (List.mem_of_mem_take (List.mem_reverse.mp mem))
    have first : (buf0.take (roundUp intg)).reverse.getLastD 0 < 10 ^ ((intg - 1) % 9 + 1) := by
      rw [getLastD_reverse_take _ (by simp only [roundUp_def]; omega)]
      exact (top (by omega)).2
    rw [intWordsLoop_intDigitChars [] (by omega) count words first, List.reverse_reverse,
      List.append_nil]
  · decide

end Printed

/-! ## The round trip -/

/-- `-?digits(.digits)?` with `frac` digits after the point. -/
def IsDecimalText (sign : Bool) (frac : Nat) (text : List UInt8) : Prop :=
  ∃ ip fp, text = decimalText sign ip fp ∧ ip ≠ [] ∧ (∀ c ∈ ip ++ fp, latin1IsDigit c = true) ∧
    fp.length = frac

theorem length_decimalText (sign : Bool) (ip fp : List UInt8) :
    (decimalText sign ip fp).length =
      (if sign then 1 else 0) + ip.length + (if fp = [] then 0 else 1) + fp.length := by
  unfold decimalText
  split <;> split <;> simp_all <;> omega

theorem words_eq_buf {d : DecimalT} (h : d.buf.length = roundUp d.intg + roundUp d.frac) :
    d.words = d.buf :=
  List.take_of_length_le (Nat.le_of_eq h)

/-! ## What a well-formed decimal prints -/

/-- The fraction words `remove_leading_zeroes` leaves after the integer words. -/
def fracWordsLeft (d : DecimalT) : List Nat :=
  (removeLeadingZeroes d).1.drop (roundUp (removeLeadingZeroes d).2)

/-- The integer digits `decimal2string` prints for `d`. -/
def printedInt (d : DecimalT) : List UInt8 :=
  printedIntg (removeLeadingZeroes d).1 (removeLeadingZeroes d).2

/-- The fraction digits `decimal2string` prints for `d`. -/
def printedFrac (d : DecimalT) : List UInt8 := fracDigitChars d.frac (fracWordsLeft d)

theorem printedInt_digits (d : DecimalT) : ∀ c ∈ printedInt d, latin1IsDigit c = true := by
  intro c mem
  unfold printedInt printedIntg at mem
  split at mem
  · exact intDigitChars_digits _ _ c mem
  · rw [List.mem_singleton] at mem
    rw [mem]
    decide

section WellFormed

variable {d : DecimalT} (wf : d.WellFormed)
include wf

theorem length_removeLeadingZeroes :
    (removeLeadingZeroes d).1.length =
      roundUp (removeLeadingZeroes d).2 + roundUp d.frac := by
  obtain ⟨m, split, count, _, _⟩ := removeLeadingZeroes_spec wf
  have total := congrArg List.length split
  rw [List.length_append, List.length_replicate, wf.length_buf] at total
  omega

theorem roundUp_le_length_removeLeadingZeroes :
    roundUp (removeLeadingZeroes d).2 ≤ (removeLeadingZeroes d).1.length := by
  rw [length_removeLeadingZeroes wf]
  omega

theorem removeLeadingZeroes_lt : ∀ w ∈ (removeLeadingZeroes d).1, w < 10 ^ 9 := by
  obtain ⟨m, split, _, _, _⟩ := removeLeadingZeroes_spec wf
  exact fun w mem => word_lt_of_wellFormed wf w (split ▸ List.mem_append_right _ mem)

theorem length_fracWordsLeft : (fracWordsLeft d).length = roundUp d.frac := by
  rw [fracWordsLeft, List.length_drop, length_removeLeadingZeroes wf]
  omega

theorem length_printedInt : (printedInt d).length = max (removeLeadingZeroes d).2 1 :=
  length_printedIntg (roundUp_le_length_removeLeadingZeroes wf)

theorem length_printedFrac : (printedFrac d).length = d.frac :=
  length_fracDigitChars (length_fracWordsLeft wf).symm

theorem printedFrac_digits : ∀ c ∈ printedFrac d, latin1IsDigit c = true :=
  fracDigitChars_digits fun w mem => removeLeadingZeroes_lt wf w (List.mem_of_mem_drop mem)

/-- With room for its text, `decimal2string` prints `d` as its sign, integer
digits and fraction digits, and the length of that text. -/
theorem decimal2string_eq_decimalText {toLen : Nat} (room : decimalStringSize d ≤ toLen) :
    decimal2string d toLen 0 0 0 =
      (decimalText d.sign (printedInt d) (printedFrac d),
        (decimalText d.sign (printedInt d) (printedFrac d)).length, .ok) := by
  obtain ⟨_, _, _, le, _⟩ := removeLeadingZeroes_spec wf
  have empty : printedFrac d = [] ↔ d.frac = 0 := by
    rw [← List.length_eq_zero_iff, length_printedFrac wf]
  have fitsText : (if d.sign then 1 else 0) + max (removeLeadingZeroes d).2 1 +
      (if d.frac ≠ 0 then 1 else 0) + d.frac < toLen := by
    have sign : (if d.sign then 1 else 0) ≤ 1 := by split <;> omega
    have dot : (if d.frac ≠ 0 then 1 else 0) = (if 0 < d.frac then 1 else 0) := by
      split <;> split <;> omega
    have places : max (removeLeadingZeroes d).2 1 ≤ (if d.intg ≠ 0 then d.intg else 1) := by
      split <;> omega
    unfold decimalStringSize at room
    omega
  have point : (if d.frac ≠ 0 then '.'.toUInt8 :: printedFrac d else []) =
      (if printedFrac d = [] then [] else '.'.toUInt8 :: printedFrac d) := by
    by_cases whole : d.frac = 0 <;> simp [whole, empty]
  have dot : (if d.frac ≠ 0 then 1 else 0) = (if printedFrac d = [] then 0 else 1) := by
    by_cases whole : d.frac = 0 <;> simp [whole, empty]
  rw [decimal2string_of_room fitsText, ← printedInt, ← fracWordsLeft, ← printedFrac, point, dot,
    length_decimalText, length_printedInt wf, length_printedFrac wf]
  rfl

/-- The last fraction word left holds only `frac` digits, as the parser's last
word does. -/
theorem fracWordsLeft_last_dvd : 10 ^ (9 - ((d.frac - 1) % 9 + 1)) ∣ (fracWordsLeft d).getLastD 0 := by
  obtain ⟨m, split, _, _, _⟩ := removeLeadingZeroes_spec wf
  have count := length_fracWordsLeft wf
  by_cases whole : d.frac = 0
  · have none : fracWordsLeft d = [] := List.eq_nil_of_length_eq_zero (by rw [count, whole]; rfl)
    rw [none]
    exact dvd_zero _
  by_cases full : d.frac % 9 = 0
  · rw [show 9 - ((d.frac - 1) % 9 + 1) = 0 by omega, pow_zero]
    exact one_dvd _
  · have nonempty : fracWordsLeft d ≠ [] := by
      intro h
      rw [h, List.length_nil] at count
      simp only [roundUp_def] at count
      omega
    -- the last word left is the last word of `d`
    have lastWord : (fracWordsLeft d).getLastD 0 = d.buf.getLastD 0 := by
      have whole : d.buf = (List.replicate m 0 ++
          (removeLeadingZeroes d).1.take (roundUp (removeLeadingZeroes d).2)) ++ fracWordsLeft d := by
        rw [split, fracWordsLeft, List.append_assoc, List.take_append_drop]
      rw [whole, getLastD_append_of_ne_nil _ nonempty]
    rw [lastWord, show (d.frac - 1) % 9 + 1 = d.frac % 9 by omega]
    exact wf.last_dvd (by omega)

/-- The words read back from the printed digits: those `remove_leading_zeroes`
left, or one zero word for the lone `0` before the fraction words. -/
theorem readDecimal_buf (toDec : DecimalT) :
    (readDecimal toDec d.sign (printedInt d) (printedFrac d)).buf =
      (if (removeLeadingZeroes d).2 ≠ 0 then
        (removeLeadingZeroes d).1.take (roundUp (removeLeadingZeroes d).2) else [0]) ++
        fracWordsLeft d := by
  obtain ⟨_, _, _, _, top⟩ := removeLeadingZeroes_spec wf
  have len := roundUp_le_length_removeLeadingZeroes wf
  have fracRead : fracWordsLoop (printedFrac d) 0 0 = fracWordsLeft d :=
    fracWordsLoop_fracDigitChars (length_fracWordsLeft wf).symm
      (fun w mem => removeLeadingZeroes_lt wf w (List.mem_of_mem_drop mem)) (fracWordsLeft_last_dvd wf)
  rw [readDecimal, str2decWords, List.take_of_length_le (by rw [List.length_reverse]),
    List.take_of_length_le le_rfl, printedInt, intWordsLoop_printedIntg len (removeLeadingZeroes_lt wf) top,
    ← printedInt, fracRead]

/-- The words read back have the value of the words of `d`: only zero words
were dropped, in front. -/
theorem wordsValue_readDecimal (toDec : DecimalT) :
    wordsValue (readDecimal toDec d.sign (printedInt d) (printedFrac d)).words =
      wordsValue d.words := by
  obtain ⟨m, split, _, _, _⟩ := removeLeadingZeroes_spec wf
  have len := roundUp_le_length_removeLeadingZeroes wf
  have readLength : (readDecimal toDec d.sign (printedInt d) (printedFrac d)).buf.length =
      roundUp (readDecimal toDec d.sign (printedInt d) (printedFrac d)).intg +
        roundUp (readDecimal toDec d.sign (printedInt d) (printedFrac d)).frac := by
    rw [readDecimal_buf wf, List.length_append, length_fracWordsLeft wf]
    simp only [readDecimal, length_printedInt wf, length_printedFrac wf]
    split
    · rw [length_take_roundUp len, Nat.max_eq_left (by omega)]
    · simp only [roundUp_def, List.length_singleton]
      omega
  rw [words_eq_buf readLength, words_eq_buf wf.length_buf, readDecimal_buf wf, split,
    wordsValue_replicate_append]
  split
  · exact congrArg wordsValue (List.take_append_drop _ _)
  · next none =>
    -- no integer word left: the fraction words are all the words
    have whole : fracWordsLeft d = (removeLeadingZeroes d).1 := by
      rw [fracWordsLeft, show roundUp (removeLeadingZeroes d).2 = 0 by simp only [roundUp_def]; omega,
        List.drop_zero]
    rw [whole, wordsValue_append, wordsValue_singleton, Nat.zero_mul, Nat.zero_add]

/-- The printed text reads back into `toDec`, all of it and with no error. -/
theorem string2decimal_printed {toDec : DecimalT}
    (fits : roundUp (max d.intg 1) + roundUp d.frac ≤ toDec.len) :
    string2decimal (decimalText d.sign (printedInt d) (printedFrac d)) toDec =
      some ({ readDecimal toDec d.sign (printedInt d) (printedFrac d) with
          sign := d.sign && !decimalIsZero (readDecimal toDec d.sign (printedInt d) (printedFrac d)) },
        (decimalText d.sign (printedInt d) (printedFrac d)).length, .ok) := by
  obtain ⟨_, _, _, le, top⟩ := removeLeadingZeroes_spec wf
  have len := roundUp_le_length_removeLeadingZeroes wf
  have textRoom : roundUp (printedInt d).length + roundUp (printedFrac d).length ≤ toDec.len := by
    rw [length_printedInt wf, length_printedFrac wf]
    have : roundUp (max (removeLeadingZeroes d).2 1) ≤ roundUp (max d.intg 1) := by
      simp only [roundUp_def]
      omega
    omega
  exact string2decimal_decimalText d.sign toDec (printedInt_digits d) (printedFrac_digits wf)
    (printedIntg_ne_nil len) (printedIntg_untrimmed len top) textRoom

end WellFormed

/-- Decimal text round trip: a well-formed decimal that is not a negative zero,
printed by `decimal2string` into a buffer of `decimal_string_size` bytes,
gives `-?digits(.digits)?` with `frac` fraction digits, and `string2decimal`
reads all of that text back, with no error, as the same value, sign and
`frac`. -/
theorem decimal2string_string2decimal (d : DecimalT) (wf : d.WellFormed) (nz : d.NoNegativeZero)
    (toLen : Nat) (room : decimalStringSize d ≤ toLen) (toDec : DecimalT)
    (fits : roundUp (max d.intg 1) + roundUp d.frac ≤ toDec.len) :
    let r := decimal2string d toLen 0 0 0
    r.2.2 = .ok ∧ r.2.1 = r.1.length ∧ IsDecimalText d.sign d.frac r.1 ∧
      ∃ d', string2decimal r.1 toDec = some (d', r.1.length, .ok) ∧
        d'.value = d.value ∧ d'.sign = d.sign ∧ d'.frac = d.frac := by
  intro r
  obtain ⟨_, _, _, _, _⟩ := removeLeadingZeroes_spec wf
  have printed : r = (decimalText d.sign (printedInt d) (printedFrac d),
      (decimalText d.sign (printedInt d) (printedFrac d)).length, .ok) :=
    decimal2string_eq_decimalText wf room
  have sameValue := wordsValue_readDecimal wf toDec
  have sameZero : decimalIsZero (readDecimal toDec d.sign (printedInt d) (printedFrac d)) =
      decimalIsZero d := by
    rw [Bool.eq_iff_iff, decimalIsZero_iff, decimalIsZero_iff, sameValue]
  -- a negative `d` is not zero, so the sign survives the parser's zero check
  have sameSign : (d.sign && !decimalIsZero d) = d.sign := by
    cases signed : d.sign
    · rfl
    · rw [nz signed]
      rfl
  have isText : IsDecimalText d.sign d.frac (decimalText d.sign (printedInt d) (printedFrac d)) := by
    refine ⟨printedInt d, printedFrac d, rfl, ?_, ?_, length_printedFrac wf⟩
    · exact List.ne_nil_of_length_pos (by rw [length_printedInt wf]; omega)
    · intro c mem
      rcases List.mem_append.mp mem with mem | mem
      · exact printedInt_digits d c mem
      · exact printedFrac_digits wf c mem
  rw [printed]
  refine ⟨rfl, rfl, isText, _, string2decimal_printed wf fits, ?_, ?_, ?_⟩
  · simp only [DecimalT.value, sameZero, sameSign]
    rw [show DecimalT.words { readDecimal toDec d.sign (printedInt d) (printedFrac d) with
        sign := d.sign } = (readDecimal toDec d.sign (printedInt d) (printedFrac d)).words from rfl,
      sameValue]
    simp only [readDecimal, length_printedFrac wf]
  · simp only [sameZero, sameSign]
  · simp only [readDecimal, length_printedFrac wf]

/-- `-123456789012.500`, a partial integer word before a full one, printed into
`decimal_string_size` bytes and read back into a nine-word buffer. -/
theorem decimal2string_string2decimal_negative :
    let d : DecimalT := ⟨12, 3, 3, true, [123, 456789012, 500000000]⟩
    let toDec : DecimalT := ⟨0, 0, 9, false, []⟩
    let r := decimal2string d 18 0 0 0
    d.WellFormed ∧ d.NoNegativeZero ∧ decimalStringSize d ≤ 18 ∧
      roundUp (max d.intg 1) + roundUp d.frac ≤ toDec.len ∧
      r.2.2 = .ok ∧ r.2.1 = r.1.length ∧ IsDecimalText d.sign d.frac r.1 ∧
      ∃ d', string2decimal r.1 toDec = some (d', r.1.length, .ok) ∧
        d'.value = d.value ∧ d'.sign = d.sign ∧ d'.frac = d.frac := by
  intro d toDec r
  have wf : d.WellFormed := ⟨by decide, by decide, by decide, by decide, by decide⟩
  have nz : d.NoNegativeZero := by decide
  have room : decimalStringSize d ≤ 18 := by decide
  have fits : roundUp (max d.intg 1) + roundUp d.frac ≤ toDec.len := by decide
  exact ⟨wf, nz, room, fits, decimal2string_string2decimal d wf nz 18 room toDec fits⟩

end MariaDB.Decimal
