import MariaDB.Ctype.Simple
import MariaDB.Pattern.Wildcard

set_option autoImplicit false

/- LIKE matching of strings/ctype-simple.c (my_wildcmp_8bit) and
strings/ctype-bin.c (my_wildcmp_bin), whose bodies are one code with
`likeconv` the collation's sort order or the identity. The model keeps the
loops of the C: the literal loop, the `w_one` loop, and the `w_many` branch
that skips further wildcards, then searches the subject for the next literal
and recurses on the rest of the pattern. Pattern bytes are C `char`s,
compared with the `int` arguments; the byte that the `w_many` branch keeps in
`uchar cmp` is compared with `escape` unsigned. The value 0 means a match, 1
no match, and -1 no match from here or from any later start. -/
namespace MariaDB.Ctype

open Wildcard

/-- A byte read through `char` and promoted to `int`: `char` is signed on
x86-64 and unsigned on some other platforms. -/
def charValue (charIsSigned : Bool) (b : UInt8) : Int :=
  if charIsSigned then b.toInt8.toInt else b.toNat

/-- What my_wildcmp_8bit_impl and my_wildcmp_bin_impl read besides the two
strings: `likeconv`, the `int` arguments `escape`, `w_one` and `w_many`, the
global `my_string_stack_guard`, and the signedness of `char`. -/
structure WildcmpArgs where
  likeconv : UInt8 → UInt8
  escape : Int
  wOne : Int
  wMany : Int
  myStringStackGuard : Option (Nat → Bool)
  charIsSigned : Bool

/-- `my_string_stack_guard && my_string_stack_guard(recurse_level)`. -/
def WildcmpArgs.stackGuardTrips (a : WildcmpArgs) (recurseLevel : Nat) : Bool :=
  match a.myStringStackGuard with
  | none => false
  | some guard => guard recurseLevel

/-- The search loop of the `w_many` branch: the next byte of the subject
that `likeconv` maps to `cmp`, then the rest of the pattern matched by
`recurse` after it; a value of `recurse` at most 0 is returned. -/
def wildcmpSearch (likeconv : UInt8 → UInt8) (cmp : UInt8) (recurse : List UInt8 → Int) :
    List UInt8 → Int
  | [] => -1
  | c :: str =>
    if likeconv c ≠ cmp then wildcmpSearch likeconv cmp recurse str
    else
      let tmp := recurse str
      if tmp ≤ 0 then tmp else if str = [] then -1 else wildcmpSearch likeconv cmp recurse str

/-- One turn of the literal loop: the pattern byte `lit` against the next
byte of the subject, then `next` on the rest. -/
def wildcmpLiteral (likeconv : UInt8 → UInt8) (lit : UInt8) (str : List UInt8) (next : List UInt8 → Int) :
    Int :=
  match str with
  | [] => 1
  | c :: str => if likeconv lit ≠ likeconv c then 1 else next str

mutual

/-- my_wildcmp_8bit_impl from the head of its outer loop, `result` being its
variable `result` and the two lists what is left of the strings. A pattern
at its end returns whether the subject is too; a `w_one` takes one byte of
the subject, or returns `result` when there is none. -/
def wildcmpLoop (a : WildcmpArgs) (recurseLevel : Nat) (str : List UInt8) (result : Int) :
    List UInt8 → Int
  | [] => if str ≠ [] then 1 else 0
  | w :: wild =>
    if charValue a.charIsSigned w = a.wOne then
      match str with
      | [] => result
      | _ :: str => wildcmpLoop a recurseLevel str result wild
    else if charValue a.charIsSigned w = a.wMany then wildcmpMany a recurseLevel str wild
    else
      -- an escape before the last pattern byte makes the next byte a literal
      match decide (charValue a.charIsSigned w = a.escape), wild with
      | true, x :: wild => wildcmpLiteral a.likeconv x str (fun str => wildcmpLoop a recurseLevel str 1 wild)
      | _, wild => wildcmpLiteral a.likeconv w str (fun str => wildcmpLoop a recurseLevel str 1 wild)

/-- The `w_many` branch of my_wildcmp_8bit_impl after its `w_many` byte:
further `w_many` bytes skipped and each `w_one` taking a byte of the
subject, then the search for the literal that follows, whose escape is
recognised by `cmp == escape` with `cmp` a `uchar`. -/
def wildcmpMany (a : WildcmpArgs) (recurseLevel : Nat) (str : List UInt8) : List UInt8 → Int
  | [] => 0
  | w :: wild =>
    if charValue a.charIsSigned w = a.wMany then wildcmpMany a recurseLevel str wild
    else if charValue a.charIsSigned w = a.wOne then
      match str with
      | [] => -1
      | _ :: str => wildcmpMany a recurseLevel str wild
    else
      match str with
      | [] => -1
      | _ :: _ =>
        match decide ((w.toNat : Int) = a.escape), wild with
        | true, x :: wild =>
          wildcmpSearch a.likeconv (a.likeconv x) (fun str =>
            if a.stackGuardTrips (recurseLevel + 1) then 1
            else wildcmpLoop a (recurseLevel + 1) str (-1) wild) str
        | _, wild =>
          wildcmpSearch a.likeconv (a.likeconv w) (fun str =>
            if a.stackGuardTrips (recurseLevel + 1) then 1
            else wildcmpLoop a (recurseLevel + 1) str (-1) wild) str

end

-- The equations Lean derives for the two loops split on the subject and on
-- the byte after an escape; these state each loop at a pattern byte whole.
theorem wildcmpLoop_cons (a : WildcmpArgs) (recurseLevel : Nat) (str : List UInt8) (result : Int)
    (w : UInt8) (wild : List UInt8) :
    wildcmpLoop a recurseLevel str result (w :: wild) =
      if charValue a.charIsSigned w = a.wOne then
        match str with
        | [] => result
        | _ :: str => wildcmpLoop a recurseLevel str result wild
      else if charValue a.charIsSigned w = a.wMany then wildcmpMany a recurseLevel str wild
      else
        match decide (charValue a.charIsSigned w = a.escape), wild with
        | true, x :: wild => wildcmpLiteral a.likeconv x str (fun str => wildcmpLoop a recurseLevel str 1 wild)
        | _, wild => wildcmpLiteral a.likeconv w str (fun str => wildcmpLoop a recurseLevel str 1 wild) := by
  rw [wildcmpLoop.eq_def]

theorem wildcmpMany_cons (a : WildcmpArgs) (recurseLevel : Nat) (str : List UInt8) (w : UInt8)
    (wild : List UInt8) :
    wildcmpMany a recurseLevel str (w :: wild) =
      if charValue a.charIsSigned w = a.wMany then wildcmpMany a recurseLevel str wild
      else if charValue a.charIsSigned w = a.wOne then
        match str with
        | [] => -1
        | _ :: str => wildcmpMany a recurseLevel str wild
      else
        match str with
        | [] => -1
        | _ :: _ =>
          match decide ((w.toNat : Int) = a.escape), wild with
          | true, x :: wild =>
            wildcmpSearch a.likeconv (a.likeconv x) (fun str =>
              if a.stackGuardTrips (recurseLevel + 1) then 1
              else wildcmpLoop a (recurseLevel + 1) str (-1) wild) str
          | _, wild =>
            wildcmpSearch a.likeconv (a.likeconv w) (fun str =>
              if a.stackGuardTrips (recurseLevel + 1) then 1
              else wildcmpLoop a (recurseLevel + 1) str (-1) wild) str := by
  rw [wildcmpMany.eq_def]

/-- The body of my_wildcmp_8bit_impl and my_wildcmp_bin_impl. -/
def wildcmpImpl (a : WildcmpArgs) (str wildstr : List UInt8) (recurseLevel : Nat) : Int :=
  if a.stackGuardTrips recurseLevel then 1 else wildcmpLoop a recurseLevel str (-1) wildstr

/-- `my_wildcmp_8bit_impl`: `likeconv` reads the collation's `sort_order`. -/
def myWildcmp8bitImpl (cs : SimpleCollation) (myStringStackGuard : Option (Nat → Bool)) (charIsSigned : Bool)
    (str wildstr : List UInt8) (escape wOne wMany : Int) (recurseLevel : Nat) : Int :=
  wildcmpImpl ⟨cs.sortOrder, escape, wOne, wMany, myStringStackGuard, charIsSigned⟩ str wildstr recurseLevel

/-- `my_wildcmp_8bit`. -/
def myWildcmp8bit (cs : SimpleCollation) (myStringStackGuard : Option (Nat → Bool)) (charIsSigned : Bool)
    (str wildstr : List UInt8) (escape wOne wMany : Int) : Int :=
  myWildcmp8bitImpl cs myStringStackGuard charIsSigned str wildstr escape wOne wMany 1

/-- `my_wildcmp_bin_impl`: `likeconv` is the identity. -/
def myWildcmpBinImpl (myStringStackGuard : Option (Nat → Bool)) (charIsSigned : Bool)
    (str wildstr : List UInt8) (escape wOne wMany : Int) (recurseLevel : Nat) : Int :=
  wildcmpImpl ⟨id, escape, wOne, wMany, myStringStackGuard, charIsSigned⟩ str wildstr recurseLevel

/-- `my_wildcmp_bin`. -/
def myWildcmpBin (myStringStackGuard : Option (Nat → Bool)) (charIsSigned : Bool)
    (str wildstr : List UInt8) (escape wOne wMany : Int) : Int :=
  myWildcmpBinImpl myStringStackGuard charIsSigned str wildstr escape wOne wMany 1

example : myWildcmpBin none true [0x61, 0x62, 0x63] [0x25, 0x63] 0x5C 0x5F 0x25 = 0 := by decide

/-! ## The outcome of a match -/

/-- What a value of my_wildcmp_8bit_impl says of the subject `s` and the
pattern `p`: 0 that `s` matches, 1 that it does not, -1 that no suffix of it
does. When the stack guard may trip (`exact` false) only a 0 is sure. -/
structure Outcome (exact : Prop) (key : UInt8 → UInt8) (r : Int) (p : List (Token UInt8))
    (s : List UInt8) : Prop where
  range : r = -1 ∨ r = 0 ∨ r = 1
  accepts_of_eq_zero : r = 0 → accepts key p s = true
  rejects_of_eq_one : exact → r = 1 → accepts key p s = false
  noSuffix_of_eq_neg_one : exact → r = -1 → NoSuffix key p s

section Outcome

variable {exact : Prop} {key : UInt8 → UInt8} {r : Int} {p q : List (Token UInt8)} {s : List UInt8}
  {c x : UInt8}

theorem Outcome.zero (h : accepts key p s = true) : Outcome exact key 0 p s :=
  ⟨by omega, fun _ => h, fun _ h1 => by omega, fun _ h1 => by omega⟩

theorem Outcome.one (h : exact → accepts key p s = false) : Outcome exact key 1 p s :=
  ⟨by omega, fun h0 => by omega, fun he _ => h he, fun _ h1 => by omega⟩

theorem Outcome.neg_one (h : exact → NoSuffix key p s) : Outcome exact key (-1) p s :=
  ⟨by omega, fun h0 => by omega, fun _ h1 => by omega, fun he _ => h he⟩

/-- The end of the pattern: a match exactly when the subject is at its end too. -/
theorem Outcome.final : Outcome exact key (if s ≠ [] then 1 else 0) [] s := by
  split_ifs with hs
  · exact Outcome.one fun _ => by simpa using hs
  · exact Outcome.zero (by simpa using hs)

/-- `result` returned at the end of the subject, for a pattern that needs more. -/
theorem Outcome.result_nil (hr : r = -1 ∨ r = 1) (h : accepts key p [] = false) : Outcome exact key r p [] := by
  rcases hr with rfl | rfl
  · exact Outcome.neg_one fun _ => noSuffix_nil.mpr h
  · exact Outcome.one fun _ => h

/-- Two patterns that accept the same subjects have the same outcomes. -/
theorem Outcome.congr {P : List (Token UInt8)} (h : ∀ t, accepts key P t = accepts key q t)
    (ho : Outcome exact key r q s) : Outcome exact key r P s := by
  have hsuffix : NoSuffix key q s → NoSuffix key P s := fun hq j => (h _).trans (hq j)
  exact ⟨ho.range, fun h0 => (h s).trans (ho.accepts_of_eq_zero h0),
    fun he h1 => (h s).trans (ho.rejects_of_eq_one he h1), fun he h1 => hsuffix (ho.noSuffix_of_eq_neg_one he h1)⟩

/-- A pattern `P` that takes the first byte `c` of the subject and leaves `q`. -/
theorem Outcome.cons {P : List (Token UInt8)} (hnil : accepts key P [] = false)
    (hstep : ∀ d u, accepts key P (d :: u) = true → accepts key q u = true)
    (hc : accepts key P (c :: s) = accepts key q s) (ho : Outcome exact key r q s) :
    Outcome exact key r P (c :: s) :=
  ⟨ho.range, fun h0 => hc.trans (ho.accepts_of_eq_zero h0),
    fun he h1 => hc.trans (ho.rejects_of_eq_one he h1),
    fun he h1 => (ho.noSuffix_of_eq_neg_one he h1).cons_of_step hnil hstep⟩

/-- A run wildcard over one more byte `c`, at which the rest `q` does not start. -/
theorem Outcome.many_cons (hc : exact → accepts key q (c :: s) = false) (ho : Outcome exact key r (.many :: q) s) :
    Outcome exact key r (.many :: q) (c :: s) := by
  refine ⟨ho.range, fun h0 => ?_, fun he h1 => ?_, fun he h1 => ?_⟩
  · rw [accepts_many_cons, ho.accepts_of_eq_zero h0, Bool.or_true]
  · rw [accepts_many_cons, hc he, ho.rejects_of_eq_one he h1, Bool.or_false]
  · have hs := noSuffix_iff_many.mp (noSuffix_many.mp (ho.noSuffix_of_eq_neg_one he h1))
    rw [noSuffix_many, noSuffix_iff_many, accepts_many_cons, hc he, hs, Bool.or_false]

/-- With an exact outcome, 0 is returned exactly for a match. -/
theorem Outcome.eq_zero_iff (ho : Outcome exact key r p s) (he : exact) : r = 0 ↔ accepts key p s = true := by
  constructor
  · exact ho.accepts_of_eq_zero
  · intro h
    rcases ho.range with h1 | h0 | h1
    · have hno := ho.noSuffix_of_eq_neg_one he h1 0
      rw [List.drop_zero, h] at hno
      exact absurd hno (by decide)
    · exact h0
    · rw [ho.rejects_of_eq_one he h1] at h
      exact absurd h Bool.false_ne_true

end Outcome

section Loops

variable {exact : Prop} {key : UInt8 → UInt8} {q : List (Token UInt8)} {x : UInt8}

/-- One turn of the literal loop against the literal `x`. -/
theorem wildcmpLiteral_outcome {k : List UInt8 → Int} (hk : ∀ t, Outcome exact key (k t) q t) (s : List UInt8) :
    Outcome exact key (wildcmpLiteral key x s k) (.lit x :: q) s := by
  cases s with
  | nil => exact Outcome.one fun _ => accepts_lit_nil
  | cons c s =>
    rw [wildcmpLiteral]
    by_cases hc : key x = key c
    · rw [if_neg (not_not.mpr hc)]
      apply Outcome.cons accepts_lit_nil _ _ (hk s)
      · intro d u h
        simp only [accepts_lit_cons, Bool.and_eq_true] at h
        exact h.2
      · rw [accepts_lit_cons, hc, beq_self_eq_true, Bool.true_and]
    · rw [if_pos hc]
      exact Outcome.one fun _ => by simp [Ne.symm hc]

/-- The search loop of the `w_many` branch for the literal `x`, with `k` the
recursive call on the rest `q` of the pattern. -/
theorem wildcmpSearch_outcome {k : List UInt8 → Int} (hk : ∀ t, Outcome exact key (k t) q t) (s : List UInt8) :
    Outcome exact key (wildcmpSearch key (key x) k s) (.many :: .lit x :: q) s := by
  induction s with
  | nil => exact Outcome.neg_one fun _ => noSuffix_nil.mpr rfl
  | cons c s ih =>
    rw [wildcmpSearch]
    by_cases hc : key c = key x
    · have hks := hk s
      rw [if_neg (not_not.mpr hc)]
      dsimp only
      by_cases htmp : k s ≤ 0
      · -- the rest matched after `c`, or nothing can match after it
        rw [if_pos htmp]
        rcases hks.range with h1 | h0 | h1
        · rw [h1]
          refine Outcome.neg_one fun he => noSuffix_many.mpr ?_
          apply NoSuffix.cons_of_step accepts_lit_nil _ (hks.noSuffix_of_eq_neg_one he h1)
          intro d u h
          simp only [accepts_lit_cons, Bool.and_eq_true] at h
          exact h.2
        · rw [h0]
          refine Outcome.zero ?_
          rw [accepts_many_cons, accepts_lit_cons, hc, beq_self_eq_true, hks.accepts_of_eq_zero h0]
          rfl
        · omega
      · -- the rest did not match after `c`: search on
        rw [if_neg htmp]
        have hrest : exact → accepts key (.lit x :: q) (c :: s) = false := fun he => by
          rw [accepts_lit_cons, hks.rejects_of_eq_one he (by rcases hks.range with h | h | h <;> omega),
            Bool.and_false]
        split_ifs with hs
        · subst hs
          exact Outcome.many_cons hrest (Outcome.neg_one fun _ => noSuffix_nil.mpr rfl)
        · exact Outcome.many_cons hrest ih
    · rw [if_pos hc]
      exact Outcome.many_cons (fun _ => by simp [hc]) ih

end Loops

/-! ## The matcher against the pattern's meaning -/

theorem toInt_toInt8 (b : UInt8) :
    b.toInt8.toInt = if b.toNat < 128 then (b.toNat : Int) else b.toNat - 256 := by
  rw [Int8.toInt, UInt8.toBitVec_toInt8, BitVec.toInt_eq_toNat_cond, UInt8.toNat_toBitVec]
  have := b.toNat_lt
  split_ifs <;> omega

theorem charValue_inj {charIsSigned : Bool} {b c : UInt8} :
    charValue charIsSigned b = charValue charIsSigned c ↔ b = c := by
  have hb := b.toNat_lt
  have hc := c.toNat_lt
  rw [← UInt8.toNat_inj]
  cases charIsSigned with
  | false =>
    simp only [charValue, Bool.false_eq_true, ↓reduceIte, Int.natCast_inj]
  | true =>
    simp only [charValue, ↓reduceIte, toInt_toInt8]
    split_ifs <;> omega

/-- The stack guard cannot trip. -/
def WildcmpArgs.Exact (a : WildcmpArgs) : Prop := a.myStringStackGuard = none

/-- The caller passes three different bytes `e`, `o` and `m` as `char`s for
the escape and the two wildcards, and the escape reads the same as an
unsigned byte (`char` is unsigned, or `e` is below 128). -/
structure WildcmpArgs.Reads (a : WildcmpArgs) (e o m : UInt8) : Prop where
  escape_eq : a.escape = charValue a.charIsSigned e
  wOne_eq : a.wOne = charValue a.charIsSigned o
  wMany_eq : a.wMany = charValue a.charIsSigned m
  escape_ne_wOne : e ≠ o
  escape_ne_wMany : e ≠ m
  wOne_ne_wMany : o ≠ m
  escape_unsigned : (e.toNat : Int) = charValue a.charIsSigned e

section Reads

variable {a : WildcmpArgs} {e o m : UInt8}

theorem WildcmpArgs.Reads.char_eq_wOne (ha : a.Reads e o m) (w : UInt8) :
    charValue a.charIsSigned w = a.wOne ↔ w = o := by
  rw [ha.wOne_eq, charValue_inj]

theorem WildcmpArgs.Reads.char_eq_wMany (ha : a.Reads e o m) (w : UInt8) :
    charValue a.charIsSigned w = a.wMany ↔ w = m := by
  rw [ha.wMany_eq, charValue_inj]

theorem WildcmpArgs.Reads.char_eq_escape (ha : a.Reads e o m) (w : UInt8) :
    charValue a.charIsSigned w = a.escape ↔ w = e := by
  rw [ha.escape_eq, charValue_inj]

theorem WildcmpArgs.Reads.toNat_eq_escape (ha : a.Reads e o m) (w : UInt8) :
    (w.toNat : Int) = a.escape ↔ w = e := by
  rw [ha.escape_eq, ← ha.escape_unsigned, Int.natCast_inj, UInt8.toNat_inj]

end Reads

variable (a : WildcmpArgs) (e o m : UInt8)

/-- The outcome of the outer loop of my_wildcmp_8bit_impl from the pattern `wild`. -/
def LoopOutcome (wild : List UInt8) : Prop :=
  ∀ recurseLevel str result, (result = -1 ∨ result = 1) →
    Outcome a.Exact a.likeconv (wildcmpLoop a recurseLevel str result wild) (tokenize e o m wild) str

/-- The outcome of the `w_many` branch from the pattern `wild` after its `w_many`. -/
def ManyOutcome (wild : List UInt8) : Prop :=
  ∀ recurseLevel str, Outcome a.Exact a.likeconv (wildcmpMany a recurseLevel str wild) (.many :: tokenize e o m wild) str

variable {a e o m}

/-- A recursive call, which the stack guard may cut short. -/
theorem frame_outcome {wild : List UInt8} (h : LoopOutcome a e o m wild) (recurseLevel : Nat) (t : List UInt8) :
    Outcome a.Exact a.likeconv (if a.stackGuardTrips recurseLevel then 1 else wildcmpLoop a recurseLevel t (-1) wild)
      (tokenize e o m wild) t := by
  split_ifs with htrip
  · refine Outcome.one fun hexact => ?_
    rw [WildcmpArgs.Exact] at hexact
    simp [WildcmpArgs.stackGuardTrips, hexact] at htrip
  · exact h recurseLevel t (-1) (Or.inl rfl)

theorem outcome_nil : LoopOutcome a e o m [] ∧ ManyOutcome a e o m [] := by
  constructor
  · intro recurseLevel str result _
    exact Outcome.final
  · intro recurseLevel str
    exact Outcome.zero (accepts_many_iff.mpr ⟨str.length, by simp⟩)

/-- The outer loop at a pattern byte `w`, from the outcomes of the rest. -/
theorem loopOutcome_cons (ha : a.Reads e o m) {wild : List UInt8} (hwild : LoopOutcome a e o m wild)
    (hmany : ManyOutcome a e o m wild) (htail : ∀ x rest, wild = x :: rest → LoopOutcome a e o m rest)
    (w : UInt8) : LoopOutcome a e o m (w :: wild) := by
  intro recurseLevel str result hr
  by_cases hwo : w = o
  · -- `w_one`: one byte of the subject
    subst hwo
    rw [wildcmpLoop_cons, if_pos ((ha.char_eq_wOne w).mpr rfl), tokenize_one]
    cases str with
    | nil => exact Outcome.result_nil hr accepts_one_nil
    | cons c s =>
      exact Outcome.cons accepts_one_nil (fun _ _ h => h) accepts_one_cons (hwild recurseLevel s result hr)
  by_cases hwm : w = m
  · -- `w_many`
    subst hwm
    rw [wildcmpLoop_cons, if_neg (by rw [ha.char_eq_wOne]; exact hwo), if_pos ((ha.char_eq_wMany w).mpr rfl),
      tokenize_many (Ne.symm ha.wOne_ne_wMany)]
    exact hmany recurseLevel str
  -- a literal, escaped or not
  rw [wildcmpLoop_cons, if_neg (by rw [ha.char_eq_wOne]; exact hwo), if_neg (by rw [ha.char_eq_wMany]; exact hwm)]
  by_cases hwe : w = e
  · subst hwe
    rw [decide_eq_true ((ha.char_eq_escape w).mpr rfl)]
    cases wild with
    | nil =>
      rw [tokenize_escape_nil ha.escape_ne_wOne ha.escape_ne_wMany]
      exact wildcmpLiteral_outcome (fun t => hwild recurseLevel t 1 (Or.inr rfl)) str
    | cons x rest =>
      rw [tokenize_escape_cons ha.escape_ne_wOne ha.escape_ne_wMany]
      exact wildcmpLiteral_outcome (fun t => htail x rest rfl recurseLevel t 1 (Or.inr rfl)) str
  · rw [decide_eq_false (by rw [ha.char_eq_escape]; exact hwe), tokenize_lit hwo hwm hwe]
    exact wildcmpLiteral_outcome (fun t => hwild recurseLevel t 1 (Or.inr rfl)) str

/-- The `w_many` branch at a pattern byte `w`, from the outcomes of the rest. -/
theorem manyOutcome_cons (ha : a.Reads e o m) {wild : List UInt8} (hwild : LoopOutcome a e o m wild)
    (hmany : ManyOutcome a e o m wild) (htail : ∀ x rest, wild = x :: rest → LoopOutcome a e o m rest)
    (w : UInt8) : ManyOutcome a e o m (w :: wild) := by
  intro recurseLevel str
  rw [wildcmpMany_cons]
  by_cases hwm : w = m
  · -- another `w_many`
    subst hwm
    rw [if_pos ((ha.char_eq_wMany w).mpr rfl), tokenize_many (Ne.symm ha.wOne_ne_wMany)]
    exact Outcome.congr (fun _ => accepts_many_many) (hmany recurseLevel str)
  rw [if_neg (by rw [ha.char_eq_wMany]; exact hwm)]
  by_cases hwo : w = o
  · -- a `w_one` takes a byte of the subject
    subst hwo
    rw [if_pos ((ha.char_eq_wOne w).mpr rfl), tokenize_one]
    cases str with
    | nil => exact Outcome.neg_one fun _ => noSuffix_nil.mpr accepts_many_one_nil
    | cons c s =>
      apply Outcome.cons accepts_many_one_nil _ accepts_many_one_cons (hmany recurseLevel s)
      intro d u h
      rwa [accepts_many_one_cons] at h
  rw [if_neg (by rw [ha.char_eq_wOne]; exact hwo)]
  cases str with
  | nil =>
    refine Outcome.neg_one fun _ => noSuffix_nil.mpr ?_
    rw [accepts_many_nil, accepts_tokenize_cons_nil hwo hwm]
  | cons c s =>
    -- the literal to search for, escaped or not
    have hframe := fun {rest : List UInt8} (h : LoopOutcome a e o m rest) => frame_outcome h (recurseLevel + 1)
    by_cases hwe : w = e
    · subst hwe
      rw [decide_eq_true ((ha.toNat_eq_escape w).mpr rfl)]
      cases wild with
      | nil =>
        rw [tokenize_escape_nil ha.escape_ne_wOne ha.escape_ne_wMany]
        exact wildcmpSearch_outcome (hframe hwild) (c :: s)
      | cons x rest =>
        rw [tokenize_escape_cons ha.escape_ne_wOne ha.escape_ne_wMany]
        exact wildcmpSearch_outcome (hframe (htail x rest rfl)) (c :: s)
    · rw [decide_eq_false (by rw [ha.toNat_eq_escape]; exact hwe), tokenize_lit hwo hwm hwe]
      exact wildcmpSearch_outcome (hframe hwild) (c :: s)

/-- The outcome from every pattern, by induction on its length. -/
theorem outcome_of_length (ha : a.Reads e o m) (n : Nat) :
    ∀ wild : List UInt8, wild.length ≤ n → LoopOutcome a e o m wild ∧ ManyOutcome a e o m wild := by
  induction n with
  | zero =>
    intro wild hlen
    have hnil : wild = [] := List.length_eq_zero_iff.mp (by omega)
    rw [hnil]
    exact outcome_nil
  | succ n ih =>
    intro wild hlen
    cases wild with
    | nil => exact outcome_nil
    | cons w wild =>
      have hlen' : wild.length ≤ n := by
        rw [List.length_cons] at hlen
        omega
      have hrest := ih wild hlen'
      have htail : ∀ x rest, wild = x :: rest → LoopOutcome a e o m rest := by
        rintro x rest rfl
        exact (ih rest (by rw [List.length_cons] at hlen'; omega)).1
      exact ⟨loopOutcome_cons ha hrest.1 hrest.2 htail w, manyOutcome_cons ha hrest.1 hrest.2 htail w⟩

theorem wildcmpImpl_outcome (ha : a.Reads e o m) (str wildstr : List UInt8) (recurseLevel : Nat) :
    Outcome a.Exact a.likeconv (wildcmpImpl a str wildstr recurseLevel) (tokenize e o m wildstr) str := by
  rw [wildcmpImpl]
  exact frame_outcome (outcome_of_length ha wildstr.length wildstr le_rfl).1 recurseLevel str

/-- my_wildcmp_8bit_impl and my_wildcmp_bin_impl return 0 only for a match,
and exactly for one when the stack guard is unset. -/
theorem wildcmpImpl_eq_zero (ha : a.Reads e o m) (str wildstr : List UInt8) (recurseLevel : Nat) :
    (wildcmpImpl a str wildstr recurseLevel = 0 → accepts a.likeconv (tokenize e o m wildstr) str = true) ∧
      (a.myStringStackGuard = none →
        (wildcmpImpl a str wildstr recurseLevel = 0 ↔ accepts a.likeconv (tokenize e o m wildstr) str = true)) := by
  have ho := wildcmpImpl_outcome ha str wildstr recurseLevel
  exact ⟨ho.accepts_of_eq_zero, ho.eq_zero_iff⟩

/-- With the escape and wildcards passed as `char`s, three different bytes
and the escape reading the same unsigned, my_wildcmp_8bit returns 0 only for
a subject the pattern matches up to the collation, and exactly for those
when the stack guard is unset; and so does my_wildcmp_bin with bytes matched
by equality. -/
theorem myWildcmp_matches_of_escape_unsigned :
    (∀ (cs : SimpleCollation) (myStringStackGuard : Option (Nat → Bool)) (charIsSigned : Bool)
      (s p : List UInt8) (e o m : UInt8), e ≠ o → e ≠ m → o ≠ m → (e.toNat : Int) = charValue charIsSigned e →
      (myWildcmp8bit cs myStringStackGuard charIsSigned s p (charValue charIsSigned e) (charValue charIsSigned o)
          (charValue charIsSigned m) = 0 → accepts cs.sortOrder (tokenize e o m p) s = true) ∧
      (myStringStackGuard = none →
        (myWildcmp8bit cs myStringStackGuard charIsSigned s p (charValue charIsSigned e) (charValue charIsSigned o)
          (charValue charIsSigned m) = 0 ↔ accepts cs.sortOrder (tokenize e o m p) s = true))) ∧
    (∀ (myStringStackGuard : Option (Nat → Bool)) (charIsSigned : Bool) (s p : List UInt8) (e o m : UInt8),
      e ≠ o → e ≠ m → o ≠ m → (e.toNat : Int) = charValue charIsSigned e →
      (myWildcmpBin myStringStackGuard charIsSigned s p (charValue charIsSigned e) (charValue charIsSigned o)
          (charValue charIsSigned m) = 0 → accepts id (tokenize e o m p) s = true) ∧
      (myStringStackGuard = none →
        (myWildcmpBin myStringStackGuard charIsSigned s p (charValue charIsSigned e) (charValue charIsSigned o)
          (charValue charIsSigned m) = 0 ↔ accepts id (tokenize e o m p) s = true))) := by
  constructor
  · intro cs guard signed s p e o m heo hem hom hu
    exact wildcmpImpl_eq_zero
      (a := ⟨cs.sortOrder, charValue signed e, charValue signed o, charValue signed m, guard, signed⟩)
      ⟨rfl, rfl, rfl, heo, hem, hom, hu⟩ s p 1
  · intro guard signed s p e o m heo hem hom hu
    exact wildcmpImpl_eq_zero (a := ⟨id, charValue signed e, charValue signed o, charValue signed m, guard, signed⟩)
      ⟨rfl, rfl, rfl, heo, hem, hom, hu⟩ s p 1

theorem myWildcmp_matches_of_escape_unsigned_backslash :
    (0x5C : UInt8) ≠ 0x5F ∧ (0x5C : UInt8) ≠ 0x25 ∧ (0x5F : UInt8) ≠ 0x25 ∧
      ((0x5C : UInt8).toNat : Int) = charValue true 0x5C ∧
      (myWildcmpBin none true [0x61, 0x25] [0x25, 0x5C, 0x25] (charValue true 0x5C) (charValue true 0x5F)
          (charValue true 0x25) = 0 ↔ accepts id (tokenize 0x5C 0x5F 0x25 [0x25, 0x5C, 0x25]) [0x61, 0x25] = true) :=
  ⟨by decide, by decide, by decide, by decide,
    (myWildcmp_matches_of_escape_unsigned.2 none true [0x61, 0x25] [0x25, 0x5C, 0x25] 0x5C 0x5F 0x25
      (by decide) (by decide) (by decide) (by decide)).2 rfl⟩

/-- On a platform with signed `char`, an escape byte from 0x80 up is passed
as a negative `int`: the literal loop recognises it, but after a `w_many`
the byte is kept in `uchar cmp` and `cmp == escape` fails, so the escape is
searched for as a literal. `'a' LIKE '%\xC8a' ESCAPE '\xC8'` holds, yet both
matchers return -1, for every 8-bit collation. -/
theorem myWildcmp_escape_after_many_ignored (cs : SimpleCollation) :
    accepts cs.sortOrder (tokenize 0xC8 0x5F 0x25 [0x25, 0xC8, 0x61]) [0x61] = true ∧
      myWildcmp8bit cs none true [0x61] [0x25, 0xC8, 0x61] (charValue true 0xC8) (charValue true 0x5F)
        (charValue true 0x25) = -1 ∧
      accepts id (tokenize 0xC8 0x5F 0x25 [0x25, 0xC8, 0x61]) [0x61] = true ∧
      myWildcmpBin none true [0x61] [0x25, 0xC8, 0x61] (charValue true 0xC8) (charValue true 0x5F)
        (charValue true 0x25) = -1 := by
  have htokens : tokenize (0xC8 : UInt8) 0x5F 0x25 [0x25, 0xC8, 0x61] = [.many, .lit 0x61] := by decide
  refine ⟨?_, ?_, by decide, by decide⟩
  · rw [htokens, accepts_many_cons, accepts_lit_cons, beq_self_eq_true]
    rfl
  · -- `cmp` is the escape byte itself, which the subject has, or not, up to `cs`
    by_cases hc : cs.sortOrder 0x61 = cs.sortOrder 0xC8
    · simp [myWildcmp8bit, myWildcmp8bitImpl, wildcmpImpl, WildcmpArgs.stackGuardTrips, wildcmpLoop_cons,
        wildcmpMany_cons, charValue, wildcmpSearch, hc, wildcmpLiteral]
    · simp [myWildcmp8bit, myWildcmp8bitImpl, wildcmpImpl, WildcmpArgs.stackGuardTrips, wildcmpLoop_cons,
        wildcmpMany_cons, charValue, wildcmpSearch, hc]

end MariaDB.Ctype
