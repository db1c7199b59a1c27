import MariaDB.Decimal.Strtoll10Spec

set_option autoImplicit false

/- GTIDs of sql/rpl_gtid.cc and their text form: `rpl_slave_state_tostring_helper`
writes `domain-server-seq_no` in decimal, with a comma before every GTID but the
first, and `gtid_parse_string_to_list` reads such a list back with three calls
of `my_strtoll10` per GTID. The parser is shown to accept exactly the lists of
at most `2^28 - 1` GTIDs written with optional spaces and `+` before each
number, and to read back every list the printer writes. -/
namespace MariaDB.Rpl

open MariaDB.Decimal

/-- `struct rpl_gtid`. -/
structure RplGtid where
  domainId : UInt32
  serverId : UInt32
  seqNo : UInt64
  deriving DecidableEq, Repr

/-! ## Printing -/

/-- The digit loops of `longlong10_to_str`, least significant digit first,
with `fuel` the room left in its 65-byte buffer. -/
def longlong10Digits : Nat → Nat → List UInt8
  | 0, _ => []
  | fuel + 1, uval => if uval = 0 then [] else digitChar (uval % 10) :: longlong10Digits fuel (uval / 10)

/-- `longlong10_to_str(val, dst, 10)` for the unsigned `val`, as
`Binary_string::append_ulonglong` calls it: the characters before the
terminating zero. -/
def longlong10ToStr (uval : Nat) : List UInt8 :=
  if uval = 0 then ['0'.toUInt8] else (longlong10Digits 64 uval).reverse

/-- What `rpl_slave_state_tostring_helper` appends for one GTID after the
comma: `append_ulonglong` of the three fields with `-` between them. -/
def gtidItemText (gtid : RplGtid) : List UInt8 :=
  longlong10ToStr gtid.domainId.toNat ++ '-'.toUInt8 :: longlong10ToStr gtid.serverId.toNat ++
    '-'.toUInt8 :: longlong10ToStr gtid.seqNo.toNat

/-- `rpl_slave_state_tostring_helper(dest, gtid, first)`: the string and the
new `*first`; the `String` appends do not fail in the model. -/
def rplSlaveStateTostringHelper (dest : List UInt8) (gtid : RplGtid) (first : Bool) :
    List UInt8 × Bool :=
  let dest := if first then dest else dest ++ [','.toUInt8]
  (dest ++ gtidItemText gtid, false)

/-- The text of a list of GTIDs, written by `rpl_slave_state_tostring_helper`
one GTID after the other from `first = true`. -/
def gtidListText (gtids : List RplGtid) : List UInt8 :=
  (gtids.foldl (fun acc gtid => rplSlaveStateTostringHelper acc.1 gtid acc.2) ([], true)).1

/-! ## Parsing -/

/-- `(uint64)` of a `longlong`. -/
def toUint64 (v : Int) : Nat := (v % 2 ^ 64).toNat

/-- `gtid_parser_helper(&ptr, end, &gtid)` on the characters `p` from `*ptr`
to `end`: the GTID and the characters left after it, or `none` where it
returns 1. -/
def gtidParserHelper (p : List UInt8) : Option (RplGtid × List UInt8) :=
  let (r1, n1, err1) := myStrtoll10 p
  let v1 := toUint64 r1
  let q1 := p.drop n1
  if err1 ≠ 0 ∨ v1 > 0xffffffff ∨ q1 = [] ∨ q1.headD 0 ≠ '-'.toUInt8 then none
  else
    let p2 := q1.tail
    let (r2, n2, err2) := myStrtoll10 p2
    let v2 := toUint64 r2
    let q2 := p2.drop n2
    if err2 ≠ 0 ∨ v2 > 0xffffffff ∨ q2 = [] ∨ q2.headD 0 ≠ '-'.toUInt8 then none
    else
      let p3 := q2.tail
      let (r3, n3, err3) := myStrtoll10 p3
      if err3 ≠ 0 then none
      else some (⟨UInt32.ofNat v1, UInt32.ofNat v2, UInt64.ofNat (toUint64 r3)⟩, p3.drop n3)

/-- The loop of `gtid_parse_string_to_list` after `len` GTIDs in `list`, with
`p` the characters left; `fuel` bounds the iterations. -/
def gtidParseLoop : Nat → List UInt8 → List RplGtid → Option (List RplGtid)
  | 0, _, _ => none
  | fuel + 1, p, list =>
    if list.length ≥ 2 ^ 28 - 1 then none
    else
      match gtidParserHelper p with
      | none => none
      | some (gtid, p) =>
        let list := list ++ [gtid]
        match p with
        | [] => some list
        | c :: p => if c ≠ ','.toUInt8 then none else gtidParseLoop fuel p list

/-- `gtid_parse_string_to_list(str, str_len, &out_len)`: the list, whose
length is `*out_len`, or `none` for `NULL`. Each pass of the loop reads at
least one character, so the length of the string bounds the passes. -/
def gtidParseStringToList (str : List UInt8) : Option (List RplGtid) :=
  gtidParseLoop (str.length + 1) str []

/-! ## The printed numbers -/

theorem longlong10Digits_digits (fuel v : Nat) : ∀ c ∈ longlong10Digits fuel v, latin1IsDigit c = true := by
  induction fuel generalizing v with
  | zero => simp [longlong10Digits]
  | succ fuel ih =>
    intro c mem
    rw [longlong10Digits] at mem
    split_ifs at mem
    · simp at mem
    · rcases List.mem_cons.mp mem with rfl | mem
      · exact latin1IsDigit_digitChar (Nat.mod_lt _ (by omega))
      · exact ih (v / 10) c mem

theorem horner_longlong10Digits {fuel v : Nat} (room : v < 10 ^ fuel) :
    horner 0 (longlong10Digits fuel v).reverse = v := by
  induction fuel generalizing v with
  | zero => simp [longlong10Digits]; omega
  | succ fuel ih =>
    rw [longlong10Digits]
    split_ifs with zero
    · simp [zero]
    · rw [List.reverse_cons, horner_append, ih (by rw [pow_succ] at room; omega), horner_cons, horner_nil,
        digitValue_digitChar (Nat.mod_lt _ (by omega))]
      omega

theorem longlong10ToStr_ne_nil (v : Nat) : longlong10ToStr v ≠ [] := by
  unfold longlong10ToStr
  split_ifs with zero
  · simp
  · simp [longlong10Digits, zero]

theorem longlong10ToStr_digits (v : Nat) : ∀ c ∈ longlong10ToStr v, latin1IsDigit c = true := by
  unfold longlong10ToStr
  split_ifs
  · simp only [List.mem_singleton, forall_eq]
    exact zero_isDigit
  · intro c mem
    exact longlong10Digits_digits 64 v c (List.mem_reverse.mp mem)

theorem horner_longlong10ToStr {v : Nat} (fits : v < 2 ^ 64) : horner 0 (longlong10ToStr v) = v := by
  unfold longlong10ToStr
  split_ifs with zero
  · simp [zero]
    rfl
  · exact horner_longlong10Digits (lt_trans fits (by norm_num))

theorem toUint64_toLonglong {v : Nat} (fits : v < 2 ^ 64) : toUint64 (toLonglong v) = v := by
  unfold toUint64 toLonglong
  split_ifs <;> omega

/-! ## The accepted texts -/

/-- A number as `gtid_parser_helper` reads it: latin1 spaces, an optional
`+` and a run of digits of value `v`. -/
def GtidNumText (t : List UInt8) (v : Nat) : Prop :=
  ∃ W X D, t = W ++ X ++ D ∧ (∀ c ∈ W, latin1IsSpace c = true) ∧ (X = [] ∨ X = ['+'.toUInt8]) ∧
    D ≠ [] ∧ (∀ c ∈ D, latin1IsDigit c = true) ∧ horner 0 D = v

/-- A GTID as text: three numbers with `-` between them, of the values of
its fields. -/
def GtidText (t : List UInt8) (gtid : RplGtid) : Prop :=
  ∃ t1 t2 t3, t = t1 ++ '-'.toUInt8 :: t2 ++ '-'.toUInt8 :: t3 ∧ GtidNumText t1 gtid.domainId.toNat ∧
    GtidNumText t2 gtid.serverId.toNat ∧ GtidNumText t3 gtid.seqNo.toNat

/-- A list of GTIDs as text: one or more GTID texts separated by commas. -/
def GtidListText (s : List UInt8) (gtids : List RplGtid) : Prop :=
  ∃ gtid rest t ts, gtids = gtid :: rest ∧ s = t ++ ts.flatMap (','.toUInt8 :: ·) ∧ GtidText t gtid ∧
    List.Forall₂ GtidText ts rest

theorem myStrtoll10_numText {t R : List UInt8} {v : Nat} (ht : GtidNumText t v) (fits : v < 2 ^ 64)
    (stop : latin1IsDigit (R.headD 0) = false) : myStrtoll10 (t ++ R) = (toLonglong v, t.length, 0) := by
  obtain ⟨W, X, D, rfl, spaces, sign, ne, digits, rfl⟩ := ht
  rw [myStrtoll10_unsigned spaces sign ne digits stop fits]
  simp [Nat.add_assoc]

theorem numText_of_myStrtoll10 {p : List UInt8} {r : Int} {n : Nat} (h : myStrtoll10 p = (r, n, 0)) :
    ∃ t R, p = t ++ R ∧ GtidNumText t (toUint64 r) ∧ n = t.length ∧
      latin1IsDigit (R.headD 0) = false := by
  obtain ⟨W, X, D, R, rfl, spaces, sign, ne, digits, stop, fits⟩ := myStrtoll10_ok h
  rw [myStrtoll10_unsigned spaces sign ne digits stop fits] at h
  simp only [Prod.mk.injEq] at h
  obtain ⟨rfl, rfl, -⟩ := h
  refine ⟨W ++ X ++ D, R, rfl, ⟨W, X, D, rfl, spaces, sign, ne, digits, ?_⟩, by simp [Nat.add_assoc], stop⟩
  rw [toUint64_toLonglong fits]

theorem gtidNumText_longlong10ToStr {v : Nat} (fits : v < 2 ^ 64) : GtidNumText (longlong10ToStr v) v :=
  ⟨[], [], longlong10ToStr v, by simp, by simp, Or.inl rfl, longlong10ToStr_ne_nil v,
    longlong10ToStr_digits v, horner_longlong10ToStr fits⟩

theorem gtidText_gtidItemText (gtid : RplGtid) : GtidText (gtidItemText gtid) gtid :=
  ⟨_, _, _, by simp [gtidItemText], gtidNumText_longlong10ToStr (by have := gtid.domainId.toNat_lt; omega),
    gtidNumText_longlong10ToStr (by have := gtid.serverId.toNat_lt; omega),
    gtidNumText_longlong10ToStr gtid.seqNo.toNat_lt⟩

theorem minus_not_digit : latin1IsDigit '-'.toUInt8 = false := by decide

theorem comma_not_digit : latin1IsDigit ','.toUInt8 = false := by decide

/-! ## One GTID -/

theorem gtidParserHelper_of_text {t R : List UInt8} {gtid : RplGtid} (ht : GtidText t gtid)
    (stop : latin1IsDigit (R.headD 0) = false) : gtidParserHelper (t ++ R) = some (gtid, R) := by
  obtain ⟨t1, t2, t3, rfl, h1, h2, h3⟩ := ht
  have d32 := gtid.domainId.toNat_lt
  have s32 := gtid.serverId.toNat_lt
  have n64 := gtid.seqNo.toNat_lt
  have r1 := myStrtoll10_numText h1 (by omega) (R := '-'.toUInt8 :: (t2 ++ '-'.toUInt8 :: (t3 ++ R)))
    minus_not_digit
  have r2 := myStrtoll10_numText h2 (by omega) (R := '-'.toUInt8 :: (t3 ++ R)) minus_not_digit
  have r3 := myStrtoll10_numText h3 n64 stop
  unfold gtidParserHelper
  rw [show t1 ++ '-'.toUInt8 :: t2 ++ '-'.toUInt8 :: t3 ++ R =
      t1 ++ '-'.toUInt8 :: (t2 ++ '-'.toUInt8 :: (t3 ++ R)) by simp, r1]
  have small1 : ¬gtid.domainId.toNat > 4294967295 := by omega
  have small2 : ¬gtid.serverId.toNat > 4294967295 := by omega
  simp only [toUint64_toLonglong (show gtid.domainId.toNat < 2 ^ 64 by omega), List.drop_left, List.tail_cons,
    r2, toUint64_toLonglong (show gtid.serverId.toNat < 2 ^ 64 by omega), r3, toUint64_toLonglong n64,
    ne_eq, not_true_eq_false, small1, small2, reduceCtorEq, List.headD_cons, false_or, if_false,
    UInt32.ofNat_toNat, UInt64.ofNat_toNat]

theorem toUint64_lt (v : Int) : toUint64 v < 2 ^ 64 := by
  unfold toUint64
  omega

theorem eq_cons_of_headD {l : List UInt8} {c : UInt8} (ne : l ≠ []) (h : l.headD 0 = c) :
    l = c :: l.tail := by
  cases l with
  | nil => exact absurd rfl ne
  | cons d l => simp_all

theorem gtidParserHelper_some {p R : List UInt8} {gtid : RplGtid} (h : gtidParserHelper p = some (gtid, R)) :
    ∃ t, p = t ++ R ∧ GtidText t gtid ∧ latin1IsDigit (R.headD 0) = false := by
  unfold gtidParserHelper at h
  generalize h1 : myStrtoll10 p = res1 at h
  obtain ⟨r1, n1, e1⟩ := res1
  simp only at h
  split at h
  · cases h
  rename_i c1
  push Not at c1
  obtain ⟨rfl, small1, ne1, dash1⟩ := c1
  obtain ⟨t1, R1, rfl, num1, rfl, -⟩ := numText_of_myStrtoll10 h1
  rw [List.drop_left] at h dash1 ne1
  -- the second number, after the first `-`
  generalize h2 : myStrtoll10 R1.tail = res2 at h
  obtain ⟨r2, n2, e2⟩ := res2
  simp only at h
  split at h
  · cases h
  rename_i c2
  push Not at c2
  obtain ⟨rfl, small2, ne2, dash2⟩ := c2
  obtain ⟨t2, R2, split2, num2, rfl, -⟩ := numText_of_myStrtoll10 h2
  rw [split2, List.drop_left] at h dash2 ne2
  -- the third number, after the second `-`
  generalize h3 : myStrtoll10 R2.tail = res3 at h
  obtain ⟨r3, n3, e3⟩ := res3
  simp only at h
  split at h
  · cases h
  rename_i c3
  push Not at c3
  subst c3
  obtain ⟨t3, R3, split3, num3, rfl, stop⟩ := numText_of_myStrtoll10 h3
  rw [split3, List.drop_left, Option.some.injEq, Prod.mk.injEq] at h
  obtain ⟨rfl, rfl⟩ := h
  refine ⟨t1 ++ '-'.toUInt8 :: t2 ++ '-'.toUInt8 :: t3, ?_, ⟨t1, t2, t3, rfl, ?_, ?_, ?_⟩, stop⟩
  · rw [eq_cons_of_headD ne1 dash1, split2, eq_cons_of_headD ne2 dash2, split3]
    simp
  · rwa [UInt32.toNat_ofNat_of_lt' (by rw [UInt32.size]; omega)]
  · rwa [UInt32.toNat_ofNat_of_lt' (by rw [UInt32.size]; omega)]
  · rwa [UInt64.toNat_ofNat_of_lt' (toUint64_lt r3)]

/-! ## The list loop -/

/-- The loop over a list of GTID texts reads them all, unless the list would
pass `2^28 - 1` GTIDs. -/
theorem gtidParseLoop_of_text {fuel : Nat} {t : List UInt8} {ts : List (List UInt8)} {gtid : RplGtid}
    {rest acc : List RplGtid} (ht : GtidText t gtid) (hts : List.Forall₂ GtidText ts rest)
    (enough : ts.length < fuel) :
    gtidParseLoop fuel (t ++ ts.flatMap (','.toUInt8 :: ·)) acc =
      if acc.length + rest.length < 2 ^ 28 - 1 then some (acc ++ gtid :: rest) else none := by
  induction hts generalizing t gtid acc fuel with
  | nil =>
    obtain ⟨fuel, rfl⟩ : ∃ f, fuel = f + 1 := ⟨fuel - 1, by simp at enough; omega⟩
    rw [List.flatMap_nil, gtidParseLoop]
    by_cases full : acc.length ≥ 2 ^ 28 - 1
    · rw [if_pos full, if_neg (by simp; omega)]
    · rw [if_neg full, gtidParserHelper_of_text ht rfl, if_pos (by simp; omega)]
  | @cons t' g' ts rest' ht' hts' ih =>
    obtain ⟨fuel, rfl⟩ : ∃ f, fuel = f + 1 := ⟨fuel - 1, by simp at enough; omega⟩
    rw [gtidParseLoop, List.flatMap_cons]
    by_cases full : acc.length ≥ 2 ^ 28 - 1
    · rw [if_pos full, if_neg (by simp; omega)]
    rw [if_neg full, gtidParserHelper_of_text (R := ','.toUInt8 :: t' ++ ts.flatMap (','.toUInt8 :: ·))
      ht comma_not_digit]
    simp only [List.cons_append, ne_eq, not_true_eq_false, if_false]
    rw [ih ht' (by simp at enough; omega)]
    have count : (acc ++ [gtid]).length + rest'.length = acc.length + (g' :: rest').length := by
      simp only [List.length_append, List.length_cons, List.length_nil]
      omega
    rw [count, List.append_assoc, List.singleton_append]

/-- What the loop returns: the GTIDs of a list of GTID texts, at most
`2^28 - 1` of them. -/
theorem gtidParseLoop_some {fuel : Nat} {p : List UInt8} {acc result : List RplGtid}
    (h : gtidParseLoop fuel p acc = some result) :
    ∃ gtid rest t ts, result = acc ++ gtid :: rest ∧ p = t ++ ts.flatMap (','.toUInt8 :: ·) ∧
      GtidText t gtid ∧ List.Forall₂ GtidText ts rest ∧ acc.length + rest.length < 2 ^ 28 - 1 := by
  induction fuel generalizing p acc with
  | zero => cases h
  | succ fuel ih =>
    rw [gtidParseLoop] at h
    split_ifs at h with full
    generalize read : gtidParserHelper p = parsed at h
    rcases parsed with _ | ⟨gtid, R⟩
    · cases h
    obtain ⟨t, rfl, ht, -⟩ := gtidParserHelper_some read
    cases R with
    | nil =>
      simp only [Option.some.injEq] at h
      exact ⟨gtid, [], t, [], h.symm, by simp, ht, List.Forall₂.nil, by simp only [List.length_nil]; omega⟩
    | cons c R =>
      simp only [ne_eq, ite_not] at h
      split_ifs at h with comma
      obtain ⟨g', rest', t', ts', rfl, rfl, ht', hts', count⟩ := ih h
      refine ⟨gtid, g' :: rest', t, t' :: ts', by simp, by simp [comma], ht, List.Forall₂.cons ht' hts', ?_⟩
      simp only [List.length_append, List.length_singleton] at count
      simp only [List.length_cons]
      omega

/-! ## Printing and reading back -/

theorem rplSlaveStateTostringHelper_later (dest : List UInt8) (gtid : RplGtid) :
    rplSlaveStateTostringHelper dest gtid false = (dest ++ ','.toUInt8 :: gtidItemText gtid, false) := by
  simp [rplSlaveStateTostringHelper]

theorem foldl_rplSlaveStateTostringHelper (dest : List UInt8) (gtids : List RplGtid) :
    (gtids.foldl (fun acc gtid => rplSlaveStateTostringHelper acc.1 gtid acc.2) (dest, false)).1 =
      dest ++ gtids.flatMap (fun gtid => ','.toUInt8 :: gtidItemText gtid) := by
  induction gtids generalizing dest with
  | nil => simp
  | cons gtid gtids ih =>
    simp only [List.foldl_cons, rplSlaveStateTostringHelper_later, ih, List.flatMap_cons, List.append_assoc]

theorem gtidListText_cons (gtid : RplGtid) (gtids : List RplGtid) :
    gtidListText (gtid :: gtids) =
      gtidItemText gtid ++ (gtids.map gtidItemText).flatMap (','.toUInt8 :: ·) := by
  have first : rplSlaveStateTostringHelper [] gtid true = (gtidItemText gtid, false) := rfl
  simp only [gtidListText, List.foldl_cons, first, foldl_rplSlaveStateTostringHelper, List.flatMap_map]

theorem forall₂_gtidItemText (gtids : List RplGtid) : List.Forall₂ GtidText (gtids.map gtidItemText) gtids := by
  induction gtids with
  | nil => exact List.Forall₂.nil
  | cons gtid gtids ih => exact List.Forall₂.cons (gtidText_gtidItemText gtid) ih

theorem length_le_flatMap (ts : List (List UInt8)) : ts.length ≤ (ts.flatMap (','.toUInt8 :: ·)).length := by
  induction ts with
  | nil => simp
  | cons t ts ih =>
    simp only [List.flatMap_cons, List.length_append, List.length_cons]
    omega

theorem gtidListText_text {gtids : List RplGtid} (ne : gtids ≠ []) :
    GtidListText (gtidListText gtids) gtids := by
  obtain ⟨gtid, rest, rfl⟩ := List.exists_cons_of_ne_nil ne
  exact ⟨gtid, rest, gtidItemText gtid, rest.map gtidItemText, rfl, gtidListText_cons gtid rest,
    gtidText_gtidItemText gtid, forall₂_gtidItemText rest⟩

/-! ## The whole parser -/

theorem gtidParseStringToList_of_text {s : List UInt8} {gtids : List RplGtid} (h : GtidListText s gtids) :
    gtidParseStringToList s = if gtids.length ≤ 2 ^ 28 - 1 then some gtids else none := by
  obtain ⟨gtid, rest, t, ts, rfl, rfl, ht, hts⟩ := h
  have enough : ts.length < (t ++ ts.flatMap (','.toUInt8 :: ·)).length + 1 := by
    have := length_le_flatMap ts
    simp only [List.length_append]
    omega
  rw [gtidParseStringToList, gtidParseLoop_of_text ht hts enough]
  -- the loop's bound reads `rest.length < 2^28 - 1`, which is `gtids.length ≤ 2^28 - 1`
  simp only [List.length_nil, List.nil_append, List.length_cons, Nat.zero_add]
  rfl

theorem gtidParseStringToList_some {s : List UInt8} {gtids : List RplGtid}
    (h : gtidParseStringToList s = some gtids) : GtidListText s gtids ∧ gtids.length ≤ 2 ^ 28 - 1 := by
  obtain ⟨gtid, rest, t, ts, rfl, rfl, ht, hts, count⟩ := gtidParseLoop_some h
  refine ⟨⟨gtid, rest, t, ts, rfl, rfl, ht, hts⟩, ?_⟩
  simp only [List.nil_append, List.length_cons]
  simp only [List.length_nil] at count
  omega

/-- Printing a list of GTIDs with the slave-state printer and parsing the text
back gives the list, and the parser accepts exactly the comma-separated GTID
texts of at most `2^28 - 1` items. -/
theorem gtidParseStringToList_gtidListText :
    (∀ gtids : List RplGtid, gtids ≠ [] → gtids.length ≤ 2 ^ 28 - 1 →
        gtidParseStringToList (gtidListText gtids) = some gtids) ∧
      ∀ (s : List UInt8) (gtids : List RplGtid),
        gtidParseStringToList s = some gtids ↔ GtidListText s gtids ∧ gtids.length ≤ 2 ^ 28 - 1 := by
  refine ⟨fun gtids ne small => ?_, fun s gtids => ⟨gtidParseStringToList_some, ?_⟩⟩
  · rw [gtidParseStringToList_of_text (gtidListText_text ne), if_pos small]
  · rintro ⟨text, small⟩
    rw [gtidParseStringToList_of_text text, if_pos small]

/-- A list of `2^28` GTIDs has a well-formed text that the parser refuses,
on its item-count bound. -/
theorem gtidParseStringToList_too_many :
    GtidListText (gtidListText (List.replicate (2 ^ 28) ⟨0, 0, 0⟩)) (List.replicate (2 ^ 28) ⟨0, 0, 0⟩) ∧
      gtidParseStringToList (gtidListText (List.replicate (2 ^ 28) ⟨0, 0, 0⟩)) = none := by
  have ne : List.replicate (2 ^ 28) (⟨0, 0, 0⟩ : RplGtid) ≠ [] := by
    apply List.ne_nil_of_length_pos
    rw [List.length_replicate]
    norm_num
  have many : ¬ (List.replicate (2 ^ 28) (⟨0, 0, 0⟩ : RplGtid)).length ≤ 2 ^ 28 - 1 := by
    rw [List.length_replicate]
    norm_num
  have text := gtidListText_text ne
  refine ⟨text, ?_⟩
  rw [gtidParseStringToList_of_text text, if_neg many]

end MariaDB.Rpl
