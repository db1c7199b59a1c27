import Mathlib.Data.List.GetD
import MariaDB.Bytes.BigEndian
import MariaDB.Order.ThreeWay

set_option autoImplicit false

/- The simple 8-bit collations of strings/ctype-simple.c. A byte weighs what
the collation's 256-entry `sort_order` table gives it. The PAD SPACE
comparison my_strnncollsp_simple treats the shorter string as if extended with
spaces, the NO PAD my_strnncoll_simple does not; the hash functions mix the
weights of the bytes into a pair of numbers, my_hash_sort_simple after
removing the trailing bytes that weigh as a space. A string stored at an
address is a byte list with the address beside it: the word-at-a-time loop
of skip_trailing_space depends on the alignment. -/
namespace MariaDB.Ctype

open BigEndian ThreeWay

/-- What the simple collation functions read of a `CHARSET_INFO`: the
`sort_order` table and the `pad_char` that sort keys are padded with. -/
structure SimpleCollation where
  sortOrder : UInt8 → UInt8
  padChar : UInt8

/-! ## Comparison -/

/-- The loop over the common length of my_strnncoll_simple and
my_strnncollsp_simple: the weight difference at the first pair of bytes that
weigh differently. -/
def strnncollCommon (cs : SimpleCollation) : List UInt8 → List UInt8 → Option Int
  | x :: s, y :: t =>
    if cs.sortOrder x ≠ cs.sortOrder y then some ((cs.sortOrder x).toNat - (cs.sortOrder y).toNat)
    else strnncollCommon cs s t
  | _, _ => none

@[simp] theorem strnncollCommon_nil_left (cs : SimpleCollation) (t : List UInt8) :
    strnncollCommon cs [] t = none := rfl

@[simp] theorem strnncollCommon_nil_right (cs : SimpleCollation) (s : List UInt8) :
    strnncollCommon cs s [] = none := by
  cases s <;> rfl

theorem strnncollCommon_cons (cs : SimpleCollation) (x y : UInt8) (s t : List UInt8) :
    strnncollCommon cs (x :: s) (y :: t) =
      if cs.sortOrder x ≠ cs.sortOrder y then some (((cs.sortOrder x).toNat : Int) - (cs.sortOrder y).toNat)
      else strnncollCommon cs s t := rfl

/-- `my_strnncoll_simple`. -/
def myStrnncollSimple (cs : SimpleCollation) (s t : List UInt8) (tIsPrefix : Bool) : Int :=
  let slen := if tIsPrefix && t.length < s.length then t.length else s.length
  match strnncollCommon cs s t with
  | some r => r
  | none => if t.length < slen then 1 else if slen < t.length then -1 else 0

/-- The scan of my_strnncollsp_simple over the rest of the longer string: the
first byte that does not weigh as a space decides, the sign being `swap`
when the longer string is the first. -/
def strnncollspTail (cs : SimpleCollation) (swap : Int) : List UInt8 → Int
  | [] => 0
  | c :: rest =>
    if cs.sortOrder c ≠ cs.sortOrder 0x20 then
      if cs.sortOrder c < cs.sortOrder 0x20 then -swap else swap
    else strnncollspTail cs swap rest

@[simp] theorem strnncollspTail_nil (cs : SimpleCollation) (swap : Int) : strnncollspTail cs swap [] = 0 :=
  rfl

theorem strnncollspTail_cons (cs : SimpleCollation) (swap : Int) (c : UInt8) (rest : List UInt8) :
    strnncollspTail cs swap (c :: rest) =
      if cs.sortOrder c ≠ cs.sortOrder 0x20 then
        if cs.sortOrder c < cs.sortOrder 0x20 then -swap else swap
      else strnncollspTail cs swap rest := rfl

/-- `my_strnncollsp_simple`. -/
def myStrnncollspSimple (cs : SimpleCollation) (a b : List UInt8) : Int :=
  match strnncollCommon cs a b with
  | some r => r
  | none =>
    let length := min a.length b.length
    if a.length ≠ b.length then
      if a.length < b.length then strnncollspTail cs (-1) (b.drop length)
      else strnncollspTail cs 1 (a.drop length)
    else 0

/-- `my_strnncollsp_simple_nopad`. -/
def myStrnncollspSimpleNopad (cs : SimpleCollation) (a b : List UInt8) : Int :=
  myStrnncollSimple cs a b false

/-! ## Hashing -/

/-- `MY_HASH_ADD` on the pair `(nr1, nr2)`, `ulong` being 64 bits wide. -/
def myHashAdd (nr : UInt64 × UInt64) (value : UInt64) : UInt64 × UInt64 :=
  let a := nr.1
  let b := nr.2
  (a ^^^ (((a &&& 63) + b) * value + (a <<< (8 : UInt64))), b + 3)

/-- `my_hash_sort_simple_nopad`. -/
def myHashSortSimpleNopad (cs : SimpleCollation) (key : List UInt8) (nr : UInt64 × UInt64) :
    UInt64 × UInt64 :=
  key.foldl (fun nr c => myHashAdd nr (cs.sortOrder c).toUInt64) nr

/-- The byte at address `addr` of a string stored from address `ptr`. -/
def peek (ptr : Nat) (s : List UInt8) (addr : Nat) : UInt8 := s.getD (addr - ptr) 0

/-- `while (end > lo && p(end[-1])) end--;` on a string stored from `ptr`. -/
def trimWhile (p : UInt8 → Bool) (ptr : Nat) (s : List UInt8) (lo : Nat) : Nat → Nat
  | 0 => 0
  | e + 1 => if lo < e + 1 && p (peek ptr s e) then trimWhile p ptr s lo e else e + 1

theorem trimWhile_succ (p : UInt8 → Bool) (ptr : Nat) (s : List UInt8) (lo e : Nat) :
    trimWhile p ptr s lo (e + 1) =
      if lo < e + 1 && p (peek ptr s e) then trimWhile p ptr s lo e else e + 1 := rfl

/-- The word loop of skip_trailing_space,
`while (end > start_words && ((unsigned *)end)[-1] == SPACE_INT) end -= SIZEOF_INT;`:
the word below `end` is `SPACE_INT` when its four bytes are spaces. -/
def trimSpaceWords (ptr : Nat) (s : List UInt8) (lo : Nat) : Nat → Nat
  | e + 4 =>
    if lo < e + 4 && [e, e + 1, e + 2, e + 3].all (fun addr => peek ptr s addr == 0x20) then
      trimSpaceWords ptr s lo e
    else e + 4
  | e => e

/-- `skip_trailing_space`, with `SIZEOF_INT` 4: the end of the string stored
from `ptr` without its trailing spaces. -/
def skipTrailingSpace (ptr : Nat) (s : List UInt8) : Nat :=
  let len := s.length
  let e := ptr + len
  let e :=
    if 20 < len then
      let endWords := e / 4 * 4
      let startWords := (ptr + 4 - 1) / 4 * 4
      if ptr < endWords then
        let e := trimWhile (· == 0x20) ptr s endWords e
        if peek ptr s (e - 1) == 0x20 && startWords < endWords then trimSpaceWords ptr s startWords e
        else e
      else e
    else e
  trimWhile (· == 0x20) ptr s ptr e

/-- `my_hash_sort_simple`, for a key stored from address `ptr`. -/
def myHashSortSimple (cs : SimpleCollation) (ptr : Nat) (key : List UInt8) (nr : UInt64 × UInt64) :
    UInt64 × UInt64 :=
  let spaceWeight := cs.sortOrder 0x20
  let e := if 16 < key.length then skipTrailingSpace ptr key else ptr + key.length
  -- the loop `for ( ; key < end ; )` stepping back over bytes that weigh as a space
  let e := trimWhile (fun c => cs.sortOrder c == spaceWeight) ptr key ptr e
  myHashSortSimpleNopad cs (key.take (e - ptr)) nr

/-! ## Removing trailing bytes through an end pointer -/

section Trim

variable {p : UInt8 → Bool} {ptr lo e : Nat} {s : List UInt8}

/-- An end `e` of the string stored from `ptr` that removing the trailing
bytes `p` holds of would reach: the bytes from `e` on are such bytes. -/
def TrimInv (p : UInt8 → Bool) (ptr : Nat) (s : List UInt8) (e : Nat) : Prop :=
  ptr ≤ e ∧ e ≤ ptr + s.length ∧ (s.take (e - ptr)).rdropWhile p = s.rdropWhile p

theorem trimInv_end : TrimInv p ptr s (ptr + s.length) := by
  refine ⟨by omega, le_rfl, ?_⟩
  rw [Nat.add_sub_cancel_left, List.take_length]

theorem peek_eq (h : e - ptr < s.length) : peek ptr s e = s[e - ptr] :=
  List.getD_eq_getElem s 0 h

/-- Stepping back over one byte that `p` holds of keeps the invariant. -/
theorem TrimInv.pred (h : TrimInv p ptr s (e + 1)) (hlo : ptr < e + 1)
    (hp : p (peek ptr s e) = true) : TrimInv p ptr s e := by
  obtain ⟨_, hend, hstrip⟩ := h
  have hk : e - ptr < s.length := by omega
  rw [peek_eq hk] at hp
  refine ⟨by omega, by omega, ?_⟩
  rw [rdropWhile_take_succ hk hp, ← hstrip, Nat.sub_add_comm (by omega)]

theorem trimWhile_inv (hlo : ptr ≤ lo) (h : TrimInv p ptr s e) :
    TrimInv p ptr s (trimWhile p ptr s lo e) := by
  induction e with
  | zero => exact h
  | succ e ih =>
    rw [trimWhile_succ]
    split
    next hstep =>
      simp only [Bool.and_eq_true, decide_eq_true_eq] at hstep
      exact ih (h.pred (by omega) hstep.2)
    next => exact h

/-- `trimWhile` stops at `lo` or above a byte that `p` does not hold of. -/
theorem trimWhile_stop :
    trimWhile p ptr s lo e ≤ lo ∨
      lo < trimWhile p ptr s lo e ∧ p (peek ptr s (trimWhile p ptr s lo e - 1)) = false := by
  induction e with
  | zero => exact .inl (Nat.zero_le lo)
  | succ e ih =>
    rw [trimWhile_succ]
    split
    next => exact ih
    next hstop =>
      simp only [Bool.and_eq_true, decide_eq_true_eq, not_and, Bool.not_eq_true] at hstop
      by_cases hle : e + 1 ≤ lo
      · exact .inl hle
      · exact .inr ⟨by omega, hstop (by omega)⟩

/-- An end that lies at the string's end once its trailing bytes that `p`
holds of are removed. -/
def Trimmed (p : UInt8 → Bool) (ptr : Nat) (s : List UInt8) (e : Nat) : Prop :=
  ptr ≤ e ∧ e ≤ ptr + s.length ∧ s.take (e - ptr) = s.rdropWhile p

theorem trimWhile_trimmed (h : TrimInv p ptr s e) : Trimmed p ptr s (trimWhile p ptr s ptr e) := by
  obtain ⟨hlo, hhi, hstrip⟩ := trimWhile_inv le_rfl h
  refine ⟨hlo, hhi, ?_⟩
  rcases @trimWhile_stop p ptr ptr e s with hle | ⟨hlt, hstop⟩
  · have hzero : trimWhile p ptr s ptr e - ptr = 0 := by omega
    rw [hzero] at hstrip ⊢
    rw [← hstrip]
    rfl
  · have hk : trimWhile p ptr s ptr e - 1 - ptr < s.length := by omega
    rw [peek_eq hk] at hstop
    have hlen : trimWhile p ptr s ptr e - ptr = trimWhile p ptr s ptr e - 1 - ptr + 1 := by omega
    rw [← hstrip, hlen, rdropWhile_take_succ_of_not hk hstop]

/-- An end reached by removing trailing bytes that `p` holds of is one that
removing those a weaker `q` holds of passes through. -/
theorem Trimmed.inv_of_imp {q : UInt8 → Bool} (h : Trimmed p ptr s e)
    (himp : ∀ c, p c = true → q c = true) : TrimInv q ptr s e := by
  obtain ⟨hlo, hhi, htake⟩ := h
  refine ⟨hlo, hhi, ?_⟩
  rw [htake, rdropWhile_rdropWhile_of_imp himp]

theorem trimWhile_ge (h : lo ≤ e) : lo ≤ trimWhile p ptr s lo e := by
  induction e with
  | zero => exact h
  | succ e ih =>
    rw [trimWhile_succ]
    split
    next hstep =>
      simp only [Bool.and_eq_true, decide_eq_true_eq] at hstep
      exact ih (by omega)
    next => exact h

/-- The word loop steps back a word at a time from an end a whole number of
words above `lo`, so it never passes `lo`. -/
theorem trimSpaceWords_inv (hlo : ptr ≤ lo) :
    lo ≤ e → (e - lo) % 4 = 0 → TrimInv (· == 0x20) ptr s e →
      TrimInv (· == 0x20) ptr s (trimSpaceWords ptr s lo e) := by
  fun_induction trimSpaceWords ptr s lo e with
  | case1 e hword ih =>
    intro hle hwords h
    simp only [Bool.and_eq_true, decide_eq_true_eq, List.all_cons, List.all_nil, beq_iff_eq,
      Bool.and_true] at hword
    obtain ⟨hlt, h0, h1, h2, h3⟩ := hword
    have hword : lo + 4 ≤ e + 4 := by omega
    have h3' : TrimInv (· == 0x20) ptr s (e + 3) := h.pred (by omega) (beq_iff_eq.mpr h3)
    have h2' : TrimInv (· == 0x20) ptr s (e + 2) := h3'.pred (by omega) (beq_iff_eq.mpr h2)
    have h1' : TrimInv (· == 0x20) ptr s (e + 1) := h2'.pred (by omega) (beq_iff_eq.mpr h1)
    exact ih (by omega) (by omega) (h1'.pred (by omega) (beq_iff_eq.mpr h0))
  | case2 e _ => exact fun _ _ h => h
  | case3 e _ => exact fun _ _ h => h

/-- skip_trailing_space ends its string just after its last byte that is not
a space, whatever the string's length and alignment. -/
theorem skipTrailingSpace_trimmed : Trimmed (· == 0x20) ptr s (skipTrailingSpace ptr s) := by
  simp only [skipTrailingSpace]
  apply trimWhile_trimmed
  split
  · split
    · have hbytes : TrimInv (· == 0x20) ptr s
          (trimWhile (· == 0x20) ptr s ((ptr + s.length) / 4 * 4) (ptr + s.length)) :=
        trimWhile_inv (by omega) trimInv_end
      split
      next hcond =>
        -- the byte loop stopped at end_words, so the word loop starts on a word boundary
        simp only [Bool.and_eq_true, beq_iff_eq, decide_eq_true_eq] at hcond
        have hge := @trimWhile_ge (· == 0x20) ptr ((ptr + s.length) / 4 * 4) (ptr + s.length) s
          (by omega)
        have hat : trimWhile (· == 0x20) ptr s ((ptr + s.length) / 4 * 4) (ptr + s.length) =
            (ptr + s.length) / 4 * 4 := by
          rcases @trimWhile_stop (· == 0x20) ptr ((ptr + s.length) / 4 * 4) (ptr + s.length) s
            with hle | ⟨_, hstop⟩
          · omega
          · simp [hcond.1] at hstop
        rw [hat] at hbytes ⊢
        exact trimSpaceWords_inv (by omega) (by omega) (by omega) hbytes
      next => exact hbytes
    · exact trimInv_end
  · exact trimInv_end

example : skipTrailingSpace 5 (List.replicate 3 0x61 ++ List.replicate 22 0x20) = 8 := rfl

end Trim

/-! ## The hashes depend only on the weights -/

section Hash

variable (cs : SimpleCollation)

theorem myHashSortSimpleNopad_eq_foldl (key : List UInt8) (nr : UInt64 × UInt64) :
    myHashSortSimpleNopad cs key nr =
      (key.map cs.sortOrder).foldl (fun nr w => myHashAdd nr w.toUInt64) nr := by
  simp only [myHashSortSimpleNopad, List.foldl_map]

/-- my_hash_sort_simple hashes the key without its trailing bytes that weigh as
a space, wherever the key is stored. -/
theorem myHashSortSimple_eq (ptr : Nat) (key : List UInt8) (nr : UInt64 × UInt64) :
    myHashSortSimple cs ptr key nr =
      myHashSortSimpleNopad cs (key.rdropWhile (fun c => cs.sortOrder c == cs.sortOrder 0x20)) nr := by
  have hspaces : TrimInv (fun c => cs.sortOrder c == cs.sortOrder 0x20) ptr key
      (if 16 < key.length then skipTrailingSpace ptr key else ptr + key.length) := by
    split
    · apply skipTrailingSpace_trimmed.inv_of_imp
      intro c hc
      rw [beq_iff_eq.mp hc]
      exact beq_self_eq_true _
    · exact trimInv_end
  simp only [myHashSortSimple]
  rw [(trimWhile_trimmed hspaces).2.2]

variable {cs}

theorem myHashSortSimpleNopad_congr {a b : List UInt8} (h : a.map cs.sortOrder = b.map cs.sortOrder)
    (nr : UInt64 × UInt64) : myHashSortSimpleNopad cs a nr = myHashSortSimpleNopad cs b nr := by
  rw [myHashSortSimpleNopad_eq_foldl, myHashSortSimpleNopad_eq_foldl, h]

theorem myHashSortSimple_congr {a b : List UInt8}
    (h : (a.map cs.sortOrder).rdropWhile (· == cs.sortOrder 0x20) =
      (b.map cs.sortOrder).rdropWhile (· == cs.sortOrder 0x20))
    (pa pb : Nat) (nr : UInt64 × UInt64) :
    myHashSortSimple cs pa a nr = myHashSortSimple cs pb b nr := by
  rw [myHashSortSimple_eq, myHashSortSimple_eq]
  apply myHashSortSimpleNopad_congr
  rw [rdropWhile_map, rdropWhile_map] at h
  exact h

end Hash

/-! ## The comparisons order weights lexicographically -/

section Compare

variable (cs : SimpleCollation)

theorem compares_weight (x y : UInt8) : Compares ((x.toNat : Int) - y.toNat) x y := by
  refine ⟨?_, ?_, ?_⟩
  · rw [UInt8.lt_iff_toNat_lt]
    omega
  · rw [← UInt8.toNat_inj]
    omega
  · rw [UInt8.lt_iff_toNat_lt]
    omega

theorem myStrnncollspSimple_cons_cons (x y : UInt8) (a b : List UInt8) :
    myStrnncollspSimple cs (x :: a) (y :: b) =
      if cs.sortOrder x ≠ cs.sortOrder y then ((cs.sortOrder x).toNat : Int) - (cs.sortOrder y).toNat
      else myStrnncollspSimple cs a b := by
  by_cases hne : cs.sortOrder x ≠ cs.sortOrder y
  · simp [myStrnncollspSimple, strnncollCommon_cons, hne]
  · simp [myStrnncollspSimple, strnncollCommon_cons, hne]

theorem myStrnncollspSimple_nil_left (b : List UInt8) :
    myStrnncollspSimple cs [] b = strnncollspTail cs (-1) b := by
  cases b <;> simp [myStrnncollspSimple, strnncollspTail_cons]

theorem myStrnncollspSimple_nil_right (a : List UInt8) :
    myStrnncollspSimple cs a [] = strnncollspTail cs 1 a := by
  cases a <;> simp [myStrnncollspSimple, strnncollspTail_cons]

theorem strnncollspTail_neg_one (b : List UInt8) : strnncollspTail cs (-1) b = -strnncollspTail cs 1 b := by
  induction b with
  | nil => rfl
  | cons c rest ih =>
    simp only [strnncollspTail_cons]
    split_ifs <;> simp [ih]

/-- The scan of the longer string's rest compares it, padded with the weight
of a space, with as many spaces. -/
theorem strnncollspTail_compares {n : Nat} (a : List UInt8) (ha : a.length ≤ n) :
    Compares (strnncollspTail cs 1 a) (pad (cs.sortOrder 0x20) n (a.map cs.sortOrder))
      (pad (cs.sortOrder 0x20) n []) := by
  induction a generalizing n with
  | nil => exact compares_refl _
  | cons c rest ih =>
    obtain ⟨n, rfl⟩ : ∃ n', n = n' + 1 := ⟨n - 1, by simp at ha; omega⟩
    rw [List.map_cons, pad_cons, pad_nil_succ, strnncollspTail_cons]
    by_cases hsp : cs.sortOrder c = cs.sortOrder 0x20
    · rw [if_neg (not_not.mpr hsp), hsp]
      exact (ih (by simp at ha; omega)).cons
    · rw [if_pos hsp]
      split
      next hlt => exact (compares_of_lt hlt).cons_of_ne hsp
      next hge =>
        have hgt : cs.sortOrder 0x20 < cs.sortOrder c := by
          rw [UInt8.lt_iff_toNat_lt] at hge ⊢
          have := UInt8.toNat_inj.not.mpr hsp
          omega
        exact (compares_of_gt hgt).cons_of_ne hsp

/-- my_strnncollsp_simple compares the weights of the two strings, both
padded with the weight of a space to any common length `n`. -/
theorem myStrnncollspSimple_compares {n : Nat} (a b : List UInt8) (ha : a.length ≤ n)
    (hb : b.length ≤ n) :
    Compares (myStrnncollspSimple cs a b) (pad (cs.sortOrder 0x20) n (a.map cs.sortOrder))
      (pad (cs.sortOrder 0x20) n (b.map cs.sortOrder)) := by
  induction a generalizing b n with
  | nil =>
    rw [myStrnncollspSimple_nil_left, strnncollspTail_neg_one, List.map_nil]
    exact (strnncollspTail_compares cs b hb).neg
  | cons x a ih =>
    cases b with
    | nil =>
      rw [myStrnncollspSimple_nil_right, List.map_nil]
      exact strnncollspTail_compares cs (x :: a) ha
    | cons y b =>
      obtain ⟨n, rfl⟩ : ∃ n', n = n' + 1 := ⟨n - 1, by simp at ha; omega⟩
      rw [myStrnncollspSimple_cons_cons, List.map_cons, List.map_cons, pad_cons, pad_cons]
      split
      next hne => exact (compares_weight _ _).cons_of_ne hne
      next heq =>
        rw [not_not.mp heq]
        exact (ih b (by simp at ha; omega) (by simp at hb; omega)).cons

theorem myStrnncollSimple_cons_cons (x y : UInt8) (s t : List UInt8) (tIsPrefix : Bool) :
    myStrnncollSimple cs (x :: s) (y :: t) tIsPrefix =
      if cs.sortOrder x ≠ cs.sortOrder y then ((cs.sortOrder x).toNat : Int) - (cs.sortOrder y).toNat
      else myStrnncollSimple cs s t tIsPrefix := by
  by_cases hne : cs.sortOrder x ≠ cs.sortOrder y
  · simp [myStrnncollSimple, strnncollCommon_cons, hne]
  · simp only [myStrnncollSimple, strnncollCommon_cons, hne, if_false, List.length_cons]
    cases strnncollCommon cs s t with
    | some r => rfl
    | none =>
      -- cutting `slen` to `tlen` commutes with dropping the first byte of both
      cases tIsPrefix <;> simp only [Bool.false_and, Bool.true_and, decide_eq_true_eq] <;>
        split_ifs <;> omega

/-- my_strnncoll_simple without the prefix flag compares the weights of the
two strings lexicographically. -/
theorem myStrnncollSimple_compares (s t : List UInt8) :
    Compares (myStrnncollSimple cs s t false) (s.map cs.sortOrder) (t.map cs.sortOrder) := by
  induction s generalizing t with
  | nil =>
    cases t with
    | nil => exact compares_refl _
    | cons y t => simpa [myStrnncollSimple, strnncollCommon_cons] using compares_nil_cons
  | cons x s ih =>
    cases t with
    | nil => simpa [myStrnncollSimple, strnncollCommon_cons] using compares_cons_nil
    | cons y t =>
      rw [myStrnncollSimple_cons_cons, List.map_cons, List.map_cons]
      split
      next hne => exact (compares_weight _ _).cons_of_ne hne
      next heq =>
        rw [not_not.mp heq]
        exact (ih t).cons

theorem myStrnncollspSimple_eq_zero_iff (a b : List UInt8) :
    myStrnncollspSimple cs a b = 0 ↔
      (a.map cs.sortOrder).rdropWhile (· == cs.sortOrder 0x20) =
        (b.map cs.sortOrder).rdropWhile (· == cs.sortOrder 0x20) := by
  have hcmp := myStrnncollspSimple_compares cs (n := a.length + b.length) a b (by omega) (by omega)
  rw [hcmp.eq_zero_iff, pad_eq_pad_iff (by rw [List.length_map]; omega) (by rw [List.length_map]; omega)]

theorem myStrnncollspSimple_sign_swap (a b : List UInt8) :
    (myStrnncollspSimple cs a b).sign = -(myStrnncollspSimple cs b a).sign :=
  (myStrnncollspSimple_compares cs (n := a.length + b.length) a b (by omega) (by omega)).sign_eq_neg
    (myStrnncollspSimple_compares cs b a (by omega) (by omega))

theorem myStrnncollspSimple_trans {a b c : List UInt8} (hab : myStrnncollspSimple cs a b ≤ 0)
    (hbc : myStrnncollspSimple cs b c ≤ 0) : myStrnncollspSimple cs a c ≤ 0 := by
  have hab' := myStrnncollspSimple_compares cs (n := a.length + b.length + c.length) a b
    (by omega) (by omega)
  have hbc' := myStrnncollspSimple_compares cs (n := a.length + b.length + c.length) b c
    (by omega) (by omega)
  have hac' := myStrnncollspSimple_compares cs (n := a.length + b.length + c.length) a c
    (by omega) (by omega)
  exact hab'.nonpos_trans hbc' hac' hab hbc

theorem myStrnncollspSimpleNopad_eq_zero_iff (a b : List UInt8) :
    myStrnncollspSimpleNopad cs a b = 0 ↔ a.map cs.sortOrder = b.map cs.sortOrder :=
  (myStrnncollSimple_compares cs a b).eq_zero_iff

theorem myStrnncollspSimpleNopad_sign_swap (a b : List UInt8) :
    (myStrnncollspSimpleNopad cs a b).sign = -(myStrnncollspSimpleNopad cs b a).sign :=
  (myStrnncollSimple_compares cs a b).sign_eq_neg (myStrnncollSimple_compares cs b a)

theorem myStrnncollspSimpleNopad_trans {a b c : List UInt8} (hab : myStrnncollspSimpleNopad cs a b ≤ 0)
    (hbc : myStrnncollspSimpleNopad cs b c ≤ 0) : myStrnncollspSimpleNopad cs a c ≤ 0 :=
  Compares.nonpos_trans (myStrnncollSimple_compares cs a b) (myStrnncollSimple_compares cs b c)
    (myStrnncollSimple_compares cs a c) hab hbc

end Compare

/-- Both comparisons of a simple collation are total preorders: PAD SPACE
strings are equal when their weights agree up to trailing space weights, NO
PAD strings when their weights agree; and equal strings hash alike. -/
theorem simple_collation_order_hash (cs : SimpleCollation) (a b c : List UInt8) (pa pb : Nat)
    (nr : UInt64 × UInt64) :
    (myStrnncollspSimple cs a b = 0 ↔
        (a.map cs.sortOrder).rdropWhile (· == cs.sortOrder 0x20) =
          (b.map cs.sortOrder).rdropWhile (· == cs.sortOrder 0x20)) ∧
      (myStrnncollspSimple cs a b).sign = -(myStrnncollspSimple cs b a).sign ∧
      (myStrnncollspSimple cs a b ≤ 0 → myStrnncollspSimple cs b c ≤ 0 →
        myStrnncollspSimple cs a c ≤ 0) ∧
      (myStrnncollspSimpleNopad cs a b = 0 ↔ a.map cs.sortOrder = b.map cs.sortOrder) ∧
      (myStrnncollspSimpleNopad cs a b).sign = -(myStrnncollspSimpleNopad cs b a).sign ∧
      (myStrnncollspSimpleNopad cs a b ≤ 0 → myStrnncollspSimpleNopad cs b c ≤ 0 →
        myStrnncollspSimpleNopad cs a c ≤ 0) ∧
      (myStrnncollspSimple cs a b = 0 → myHashSortSimple cs pa a nr = myHashSortSimple cs pb b nr) ∧
      (myStrnncollspSimpleNopad cs a b = 0 →
        myHashSortSimpleNopad cs a nr = myHashSortSimpleNopad cs b nr) :=
  ⟨myStrnncollspSimple_eq_zero_iff cs a b, myStrnncollspSimple_sign_swap cs a b,
    myStrnncollspSimple_trans cs, myStrnncollspSimpleNopad_eq_zero_iff cs a b,
    myStrnncollspSimpleNopad_sign_swap cs a b, myStrnncollspSimpleNopad_trans cs,
    fun h => myHashSortSimple_congr ((myStrnncollspSimple_eq_zero_iff cs a b).mp h) pa pb nr,
    fun h => myHashSortSimpleNopad_congr ((myStrnncollspSimpleNopad_eq_zero_iff cs a b).mp h) nr⟩

/-! ## Sort keys -/

/-- `MY_STRXFRM_PAD_WITH_SPACE`. -/
def myStrxfrmPadWithSpace : Nat := 0x40

/-- `MY_STRXFRM_PAD_TO_MAXLEN`. -/
def myStrxfrmPadToMaxlen : Nat := 0x80

/-- `MY_STRXFRM_DESC_LEVEL1`. -/
def myStrxfrmDescLevel1 : Nat := 0x100

/-- `MY_STRXFRM_REVERSE_LEVEL1`. -/
def myStrxfrmReverseLevel1 : Nat := 0x10000

/-- `my_strnxfrm_simple_internal` into a buffer apart from the source: the
weights of the first `frmlen` bytes, and the number of weights left to write. -/
def myStrnxfrmSimpleInternal (cs : SimpleCollation) (dstlen nweights : Nat) (src : List UInt8) :
    List UInt8 × Nat :=
  let frmlen := min (min dstlen nweights) src.length
  ((src.take frmlen).map cs.sortOrder, nweights - frmlen)

/-- `my_strxfrm_desc_and_reverse` on the bytes written: complemented for a
descending level, reversed for a reversed one. -/
def myStrxfrmDescAndReverse (str : List UInt8) (flags level : Nat) : List UInt8 :=
  if flags &&& (myStrxfrmDescLevel1 <<< level) ≠ 0 then
    if flags &&& (myStrxfrmReverseLevel1 <<< level) ≠ 0 then (str.map (~~~ ·)).reverse
    else str.map (~~~ ·)
  else if flags &&& (myStrxfrmReverseLevel1 <<< level) ≠ 0 then str.reverse
  else str

/-- `my_strxfrm_pad_desc_and_reverse` for an 8-bit character set, whose
`mbminlen` is 1 and whose `my_ci_fill` is a `memset`: `str` holds the bytes
written, in a buffer of `room` bytes, with `nweights` weights left to write.
The result is the key, whose length the function returns. -/
def myStrxfrmPadDescAndReverse (cs : SimpleCollation) (str : List UInt8)
    (room nweights flags level : Nat) : List UInt8 :=
  let str :=
    if nweights ≠ 0 ∧ flags &&& myStrxfrmPadWithSpace ≠ 0 then
      let fillLength := min (room - str.length) nweights
      str ++ List.replicate fillLength cs.padChar
    else str
  let str := myStrxfrmDescAndReverse str flags level
  if flags &&& myStrxfrmPadToMaxlen ≠ 0 ∧ str.length < room then
    str ++ List.replicate (room - str.length) cs.padChar
  else str

/-- `my_strnxfrm_simple` into a buffer of `dstlen` bytes apart from the
source: the key written. -/
def myStrnxfrmSimple (cs : SimpleCollation) (dstlen nweights : Nat) (src : List UInt8)
    (flags : Nat) : List UInt8 :=
  let rc := myStrnxfrmSimpleInternal cs dstlen nweights src
  myStrxfrmPadDescAndReverse cs rc.1 dstlen rc.2 flags 0

section Keys

variable (cs : SimpleCollation)

/-- With room for `n` weights of a string of at most `n` bytes, the key is
the string's weights padded with `pad_char` to `n` bytes, or to the whole
buffer for `MY_STRXFRM_PAD_TO_MAXLEN`. -/
theorem myStrnxfrmSimple_eq {n dstlen flags : Nat} (a : List UInt8) (ha : a.length ≤ n)
    (hn : n ≤ dstlen) (hpad : flags &&& myStrxfrmPadWithSpace ≠ 0)
    (hdesc : flags &&& myStrxfrmDescLevel1 = 0) (hrev : flags &&& myStrxfrmReverseLevel1 = 0) :
    myStrnxfrmSimple cs dstlen n a flags =
      pad cs.padChar (if flags &&& myStrxfrmPadToMaxlen ≠ 0 then dstlen else n)
        (a.map cs.sortOrder) := by
  have hint : myStrnxfrmSimpleInternal cs dstlen n a = (a.map cs.sortOrder, n - a.length) := by
    have hmin : min (min dstlen n) a.length = a.length := by omega
    simp only [myStrnxfrmSimpleInternal, hmin, List.take_length]
  have hfill : (if n - a.length ≠ 0 ∧ flags &&& myStrxfrmPadWithSpace ≠ 0 then
        a.map cs.sortOrder ++
          List.replicate (min (dstlen - (a.map cs.sortOrder).length) (n - a.length)) cs.padChar
      else a.map cs.sortOrder) = pad cs.padChar n (a.map cs.sortOrder) := by
    have hmin : min (dstlen - (a.map cs.sortOrder).length) (n - a.length) = n - a.length := by
      rw [List.length_map]
      omega
    split
    · rw [hmin, pad, List.length_map]
    · have hzero : n - a.length = 0 := by omega
      rw [pad, List.length_map, hzero, List.replicate_zero, List.append_nil]
  have hkeep : myStrxfrmDescAndReverse (pad cs.padChar n (a.map cs.sortOrder)) flags 0 =
      pad cs.padChar n (a.map cs.sortOrder) := by
    simp only [myStrxfrmDescAndReverse, Nat.shiftLeft_zero, hdesc, hrev, ne_eq, not_true_eq_false,
      if_false]
  have hlen : (pad cs.padChar n (a.map cs.sortOrder)).length = n :=
    length_pad (by rw [List.length_map]; exact ha)
  simp only [myStrnxfrmSimple, hint, myStrxfrmPadDescAndReverse, hfill, hkeep, hlen]
  split
  · next hmax =>
    have hext : pad cs.padChar n (a.map cs.sortOrder) ++ List.replicate (dstlen - n) cs.padChar =
        pad cs.padChar dstlen (pad cs.padChar n (a.map cs.sortOrder)) := by
      rw [pad.eq_1 cs.padChar dstlen, hlen]
    rw [if_pos hmax.1, hext, pad_pad (by rw [List.length_map]; exact ha) hn]
  · next hmax =>
    split
    · next hflag =>
      have heq : n = dstlen := by
        by_contra hne
        exact hmax ⟨hflag, by omega⟩
      rw [heq]
    · rfl

theorem length_myStrnxfrmSimple {n dstlen flags : Nat} (a : List UInt8) (ha : a.length ≤ n)
    (hn : n ≤ dstlen) (hpad : flags &&& myStrxfrmPadWithSpace ≠ 0)
    (hdesc : flags &&& myStrxfrmDescLevel1 = 0) (hrev : flags &&& myStrxfrmReverseLevel1 = 0) :
    (myStrnxfrmSimple cs dstlen n a flags).length =
      if flags &&& myStrxfrmPadToMaxlen ≠ 0 then dstlen else n := by
  rw [myStrnxfrmSimple_eq cs a ha hn hpad hdesc hrev]
  apply length_pad
  rw [List.length_map]
  split <;> omega

theorem sign_cmpResult (o : Ordering) : (cmpResult o).sign = cmpResult o := by
  cases o <;> rfl

/-- `memcmp` of two byte strings of one length orders them lexicographically. -/
theorem memcmp_compares {xs ys : List UInt8} (h : xs.length = ys.length) :
    Compares (cmpResult (memcmp xs ys)) xs ys := by
  induction xs generalizing ys with
  | nil =>
    rw [List.length_nil, eq_comm, List.length_eq_zero_iff] at h
    subst h
    exact compares_refl _
  | cons x xs ih =>
    cases ys with
    | nil => simp at h
    | cons y ys =>
      simp only [List.length_cons, Nat.add_right_cancel_iff] at h
      rw [memcmp_cons]
      rcases Nat.lt_trichotomy x.toNat y.toNat with hlt | heq | hgt
      · have hxy : x < y := UInt8.lt_iff_toNat_lt.mpr hlt
        rw [Nat.compare_eq_lt.mpr hlt]
        exact (compares_of_lt hxy).cons_of_ne (by rintro rfl; omega)
      · rw [UInt8.toNat_inj.mp heq, Nat.compare_eq_eq.mpr rfl]
        exact (ih h).cons
      · have hyx : y < x := UInt8.lt_iff_toNat_lt.mpr hgt
        rw [Nat.compare_eq_gt.mpr hgt]
        exact (compares_of_gt hyx).cons_of_ne (by rintro rfl; omega)

end Keys

/-- Sort keys of a simple collation order like my_strnncollsp_simple exactly
when its `pad_char` weighs what a space weighs. The key of a string that fits
in `n` weights is its weights padded with `pad_char` to `n` bytes, or to
`dstlen` with `MY_STRXFRM_PAD_TO_MAXLEN`; the keys of two such strings have
one length, and their `memcmp` has the sign of the comparison for every such
pair of strings if and only if `pad_char = sort_order[' ']`. -/
theorem myStrnxfrmSimple_memcmp_iff (cs : SimpleCollation) :
    (∀ (a : List UInt8) (n dstlen flags : Nat), a.length ≤ n → n ≤ dstlen →
        flags &&& myStrxfrmPadWithSpace ≠ 0 → flags &&& myStrxfrmDescLevel1 = 0 →
        flags &&& myStrxfrmReverseLevel1 = 0 →
        myStrnxfrmSimple cs dstlen n a flags =
            pad cs.padChar (if flags &&& myStrxfrmPadToMaxlen ≠ 0 then dstlen else n) (a.map cs.sortOrder) ∧
          (myStrnxfrmSimple cs dstlen n a flags).length =
            if flags &&& myStrxfrmPadToMaxlen ≠ 0 then dstlen else n) ∧
      ((∀ (a b : List UInt8) (n dstlen flags : Nat), a.length ≤ n → b.length ≤ n → n ≤ dstlen →
          flags &&& myStrxfrmPadWithSpace ≠ 0 → flags &&& myStrxfrmDescLevel1 = 0 →
          flags &&& myStrxfrmReverseLevel1 = 0 →
          (myStrnxfrmSimple cs dstlen n a flags).length = (myStrnxfrmSimple cs dstlen n b flags).length ∧
            cmpResult (memcmp (myStrnxfrmSimple cs dstlen n a flags) (myStrnxfrmSimple cs dstlen n b flags)) =
              (myStrnncollspSimple cs a b).sign) ↔
        cs.padChar = cs.sortOrder 0x20) := by
  refine ⟨fun a n dstlen flags ha hn hpad hdesc hrev =>
    ⟨myStrnxfrmSimple_eq cs a ha hn hpad hdesc hrev, length_myStrnxfrmSimple cs a ha hn hpad hdesc hrev⟩, ?_⟩
  constructor
  · -- the empty string and a space compare equal, but their keys are `pad_char` and its weight
    intro h
    have hkeys := h [] [0x20] 1 1 myStrxfrmPadWithSpace (by simp) (by simp) le_rfl (by decide)
      (by decide) (by decide)
    have hcmp : myStrnncollspSimple cs [] [0x20] = 0 := by
      simp [myStrnncollspSimple_nil_left, strnncollspTail_cons]
    rw [myStrnxfrmSimple_eq cs [] (by simp) le_rfl (by decide) (by decide) (by decide),
      myStrnxfrmSimple_eq cs [0x20] (by simp) le_rfl (by decide) (by decide) (by decide), hcmp,
      ite_self] at hkeys
    have hsame := (memcmp_compares hkeys.1).eq_zero_iff.mp hkeys.2
    simpa [pad] using hsame
  · intro hsp a b n dstlen flags ha hb hn hpad hdesc hrev
    rw [myStrnxfrmSimple_eq cs a ha hn hpad hdesc hrev, myStrnxfrmSimple_eq cs b hb hn hpad hdesc hrev]
    generalize hN : (if flags &&& myStrxfrmPadToMaxlen ≠ 0 then dstlen else n) = N
    have hnN : n ≤ N := by
      rw [← hN]
      split <;> omega
    have heq : (pad cs.padChar N (a.map cs.sortOrder)).length =
        (pad cs.padChar N (b.map cs.sortOrder)).length := by
      rw [length_pad (by rw [List.length_map]; omega), length_pad (by rw [List.length_map]; omega)]
    refine ⟨heq, ?_⟩
    rw [← sign_cmpResult]
    apply (memcmp_compares heq).sign_eq
    rw [hsp]
    exact myStrnncollspSimple_compares cs a b (by omega) (by omega)

/-- `sort_order_latin7_general_ci` (strings/ctype-extra.c), in which a space
weighs 0x30 and byte 0x7F weighs 0x20. -/
def sortOrderLatin7GeneralCi : List UInt8 :=
[
  0x00, 0x01, 0x02, 0x03, 0x04, 0x05, 0x06, 0x07, 0x08, 0x09, 0x0a, 0x0b, 0x0c, 0x0d, 0x0e, 0x0f,
  0x10, 0x11, 0x12, 0x13, 0x14, 0x15, 0x16, 0x17, 0x18, 0x19, 0x1a, 0x1b, 0x1c, 0x1d, 0x1e, 0x1f,
  0x30, 0x32, 0x33, 0x34, 0x35, 0x36, 0x37, 0x2b, 0x38, 0x39, 0x3a, 0x5c, 0x3b, 0x2c, 0x3c, 0x3d,
  0x76, 0x7a, 0x7c, 0x7e, 0x80, 0x81, 0x82, 0x83, 0x84, 0x85, 0x3e, 0x3f, 0x5d, 0x5e, 0x5f, 0x40,
  0x41, 0x86, 0x92, 0x94, 0x9a, 0x9c, 0xa6, 0xa8, 0xac, 0xae, 0xb4, 0xb6, 0xba, 0xc0, 0xc2, 0xc8,
  0xd4, 0xd6, 0xd8, 0xdc, 0xe3, 0xe6, 0xee, 0xf0, 0xf2, 0xf4, 0xf6, 0x42, 0x43, 0x44, 0x45, 0x46,
  0x47, 0x86, 0x92, 0x94, 0x9a, 0x9c, 0xa6, 0xa8, 0xac, 0xae, 0xb4, 0xb6, 0xba, 0xc0, 0xc2, 0xc8,
  0xd4, 0xd6, 0xd8, 0xdc, 0xe2, 0xe6, 0xee, 0xf0, 0xf2, 0xf4, 0xf6, 0x48, 0x49, 0x4a, 0x4b, 0x20,
  0x75, 0x21, 0x56, 0x22, 0x59, 0x73, 0x70, 0x71, 0x23, 0x74, 0x24, 0x5a, 0x25, 0x4d, 0x51, 0x50,
  0x26, 0x54, 0x55, 0x57, 0x58, 0x72, 0x2e, 0x2f, 0x27, 0xe5, 0x28, 0x5b, 0x29, 0x4e, 0x53, 0x2a,
  0x31, 0xfe, 0x65, 0x66, 0x67, 0xff, 0x4c, 0x68, 0x2d, 0x69, 0xda, 0x61, 0x6a, 0x2d, 0x6b, 0x90,
  0x6c, 0x60, 0x7d, 0x7f, 0x4f, 0x6d, 0x6e, 0x6f, 0xd3, 0x7b, 0xdb, 0x62, 0x77, 0x78, 0x79, 0x90,
  0x8e, 0xb2, 0x8a, 0x96, 0x88, 0x8c, 0xa4, 0xa2, 0x98, 0x9e, 0xf8, 0xa0, 0xaa, 0xb8, 0xb0, 0xbe,
  0xe1, 0xc4, 0xc6, 0xca, 0xce, 0xd0, 0xcc, 0x63, 0xec, 0xbc, 0xde, 0xea, 0xe8, 0xfa, 0xfc, 0xe0,
  0x8e, 0xb2, 0x8a, 0x96, 0x88, 0x8c, 0xa4, 0xa2, 0x98, 0x9e, 0xf8, 0xa0, 0xaa, 0xb8, 0xb0, 0xbe,
  0xe1, 0xc4, 0xc6, 0xca, 0xce, 0xd0, 0xcc, 0x64, 0xec, 0xbc, 0xde, 0xea, 0xe8, 0xfa, 0xfc, 0x52]

/-- latin7_general_ci, a compiled collation with the simple 8-bit handler and
a space as `pad_char`. -/
def latin7GeneralCi : SimpleCollation :=
  ⟨fun c => sortOrderLatin7GeneralCi.getD c.toNat 0, 0x20⟩

theorem myStrnxfrmSimple_latin7 :
    myStrnncollspSimple latin7GeneralCi [] [0x20] = 0 ∧
      myStrnxfrmSimple latin7GeneralCi 1 1 [] myStrxfrmPadWithSpace = [0x20] ∧
      myStrnxfrmSimple latin7GeneralCi 1 1 [0x20] myStrxfrmPadWithSpace = [0x30] ∧
      memcmp [0x20] [0x30] = .lt ∧
      myStrnncollspSimple latin7GeneralCi [0x78] [0x78, 0x81] = 1 ∧
      myStrnxfrmSimple latin7GeneralCi 2 2 [0x78] myStrxfrmPadWithSpace = [0xf2, 0x20] ∧
      myStrnxfrmSimple latin7GeneralCi 2 2 [0x78, 0x81] myStrxfrmPadWithSpace = [0xf2, 0x21] ∧
      memcmp [0xf2, 0x20] [0xf2, 0x21] = .lt := by
  refine ⟨rfl, rfl, rfl, rfl, rfl, rfl, rfl, rfl⟩

end MariaDB.Ctype
