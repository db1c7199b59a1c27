import MariaDB.Decimal.Basic

set_option autoImplicit false

/- `my_strtoll10` of strings/my_strtoll10.c, with which `internal_str2dec`
reads an exponent, and the latin1 character classes both use. The string is
the characters from `nptr` to `*endptr`; the function skips spaces, reads a
sign, skips leading zeros and gathers at most twenty digits in three groups
(`i`, `j`, `k`), checking the last group against the cut-offs of the sign. -/
namespace MariaDB.Decimal

/-- `my_isspace(&my_charset_latin1, c)`: tab to carriage return, space and the
no-break space. -/
def latin1IsSpace (c : UInt8) : Bool := (9 ≤ c && c ≤ 13) || c = 32 || c = 160

/-- `my_isdigit(&my_charset_latin1, c)`. -/
def latin1IsDigit (c : UInt8) : Bool := '0'.toUInt8 ≤ c && c ≤ '9'.toUInt8

/-- `*s - '0'` for a digit `*s`. -/
def digitValue (c : UInt8) : Nat := c.toNat - '0'.toNat

/-- `MY_ERRNO_EDOM`. -/
def myErrnoEdom : Int := 33

/-- `MY_ERRNO_ERANGE`. -/
def myErrnoErange : Int := 34

/-- The `ulonglong` `x` cast to `longlong`. -/
def toLonglong (x : Nat) : Int := if x < 2 ^ 63 then x else x - 2 ^ 64

/-- The digit loops of `my_strtoll10`: at most `n` digits gathered into `acc`,
the rest of the string, and whether the loop ran to its count or to the end of
the string rather than stopping at a character that is not a digit. -/
def gatherDigits : Nat → Nat → List UInt8 → Nat × List UInt8 × Bool
  | 0, acc, s => (acc, s, true)
  | _ + 1, acc, [] => (acc, [], true)
  | n + 1, acc, c :: cs =>
    if latin1IsDigit c then gatherDigits n (acc * 10 + digitValue c) cs else (acc, c :: cs, false)

theorem gatherDigits_succ_cons (n acc : Nat) (c : UInt8) (cs : List UInt8) :
    gatherDigits (n + 1) acc (c :: cs) =
      if latin1IsDigit c then gatherDigits n (acc * 10 + digitValue c) cs else (acc, c :: cs, false) := rfl

/-- `my_strtoll10(nptr, &endptr, &error)` on the characters `str` from `nptr`
to `*endptr`: the value returned, the characters read (`*endptr - nptr`), and
`*error`. -/
def myStrtoll10 (str : List UInt8) : Int × Nat × Int :=
  let endp (rest : List UInt8) : Nat := str.length - rest.length
  let noConv : Int × Nat × Int := (0, 0, myErrnoEdom)
  match str.dropWhile latin1IsSpace with
  | [] => noConv
  | c :: cs =>
    let negative := c = '-'.toUInt8
    let error : Int := if negative then -1 else 0
    let (cutoff, cutoff2, cutoff3) :=
      if negative then (2 ^ 63 / 10 ^ 11, 2 ^ 63 % 10 ^ 11 / 100, 2 ^ 63 % 100)
      else ((2 ^ 64 - 1) / 10 ^ 11, (2 ^ 64 - 1) % 10 ^ 11 / 100, (2 ^ 64 - 1) % 100)
    let signed (li : Nat) : Int := if negative then -(li : Int) else li
    let overflow (rest : List UInt8) : Int × Nat × Int :=
      (if negative then -2 ^ 63 else toLonglong (2 ^ 64 - 1), endp rest, myErrnoErange)
    let s := if negative ∨ c = '+'.toUInt8 then cs else c :: cs
    match s with
    | [] => noConv
    | d :: ds =>
      -- the first group: a run of zeros and nine digits, or a first digit and eight
      let first : Option (Nat × List UInt8 × Bool) :=
        if d = '0'.toUInt8 then
          match ds.dropWhile (· = '0'.toUInt8) with
          | [] => some (0, [], true)
          | rest => some (gatherDigits 9 0 rest)
        else if latin1IsDigit d then some (gatherDigits 8 (digitValue d) ds)
        else none
      match first with
      | none => noConv
      | some (i, rest, full) =>
        if ¬full ∨ rest = [] then (signed i, endp rest, error)
        else
          let (j, rest2, fullJ) := gatherDigits 9 0 rest
          let count := rest.length - rest2.length
          if ¬fullJ ∨ (rest2 = [] ∧ count ≠ 9) then (signed (i * 10 ^ count + j), endp rest2, error)
          else
            match rest2 with
            | [] => (signed (i * 10 ^ 9 + j), endp rest2, error)
            | e :: es =>
              if ¬latin1IsDigit e then (signed (i * 10 ^ 9 + j), endp rest2, error)
              else
                -- `end4`: nineteen digits, the last one in `k`
                let end4 : Int × Nat × Int :=
                  let li : Nat := i * 10 ^ 10 + j * 10 + digitValue e
                  if negative then
                    if 2 ^ 63 < li then overflow es else (-(li : Int), endp es, error)
                  else (toLonglong li, endp es, error)
                match es with
                | f :: fs =>
                  if latin1IsDigit f then
                    let k := digitValue e * 10 + digitValue f
                    -- number string should have ended here
                    if (match fs with | g :: _ => latin1IsDigit g | [] => false) then overflow fs
                    else if cutoff < i ∨ (i = cutoff ∧ (cutoff2 < j ∨ (j = cutoff2 ∧ cutoff3 < k)))
                    then overflow fs
                    else (toLonglong (i * 10 ^ 11 + j * 100 + k), endp fs, error)
                  else end4
                | [] => end4

end MariaDB.Decimal
