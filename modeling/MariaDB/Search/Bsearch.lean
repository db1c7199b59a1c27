set_option autoImplicit false

/- The C library's `bsearch` as glibc writes it: over the indices `[l, u)` of
an array of `nmemb` elements it compares the key with the middle element,
keeps the half that can hold it and returns the first index it finds equal.
The comparison of the key with the element at an index is a parameter, so
the array, its element size and the comparison function stay with the caller. -/
namespace Bsearch

variable (compar : Nat → Ordering)

/-- `while (l < u) { idx = (l + u) / 2; comparison = compar(key, base + idx);
if (comparison < 0) u = idx; else if (comparison > 0) l = idx + 1; else return p; }`;
`u - l` is fuel enough, as every round narrows the range. -/
def loop : Nat → Nat → Nat → Option Nat
  | 0, _, _ => none
  | fuel + 1, l, u =>
    if l < u then
      match compar ((l + u) / 2) with
      | .lt => loop fuel l ((l + u) / 2)
      | .gt => loop fuel ((l + u) / 2 + 1) u
      | .eq => some ((l + u) / 2)
    else none

/-- `bsearch(key, base, nmemb, size, compar)`: the index of an element equal
to the key, or `none` for `NULL`. -/
def bsearch (nmemb : Nat) : Option Nat := loop compar nmemb 0 nmemb

end Bsearch
