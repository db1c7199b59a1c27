import Mathlib.Data.List.Basic

set_option autoImplicit false

/- Wildcard patterns of the SQL LIKE kind. A pattern is a list of tokens: a
literal, a wildcard for one element, or one for any run of elements.
Literals are compared through a key, so that elements a collation weighs
alike match each other. A written pattern is a list of elements in which two
elements are the wildcards and a third escapes the element after it;
`tokenize` reads it. -/
namespace Wildcard

/-- A token of a pattern. -/
inductive Token (α : Type) where
  | lit (c : α)
  | one
  | many
  deriving DecidableEq, Repr

section Accepts

variable {α β : Type} [DecidableEq β] (key : α → β)

/-- Whether the pattern matches the whole of `s`. -/
def accepts : List (Token α) → List α → Bool
  | [], s => s.isEmpty
  | .lit _ :: _, [] => false
  | .lit d :: p, c :: s => key c == key d && accepts p s
  | .one :: _, [] => false
  | .one :: p, _ :: s => accepts p s
  | .many :: p, s => s.tails.any (accepts p)

/-- No suffix of `s` matches the pattern: a search for it that may start
anywhere in `s` fails. -/
def NoSuffix (p : List (Token α)) (s : List α) : Prop := ∀ j, accepts key p (s.drop j) = false

variable {key} {p q : List (Token α)} {s t : List α} {c x : α}

@[simp] theorem accepts_nil_left : accepts key [] s = s.isEmpty := rfl

@[simp] theorem accepts_lit_nil : accepts key (.lit x :: p) [] = false := rfl

@[simp] theorem accepts_lit_cons :
    accepts key (.lit x :: p) (c :: s) = (key c == key x && accepts key p s) := rfl

@[simp] theorem accepts_one_nil : accepts key (.one :: p) [] = false := rfl

@[simp] theorem accepts_one_cons : accepts key (.one :: p) (c :: s) = accepts key p s := rfl

theorem accepts_many : accepts key (.many :: p) s = s.tails.any (accepts key p) := rfl

@[simp] theorem accepts_many_nil : accepts key (.many :: p) [] = accepts key p [] := by
  simp [accepts_many]

theorem accepts_many_cons :
    accepts key (.many :: p) (c :: s) = (accepts key p (c :: s) || accepts key (.many :: p) s) := by
  simp [accepts_many, List.tails]

/-- A run wildcard matches where the rest of the pattern matches a suffix. -/
theorem accepts_many_iff : accepts key (.many :: p) s = true ↔ ∃ j, accepts key p (s.drop j) = true := by
  induction s with
  | nil => simp
  | cons c s ih =>
    rw [accepts_many_cons, Bool.or_eq_true, ih]
    constructor
    · rintro (h | ⟨j, hj⟩)
      · exact ⟨0, h⟩
      · exact ⟨j + 1, hj⟩
    · rintro ⟨j, hj⟩
      cases j with
      | zero => exact Or.inl hj
      | succ j => exact Or.inr ⟨j, hj⟩

theorem noSuffix_iff_many : NoSuffix key p s ↔ accepts key (.many :: p) s = false := by
  rw [NoSuffix, ← Bool.not_eq_true, accepts_many_iff, not_exists]
  simp only [Bool.not_eq_true]

theorem accepts_many_many : accepts key (.many :: .many :: p) s = accepts key (.many :: p) s := by
  rw [Bool.eq_iff_iff, accepts_many_iff, accepts_many_iff]
  constructor
  · rintro ⟨j, hj⟩
    obtain ⟨k, hk⟩ := accepts_many_iff.mp hj
    exact ⟨j + k, by rwa [List.drop_drop] at hk⟩
  · rintro ⟨j, hj⟩
    exact ⟨j, accepts_many_iff.mpr ⟨0, hj⟩⟩

theorem noSuffix_many : NoSuffix key (.many :: p) s ↔ NoSuffix key p s := by
  rw [noSuffix_iff_many, noSuffix_iff_many, accepts_many_many]

@[simp] theorem accepts_many_one_nil : accepts key (.many :: .one :: p) [] = false := rfl

/-- A one-element wildcard after a run wildcard takes the first element. -/
theorem accepts_many_one_cons :
    accepts key (.many :: .one :: p) (c :: s) = accepts key (.many :: p) s := by
  induction s generalizing c with
  | nil => rw [accepts_many_cons, accepts_one_cons, accepts_many_one_nil, Bool.or_false, accepts_many_nil]
  | cons d s ih => rw [accepts_many_cons, accepts_one_cons, ih, ← accepts_many_cons]

theorem NoSuffix.cons_of_step {P : List (Token α)} (hnil : accepts key P [] = false)
    (hstep : ∀ d u, accepts key P (d :: u) = true → accepts key q u = true) (h : NoSuffix key q s) :
    NoSuffix key P (c :: s) := by
  intro j
  cases j with
  | zero =>
    rw [List.drop_zero, ← Bool.not_eq_true]
    exact fun hP => Bool.false_ne_true ((h 0).symm.trans (hstep c s hP))
  | succ j =>
    rw [List.drop_succ_cons]
    cases hs : s.drop j with
    | nil => exact hnil
    | cons d u =>
      rw [← Bool.not_eq_true]
      intro hP
      have hu : u = s.drop (j + 1) := by rw [← List.drop_drop, hs]; rfl
      rw [hu] at hP
      exact Bool.false_ne_true ((h (j + 1)).symm.trans (hstep d _ hP))

theorem noSuffix_nil : NoSuffix key p [] ↔ accepts key p [] = false := by
  constructor
  · exact fun h => h 0
  · intro h j
    rwa [List.drop_nil]

end Accepts

section Tokenize

variable {α : Type} [DecidableEq α] (escape wOne wMany : α)

/-- The tokens of a written pattern: `wOne` and `wMany` are the wildcards, an
`escape` makes the element after it a literal, and an `escape` at the end is
a literal itself. -/
def tokenize : List α → List (Token α)
  | [] => []
  | w :: rest =>
    if w = wOne then .one :: tokenize rest
    else if w = wMany then .many :: tokenize rest
    else if w = escape then
      match rest with
      | [] => [.lit w]
      | x :: rest => .lit x :: tokenize rest
    else .lit w :: tokenize rest

variable {escape wOne wMany} {w x : α} {rest : List α}

@[simp] theorem tokenize_nil : tokenize escape wOne wMany [] = [] := rfl

theorem tokenize_cons :
    tokenize escape wOne wMany (w :: rest) =
      if w = wOne then .one :: tokenize escape wOne wMany rest
      else if w = wMany then .many :: tokenize escape wOne wMany rest
      else if w = escape then
        match rest with
        | [] => [.lit w]
        | x :: rest => .lit x :: tokenize escape wOne wMany rest
      else .lit w :: tokenize escape wOne wMany rest := by
  -- the equation lemmas split on `rest` already; unfold the first element only
  conv_lhs => rw [tokenize.eq_def]

theorem tokenize_one : tokenize escape wOne wMany (wOne :: rest) = .one :: tokenize escape wOne wMany rest := by
  rw [tokenize_cons, if_pos rfl]

theorem tokenize_many (h : wMany ≠ wOne) :
    tokenize escape wOne wMany (wMany :: rest) = .many :: tokenize escape wOne wMany rest := by
  rw [tokenize_cons, if_neg h, if_pos rfl]

theorem tokenize_escape_cons (h1 : escape ≠ wOne) (h2 : escape ≠ wMany) :
    tokenize escape wOne wMany (escape :: x :: rest) = .lit x :: tokenize escape wOne wMany rest := by
  rw [tokenize_cons, if_neg h1, if_neg h2, if_pos rfl]

theorem tokenize_escape_nil (h1 : escape ≠ wOne) (h2 : escape ≠ wMany) :
    tokenize escape wOne wMany [escape] = [.lit escape] := by
  rw [tokenize_cons, if_neg h1, if_neg h2, if_pos rfl]

theorem tokenize_lit (h1 : w ≠ wOne) (h2 : w ≠ wMany) (h3 : w ≠ escape) :
    tokenize escape wOne wMany (w :: rest) = .lit w :: tokenize escape wOne wMany rest := by
  rw [tokenize_cons, if_neg h1, if_neg h2, if_neg h3]

/-- A pattern that does not start with a wildcard starts with a literal, which
the empty subject does not match. -/
theorem accepts_tokenize_cons_nil {β : Type} [DecidableEq β] {key : α → β} (h1 : w ≠ wOne) (h2 : w ≠ wMany) :
    accepts key (tokenize escape wOne wMany (w :: rest)) [] = false := by
  by_cases h3 : w = escape
  · rw [tokenize_cons, if_neg h1, if_neg h2, if_pos h3]
    -- an escape reads the next element as a literal, or is a literal at the end
    cases rest <;> rfl
  · rw [tokenize_lit h1 h2 h3, accepts_lit_nil]

end Tokenize

end Wildcard
