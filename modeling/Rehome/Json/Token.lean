/-!
# JSON tokens — the words of a JSON text

`tokens?` cuts a text into brackets, commas, colons, numbers, strings and the three words, and
leaves out the blanks between them. A string is read in two steps: first into characters and
escaped codes, then codes of surrogate pairs are joined. A string with an unpaired code is still a
token, but one without a text.

Each reading step gives what is left of the text, which is never longer than before
(`length_token?_le`); so cutting up a text ends.
-/

namespace Rehome.Json

/-- A word of a JSON text. -/
inductive Token where
  | openArray
  | closeArray
  | openObject
  | closeObject
  | comma
  | colon
  | null
  | bool (value : Bool)
  | number (text : String)
  | string (text : Option String)
  deriving DecidableEq

namespace Token

/-! ## Strings -/

/-- A part of a string: a character, or the code of an escape with four digits. -/
inductive Piece where
  | plain (c : Char)
  | code (n : Nat)

/-- The value of a hexadecimal digit of either case. -/
def hexValue? (c : Char) : Option Nat :=
  if '0' ≤ c ∧ c ≤ '9' then some (c.toNat - '0'.toNat)
  else if 'a' ≤ c ∧ c ≤ 'f' then some (c.toNat - 'a'.toNat + 10)
  else if 'A' ≤ c ∧ c ≤ 'F' then some (c.toNat - 'A'.toNat + 10)
  else none

/-- The code that four hexadecimal digits stand for. -/
def code? (a b c d : Char) : Option Nat := do
  return (((← hexValue? a) * 16 + (← hexValue? b)) * 16 + (← hexValue? c)) * 16 + (← hexValue? d)

/-- The character of an escape with one letter. -/
def letter? (c : Char) : Option Char :=
  if c = '"' ∨ c = '\\' ∨ c = '/' then some c
  else if c = 'b' then some '\x08'
  else if c = 'f' then some '\x0c'
  else if c = 'n' then some '\n'
  else if c = 'r' then some '\r'
  else if c = 't' then some '\t'
  else none

/-- Read the pieces of a string up to its closing quote. Control characters below the blank have
    to be escaped. -/
def pieces? (before : List Piece) : List Char → Option (List Piece × List Char)
  | [] => none
  | '"' :: cs => some (before.reverse, cs)
  | '\\' :: 'u' :: a :: b :: c :: d :: cs =>
    match code? a b c d with
    | some n => pieces? (.code n :: before) cs
    | none => none
  | '\\' :: c :: cs =>
    match letter? c with
    | some x => pieces? (.plain x :: before) cs
    | none => none
  | c :: cs => if c.toNat < 32 then none else pieces? (.plain c :: before) cs

/-- Codes of the first halves of surrogate pairs. -/
def isHigh (n : Nat) : Bool := 0xd800 ≤ n && n < 0xdc00

/-- Codes of the second halves of surrogate pairs. -/
def isLow (n : Nat) : Bool := 0xdc00 ≤ n && n < 0xe000

/-- The text of a string, in which the two codes of a surrogate pair are one character. Half a
    pair is none. -/
def join? (before : List Char) : List Piece → Option (List Char)
  | [] => some before.reverse
  | .plain c :: pieces => join? (c :: before) pieces
  | .code n :: .code m :: pieces =>
    if isHigh n then
      if isLow m then
        join? (Char.ofNat (0x10000 + (n - 0xd800) * 0x400 + (m - 0xdc00)) :: before) pieces
      else none
    else if isLow n then none
    else join? (Char.ofNat n :: before) (.code m :: pieces)
  | .code n :: pieces =>
    if isHigh n || isLow n then none else join? (Char.ofNat n :: before) pieces

/-! ## Numbers -/

/-- A row of at least one digit, and what follows. -/
def digits? (cs : List Char) : Option (List Char × List Char) :=
  let ds := cs.takeWhile Char.isDigit
  if ds = [] then none else some (ds, cs.dropWhile Char.isDigit)

/-- The whole part of a number: a zero, or digits that do not start with one. -/
def whole? (cs : List Char) : Option (List Char × List Char) :=
  match digits? cs with
  | some (d :: ds, rest) => if d = '0' ∧ ds ≠ [] then none else some (d :: ds, rest)
  | _ => none

/-- The fraction of a number, which may be missing. -/
def fraction? : List Char → Option (List Char × List Char)
  | '.' :: cs => (digits? cs).map fun (ds, rest) => ('.' :: ds, rest)
  | cs => some ([], cs)

/-- The exponent of a number, which may be missing. -/
def exponent? : List Char → Option (List Char × List Char)
  | [] => some ([], [])
  | c :: cs =>
    if c = 'e' ∨ c = 'E' then
      match cs with
      | '+' :: cs => (digits? cs).map fun (ds, rest) => (c :: '+' :: ds, rest)
      | '-' :: cs => (digits? cs).map fun (ds, rest) => (c :: '-' :: ds, rest)
      | cs => (digits? cs).map fun (ds, rest) => (c :: ds, rest)
    else some ([], c :: cs)

/-- A number without its sign. -/
def unsigned? (cs : List Char) : Option (List Char × List Char) := do
  let (whole, cs) ← whole? cs
  let (fraction, cs) ← fraction? cs
  let (exponent, cs) ← exponent? cs
  return (whole ++ fraction ++ exponent, cs)

/-! ## Texts -/

/-- The blanks between words. -/
def isBlank (c : Char) : Bool := c = ' ' || c = '\t' || c = '\n' || c = '\r'

/-- The word that starts with a character, and what follows it. -/
def token? (c : Char) (cs : List Char) : Option (Token × List Char) :=
  match c, cs with
  | '[', cs => some (.openArray, cs)
  | ']', cs => some (.closeArray, cs)
  | '{', cs => some (.openObject, cs)
  | '}', cs => some (.closeObject, cs)
  | ',', cs => some (.comma, cs)
  | ':', cs => some (.colon, cs)
  | 'n', 'u' :: 'l' :: 'l' :: cs => some (.null, cs)
  | 't', 'r' :: 'u' :: 'e' :: cs => some (.bool true, cs)
  | 'f', 'a' :: 'l' :: 's' :: 'e' :: cs => some (.bool false, cs)
  | '"', cs =>
    (pieces? [] cs).map fun (pieces, rest) => (.string ((join? [] pieces).map String.ofList), rest)
  | '-', cs => (unsigned? cs).map fun (text, rest) => (.number (String.ofList ('-' :: text)), rest)
  | c, cs =>
    if c.isDigit then
      (unsigned? (c :: cs)).map fun (text, rest) => (.number (String.ofList text), rest)
    else none

theorem length_pieces?_le {cs rest : List Char} {before pieces : List Piece}
    (h : pieces? before cs = some (pieces, rest)) : rest.length ≤ cs.length := by
  fun_induction pieces? before cs <;> simp_all <;> omega

theorem length_digits?_lt {cs ds rest : List Char} (h : digits? cs = some (ds, rest)) :
    rest.length < cs.length := by
  unfold digits? at h
  simp only [] at h
  split at h
  · exact absurd h (by simp)
  · rename_i hne
    have hrest : cs.dropWhile Char.isDigit = rest := by simp_all
    have hsum := congrArg List.length
      (List.takeWhile_append_dropWhile (p := Char.isDigit) (l := cs))
    have hpos : 0 < (cs.takeWhile Char.isDigit).length := List.length_pos_iff.mpr hne
    rw [List.length_append, hrest] at hsum
    omega

theorem length_whole?_lt {cs ds rest : List Char} (h : whole? cs = some (ds, rest)) :
    rest.length < cs.length := by
  unfold whole? at h
  split at h
  · rename_i d ds' rest' hd
    split at h
    · exact absurd h (by simp)
    · simp only [Option.some.injEq, Prod.mk.injEq] at h
      exact h.2 ▸ length_digits?_lt hd
  · exact absurd h (by simp)

theorem length_fraction?_le {cs ds rest : List Char} (h : fraction? cs = some (ds, rest)) :
    rest.length ≤ cs.length := by
  unfold fraction? at h
  split at h
  · obtain ⟨⟨ds', rest'⟩, hd, he⟩ := Option.map_eq_some_iff.mp h
    simp only [Prod.mk.injEq] at he
    have := length_digits?_lt hd
    rw [he.2] at this
    simp only [List.length_cons]
    omega
  · simp only [Option.some.injEq, Prod.mk.injEq] at h
    exact Nat.le_of_eq (congrArg List.length h.2.symm)

theorem length_exponent?_le {cs ds rest : List Char} (h : exponent? cs = some (ds, rest)) :
    rest.length ≤ cs.length := by
  unfold exponent? at h
  split at h
  · simp_all
  · split at h
    · split at h <;>
        · obtain ⟨⟨ds', rest'⟩, hd, he⟩ := Option.map_eq_some_iff.mp h
          simp only [Prod.mk.injEq] at he
          have := length_digits?_lt hd
          rw [he.2] at this
          simp only [List.length_cons] at this ⊢
          omega
    · simp only [Option.some.injEq, Prod.mk.injEq] at h
      exact Nat.le_of_eq (congrArg List.length h.2.symm)

theorem length_unsigned?_lt {cs text rest : List Char} (h : unsigned? cs = some (text, rest)) :
    rest.length < cs.length := by
  unfold unsigned? at h
  simp only [bind, Option.bind_eq_some_iff, pure, Prod.exists] at h
  obtain ⟨w, r₁, hw, f, r₂, hf, e, r₃, he, hr⟩ := h
  simp only [Option.some.injEq, Prod.mk.injEq] at hr
  have h₁ := length_whole?_lt hw
  have h₂ := length_fraction?_le hf
  have h₃ := length_exponent?_le he
  rw [hr.2] at h₃
  omega

/-- Reading a word takes its first character at least. -/
theorem length_token?_le {c : Char} {cs rest : List Char} {t : Token}
    (h : token? c cs = some (t, rest)) : rest.length ≤ cs.length := by
  unfold token? at h
  split at h
  case h_10 =>
    obtain ⟨⟨pieces, rest'⟩, hp, he⟩ := Option.map_eq_some_iff.mp h
    simp only [Prod.mk.injEq] at he
    exact he.2 ▸ length_pieces?_le hp
  case h_11 =>
    obtain ⟨⟨text, rest'⟩, hp, he⟩ := Option.map_eq_some_iff.mp h
    simp only [Prod.mk.injEq] at he
    exact Nat.le_of_lt (he.2 ▸ length_unsigned?_lt hp)
  case h_12 =>
    split at h
    · obtain ⟨⟨text, rest'⟩, hp, he⟩ := Option.map_eq_some_iff.mp h
      simp only [Prod.mk.injEq] at he
      have := length_unsigned?_lt hp
      rw [he.2, List.length_cons] at this
      omega
    · exact absurd h (by simp)
  all_goals
    have hrest := (Prod.mk.inj (Option.some.inj h)).2
    grind

end Token

/-- Cut a text into its words, put after those that came before in reverse. -/
def tokensAfter? (before : List Token) : List Char → Option (List Token)
  | [] => some before.reverse
  | c :: cs =>
    if Token.isBlank c then tokensAfter? before cs
    else
      match _h : Token.token? c cs with
      | some (t, rest) => tokensAfter? (t :: before) rest
      | none => none
termination_by cs => cs.length
decreasing_by
  · exact Nat.lt_succ_self _
  · exact Nat.lt_succ_of_le (Token.length_token?_le _h)

/-- The words of a text. -/
def tokens? (cs : List Char) : Option (List Token) := tokensAfter? [] cs

end Rehome.Json
