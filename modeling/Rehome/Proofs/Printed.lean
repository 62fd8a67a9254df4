import Rehome.Json.Reader

/-!
# Printed values — what is printed is read back

Reading undoes printing in three steps, one for each step of the reader. Inside quotes every character
is read as one piece, itself or the code of its escape, and the pieces are joined to the text again
(`pieces?_flatMap`, `join?_map_ofChar`). A printed value is cut into its words, and all that a layout
adds are blanks between them (`tokensAfter?_write`). The words of a value are read as this value,
whatever is open around it (`steps_words`).

Together (`read?_write`): a printed value is read back, in any layout of blanks. Numbers are kept as
they are written, so the law is about values without numbers, as all documents here are.
-/

namespace Rehome.Json

/-! ## Strings -/

namespace Token

/-- The control characters that are escaped by a letter. -/
def lettered : List Char := ['\x08', '\x0c', '\n', '\r', '\t']

/-- How a printed character is read: as itself, or as the code of its escape. -/
def Piece.ofChar (c : Char) : Piece :=
  if c.toNat < 32 ∧ ¬ c ∈ lettered then .code c.toNat else .plain c

theorem hexValue?_hexDigit : ∀ n < 16, hexValue? (hexDigit n) = some n := by
  decide

theorem pieces?_letter {c x : Char} (h : letter? c = some x) (before : List Piece)
    (cs : List Char) :
    pieces? before ('\\' :: c :: cs) = pieces? (.plain x :: before) cs := by
  have hu : c ≠ 'u' := by
    intro hu
    rw [hu] at h
    exact nomatch h
  rw [pieces?.eq_def]
  simp [hu, h]

theorem pieces?_code {a b c d : Char} {n : Nat} (h : code? a b c d = some n) (before : List Piece)
    (cs : List Char) :
    pieces? before ('\\' :: 'u' :: a :: b :: c :: d :: cs) = pieces? (.code n :: before) cs := by
  rw [pieces?.eq_def]
  simp [h]

theorem pieces?_plain {c : Char} (hquote : c ≠ '"') (hslash : c ≠ '\\') (hcontrol : ¬ c.toNat < 32)
    (before : List Piece) (cs : List Char) :
    pieces? before (c :: cs) = pieces? (.plain c :: before) cs := by
  rw [pieces?.eq_def]
  simp [hslash, hcontrol]

theorem code?_control {n : Nat} (h : n < 32) :
    code? '0' '0' (hexDigit (n / 16)) (hexDigit (n % 16)) = some n := by
  have hhigh := hexValue?_hexDigit (n / 16) (by omega)
  have hlow := hexValue?_hexDigit (n % 16) (Nat.mod_lt n (by decide))
  have hzero : hexValue? '0' = some 0 := rfl
  have hsplit := Nat.div_add_mod' n 16
  simp [code?, hzero, hhigh, hlow]
  omega

/-- A printed character is read as one piece. -/
theorem pieces?_escapeChar (c : Char) (before : List Piece) (cs : List Char) :
    pieces? before (escapeChar c ++ cs) = pieces? (.ofChar c :: before) cs := by
  rw [escapeChar, Piece.ofChar]
  by_cases hquote : c = '"'
  · subst hquote
    exact pieces?_letter rfl before cs
  by_cases hslash : c = '\\'
  · subst hslash
    exact pieces?_letter rfl before cs
  rw [if_neg hquote, if_neg hslash]
  by_cases hletter : c ∈ lettered
  · simp only [lettered, List.mem_cons, List.not_mem_nil, or_false] at hletter
    rcases hletter with rfl | rfl | rfl | rfl | rfl
    · exact @pieces?_letter 'b' '\x08' rfl before cs
    · exact @pieces?_letter 'f' '\x0c' rfl before cs
    · exact @pieces?_letter 'n' '\n' rfl before cs
    · exact @pieces?_letter 'r' '\r' rfl before cs
    · exact @pieces?_letter 't' '\t' rfl before cs
  · have hnone := hletter
    simp only [lettered, List.mem_cons, List.not_mem_nil, or_false, not_or] at hnone
    obtain ⟨h8, h12, hn, hr, ht⟩ := hnone
    rw [if_neg h8, if_neg h12, if_neg hn, if_neg hr, if_neg ht]
    by_cases hcontrol : c.toNat < 32
    · rw [if_pos hcontrol, if_pos ⟨hcontrol, hletter⟩]
      exact pieces?_code (code?_control hcontrol) before cs
    · rw [if_neg hcontrol, if_neg fun h => hcontrol h.1]
      exact pieces?_plain hquote hslash hcontrol before cs

theorem pieces?_flatMap (text : List Char) (before : List Piece) (cs : List Char) :
    pieces? before (text.flatMap escapeChar ++ '"' :: cs) =
      some (before.reverse ++ text.map .ofChar, cs) := by
  induction text generalizing before with
  | nil =>
      rw [List.flatMap_nil, List.nil_append, pieces?, List.map_nil, List.append_nil]
  | cons c text ih =>
      rw [List.flatMap_cons, List.append_assoc, pieces?_escapeChar, ih]
      simp

theorem join?_code {n : Nat} (hn : n < 0xd800) (before : List Char) (pieces : List Piece) :
    join? before (.code n :: pieces) = join? (Char.ofNat n :: before) pieces := by
  have hhigh : isHigh n = false := by
    simp [isHigh]
    omega
  have hlow : isLow n = false := by
    simp [isLow]
    omega
  cases pieces with
  | nil => simp [join?, hhigh, hlow]
  | cons piece pieces => cases piece <;> simp [join?, hhigh, hlow]

/-- Pieces of characters are joined to these. -/
theorem join?_map_ofChar (text before : List Char) :
    join? before (text.map .ofChar) = some (before.reverse ++ text) := by
  induction text generalizing before with
  | nil => simp [join?]
  | cons c text ih =>
      have hfirst : join? before (Piece.ofChar c :: text.map .ofChar) =
          join? (c :: before) (text.map .ofChar) := by
        rw [Piece.ofChar]
        by_cases h : c.toNat < 32 ∧ ¬ c ∈ lettered
        · rw [if_pos h, join?_code (Nat.lt_trans h.1 (by decide)), Char.ofNat_toNat]
        · rw [if_neg h, join?]
      rw [List.map_cons, hfirst, ih]
      simp

theorem token?_quote (cs : List Char) :
    token? '"' cs = (pieces? [] cs).map fun (pieces, rest) =>
      (.string ((join? [] pieces).map String.ofList), rest) := rfl

end Token

/-- A printed string is one word, whatever follows it. A string that stands for no text is one, too. -/
theorem token?_quote_some (text : Option String) (cs : List Char) :
    ∃ body, quote text ++ cs = '"' :: body ∧ Token.token? '"' body = some (.string text, cs) := by
  cases text with
  | none => exact ⟨_, rfl, rfl⟩
  | some text =>
      refine ⟨text.toList.flatMap escapeChar ++ '"' :: cs, ?_, ?_⟩
      · show '"' :: (text.toList.flatMap escapeChar ++ ['"']) ++ cs = _
        simp
      · rw [Token.token?_quote, Token.pieces?_flatMap]
        simp [Token.join?_map_ofChar]

/-! ## The words of a value -/

mutual

/-- The words of a value. -/
def words : Json → List Token
  | .null => [.null]
  | .bool b => [.bool b]
  | .number text => [.number text]
  | .string text => [.string text]
  | .array [] => [.openArray, .closeArray]
  | .array (item :: items) =>
    .openArray :: (words item ++ (wordsOfItems items ++ [.closeArray]))
  | .object [] => [.openObject, .closeObject]
  | .object ((name, value) :: members) =>
    .openObject :: .string name :: .colon ::
      (words value ++ (wordsOfMembers members ++ [.closeObject]))

/-- The words of the items after the first. -/
def wordsOfItems : List Json → List Token
  | [] => []
  | item :: items => .comma :: (words item ++ wordsOfItems items)

/-- The words of the members after the first. -/
def wordsOfMembers : List (Option String × Json) → List Token
  | [] => []
  | (name, value) :: members =>
    .comma :: .string name :: .colon :: (words value ++ wordsOfMembers members)

end

mutual

/-- No part of a value is a number. -/
def Numberless : Json → Prop
  | .number _ => False
  | .array items => NumberlessItems items
  | .object members => NumberlessMembers members
  | _ => True

/-- None of some values has a number in it. -/
def NumberlessItems : List Json → Prop
  | [] => True
  | item :: items => Numberless item ∧ NumberlessItems items

/-- None of the values of some members has a number in it. -/
def NumberlessMembers : List (Option String × Json) → Prop
  | [] => True
  | (_, value) :: members => Numberless value ∧ NumberlessMembers members

end

/-! ## From words to the value -/

/-- Taking words one by one. -/
abbrev Reading.steps (words : List Token) (r : Reading) : Option Reading := words.foldlM step r

open Reading (steps)

theorem steps_append (first second : List Token) (r : Reading) :
    steps (first ++ second) r = (steps first r).bind (steps second) := List.foldlM_append

/-- The first word of a value does not end an array, so a value may come where an item may. -/
theorem steps_item (frames : List Frame) (j : Json) (rest : List Token) :
    steps (words j ++ rest) (.item frames) =
      steps (words j ++ rest) (.value (.array [] :: frames)) := by
  cases j with
  | null => rfl
  | bool b => rfl
  | number text => rfl
  | string text => rfl
  | array items =>
      cases items with
      | nil => rfl
      | cons item items =>
          rw [words]
          rfl
  | object members =>
      cases members with
      | nil => rfl
      | cons member members =>
          rw [words]
          rfl

mutual

/-- The words of a value are read as this value, whatever is open. -/
theorem steps_words (frames : List Frame) :
    ∀ j : Json, steps (words j) (.value frames) = some (.after frames j)
  | .null => rfl
  | .bool _ => rfl
  | .number _ => rfl
  | .string _ => rfl
  | .array [] => rfl
  | .array (item :: items) => by
      rw [words]
      show steps (words item ++ (wordsOfItems items ++ [.closeArray])) (.item frames) = _
      rw [steps_item, steps_append, steps_words _ item, Option.bind_some,
        steps_wordsOfItems frames [] item items]
      rfl
  | .object [] => rfl
  | .object ((name, value) :: members) => by
      rw [words]
      show steps (words value ++ (wordsOfMembers members ++ [.closeObject]))
        (.value (.object [] name :: frames)) = _
      rw [steps_append, steps_words _ value, Option.bind_some,
        steps_wordsOfMembers frames [] name value members]
      rfl

theorem steps_wordsOfItems (frames : List Frame) (before : List Json) (last : Json) :
    ∀ items : List Json,
      steps (wordsOfItems items ++ [.closeArray]) (.after (.array before :: frames) last) =
        some (.after frames (.array ((last :: before).reverse ++ items)))
  | [] => by
      rw [wordsOfItems, List.append_nil]
      rfl
  | item :: items => by
      rw [wordsOfItems]
      show steps (words item ++ wordsOfItems items ++ [.closeArray])
        (.value (.array (last :: before) :: frames)) = _
      rw [List.append_assoc, steps_append, steps_words _ item, Option.bind_some,
        steps_wordsOfItems frames _ item items]
      simp

theorem steps_wordsOfMembers (frames : List Frame) (before : List (Option String × Json))
    (name : Option String) (last : Json) :
    ∀ members : List (Option String × Json),
      steps (wordsOfMembers members ++ [.closeObject])
          (.after (.object before name :: frames) last) =
        some (.after frames (.object (((name, last) :: before).reverse ++ members)))
  | [] => by
      rw [wordsOfMembers, List.append_nil]
      rfl
  | (next, value) :: members => by
      rw [wordsOfMembers]
      show steps (words value ++ wordsOfMembers members ++ [.closeObject])
        (.value (.object ((name, last) :: before) next :: frames)) = _
      rw [List.append_assoc, steps_append, steps_words _ value, Option.bind_some,
        steps_wordsOfMembers frames _ next value members]
      simp

end

theorem ofTokens?_words (j : Json) : ofTokens? (words j) = some j := by
  rw [ofTokens?]
  show (steps (words j) (.value [])).bind Reading.finish = some j
  rw [steps_words]
  rfl

/-! ## From the text to words -/

variable {layout : Layout}

/-- What a layout puts between the parts of a value are blanks. -/
structure Layout.IsBlank (layout : Layout) : Prop where
  lineBreak : ∀ depth, ∀ c ∈ layout.lineBreak depth, Token.isBlank c = true
  afterColon : ∀ c ∈ layout.afterColon, Token.isBlank c = true

theorem Layout.isBlank_compact : compact.IsBlank := by
  constructor
  · intro depth c hc
    exact nomatch hc
  · intro c hc
    exact nomatch hc

theorem Layout.isBlank_pretty : pretty.IsBlank := by
  constructor
  · intro depth c hc
    rcases List.mem_cons.mp hc with rfl | hc
    · rfl
    · rw [List.eq_of_mem_replicate hc]
      rfl
  · intro c hc
    rw [List.mem_singleton.mp hc]
    rfl

theorem tokensAfter?_blanks {blanks : List Char} (h : ∀ c ∈ blanks, Token.isBlank c = true)
    (before : List Token) (cs : List Char) :
    tokensAfter? before (blanks ++ cs) = tokensAfter? before cs := by
  induction blanks with
  | nil => rfl
  | cons c blanks ih =>
      have hc := h c List.mem_cons_self
      rw [List.cons_append, tokensAfter?, if_pos hc]
      exact ih fun d hd => h d (List.mem_cons_of_mem c hd)

theorem tokensAfter?_token {c : Char} {cs rest : List Char} {t : Token}
    (h : Token.token? c cs = some (t, rest)) (hblank : Token.isBlank c = false)
    (before : List Token) :
    tokensAfter? before (c :: cs) = tokensAfter? (t :: before) rest := by
  rw [tokensAfter?, if_neg (by rw [hblank]; decide)]
  split
  · rename_i t' rest' h'
    rw [h] at h'
    cases h'
    rfl
  · rename_i h'
    rw [h] at h'
    cases h'

theorem tokensAfter?_quote (text : Option String) (before : List Token) (cs : List Char) :
    tokensAfter? before (quote text ++ cs) = tokensAfter? (.string text :: before) cs := by
  obtain ⟨body, hquote, htoken⟩ := token?_quote_some text cs
  rw [hquote]
  exact tokensAfter?_token htoken rfl before

mutual

/-- A printed value is cut into its words, and what follows it does not matter. -/
theorem tokensAfter?_write (hlayout : layout.IsBlank) (depth : Nat) (before : List Token)
    (rest : List Char) : ∀ j : Json, j.Numberless →
      tokensAfter? before (j.write layout depth ++ rest) =
        tokensAfter? ((words j).reverse ++ before) rest
  | .null, _ => tokensAfter?_token rfl rfl before
  | .bool true, _ => tokensAfter?_token rfl rfl before
  | .bool false, _ => tokensAfter?_token rfl rfl before
  | .string text, _ => tokensAfter?_quote text before rest
  | .array [], _ => by
      show tokensAfter? before ('[' :: ']' :: rest) = _
      rw [tokensAfter?_token rfl rfl, tokensAfter?_token rfl rfl]
      rfl
  | .array (item :: items), h => by
      obtain ⟨hitem, hitems⟩ : item.Numberless ∧ NumberlessItems items := h
      rw [write, words, List.cons_append, tokensAfter?_token rfl rfl]
      simp only [List.append_assoc]
      rw [tokensAfter?_blanks (hlayout.lineBreak _),
        tokensAfter?_write hlayout (depth + 1) _ _ item hitem,
        tokensAfter?_writeItems hlayout (depth + 1) _ _ items hitems,
        tokensAfter?_blanks (hlayout.lineBreak _), List.singleton_append,
        tokensAfter?_token rfl rfl]
      simp
  | .object [], _ => by
      show tokensAfter? before ('{' :: '}' :: rest) = _
      rw [tokensAfter?_token rfl rfl, tokensAfter?_token rfl rfl]
      rfl
  | .object ((name, value) :: members), h => by
      obtain ⟨hvalue, hmembers⟩ : value.Numberless ∧ NumberlessMembers members := h
      rw [write, words, List.cons_append, tokensAfter?_token rfl rfl]
      simp only [List.append_assoc, List.cons_append]
      rw [tokensAfter?_blanks (hlayout.lineBreak _), tokensAfter?_quote,
        tokensAfter?_token rfl rfl, tokensAfter?_blanks hlayout.afterColon,
        tokensAfter?_write hlayout (depth + 1) _ _ value hvalue,
        tokensAfter?_writeMembers hlayout (depth + 1) _ _ members hmembers,
        tokensAfter?_blanks (hlayout.lineBreak _), List.nil_append,
        tokensAfter?_token rfl rfl]
      simp

theorem tokensAfter?_writeItems (hlayout : layout.IsBlank) (depth : Nat) (before : List Token)
    (rest : List Char) : ∀ items : List Json, NumberlessItems items →
      tokensAfter? before (writeItems layout depth items ++ rest) =
        tokensAfter? ((wordsOfItems items).reverse ++ before) rest
  | [], _ => rfl
  | item :: items, h => by
      obtain ⟨hitem, hitems⟩ : item.Numberless ∧ NumberlessItems items := h
      rw [writeItems, wordsOfItems, List.cons_append, tokensAfter?_token rfl rfl]
      simp only [List.append_assoc]
      rw [tokensAfter?_blanks (hlayout.lineBreak _),
        tokensAfter?_write hlayout depth _ _ item hitem,
        tokensAfter?_writeItems hlayout depth _ _ items hitems]
      simp

theorem tokensAfter?_writeMembers (hlayout : layout.IsBlank) (depth : Nat) (before : List Token)
    (rest : List Char) : ∀ members : List (Option String × Json), NumberlessMembers members →
      tokensAfter? before (writeMembers layout depth members ++ rest) =
        tokensAfter? ((wordsOfMembers members).reverse ++ before) rest
  | [], _ => rfl
  | (name, value) :: members, h => by
      obtain ⟨hvalue, hmembers⟩ : value.Numberless ∧ NumberlessMembers members := h
      rw [writeMembers, wordsOfMembers, List.cons_append, tokensAfter?_token rfl rfl]
      simp only [List.append_assoc, List.cons_append]
      rw [tokensAfter?_blanks (hlayout.lineBreak _), tokensAfter?_quote,
        tokensAfter?_token rfl rfl, tokensAfter?_blanks hlayout.afterColon,
        tokensAfter?_write hlayout depth _ _ value hvalue,
        tokensAfter?_writeMembers hlayout depth _ _ members hmembers]
      simp

end

/-- Whatever the layout, a printed value is read back. Blanks after it do no harm. -/
theorem read?_write {j : Json} (hlayout : layout.IsBlank) (hj : j.Numberless) {after : List Char}
    (hafter : ∀ c ∈ after, Token.isBlank c = true) :
    read? (String.ofList (j.write layout 0 ++ after)) = some j := by
  have hend : tokensAfter? (words j).reverse after = some (words j) := by
    have h := tokensAfter?_blanks hafter (words j).reverse []
    rw [List.append_nil] at h
    rw [h, tokensAfter?, List.reverse_reverse]
  rw [read?, String.toList_ofList, tokens?, tokensAfter?_write hlayout 0 [] after j hj,
    List.append_nil, hend]
  exact ofTokens?_words j

end Rehome.Json
