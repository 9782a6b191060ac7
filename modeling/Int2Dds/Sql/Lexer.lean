import Mathlib.Algebra.Order.Ring.Int
import Mathlib.Data.List.TakeDrop
import Mathlib.Data.List.TakeWhile
import Mathlib.Data.List.Basic
import Mathlib.Tactic.SplitIfs

/-!
# Tokens of SQL filter expressions

The lexer of the filter expressions of content-filtered topics and query conditions. It works on the characters that
are left of the expression; `none` stands for a panic.

* `nextToken`, `tokenize` : the lexer;
* `tokenize_eq_some_iff` : the lexer reads exactly `Tokens True`, and panics on every other text;
* `Tokens.loosen`, `Tokens.unique` : where there is no dot, the documented tokens are those that are read.
-/

namespace Int2Dds.Sql

open List Option

/-- A Rust `String`, as its characters. -/
abbrev Text := List Char

inductive TokenType
  | identifier | integerValue | charValue | floatValue | string | enumeratedValue | parameter
  | equal | greater | greaterEqual | less | lessEqual | notEqual | like
  | and | or | not
  | leftParen | rightParen
  | select | from_ | where_ | orderBy | as_ | between
  | natural | join | inner
  | comma | semicolon | asterisk | dot
  | eof
deriving DecidableEq

/-- Floating-point numbers and regular expressions come from outside. -/
structure Platform where
  F64 : Type
  zero : F64
  /-- `str::parse::<f64>`. -/
  parseF64 : Text → Option F64
  Regex : Type
  /-- `Regex::new`. -/
  newRegex : Text → Option Regex

inductive Parameter (F : Type)
  | integerValue (v : Int)
  | charValue (c : Char)
  | floatValue (v : F)
  | string (s : Text)
  | enumeratedValue (typeName : Option Text) (value : Text)
  | parameter (n : Nat)
deriving DecidableEq

structure Token (P : Platform) where
  tokenType : TokenType
  value : Parameter P.F64

/-! ## Characters and numbers -/

/-- `char::is_whitespace`: the White_Space property. -/
def isWhitespace (c : Char) : Bool :=
  let n := c.toNat
  (9 ≤ n && n ≤ 13) || n == 0x20 || n == 0x85 || n == 0xA0 || n == 0x1680 || (0x2000 ≤ n && n ≤ 0x200A) ||
    n == 0x2028 || n == 0x2029 || n == 0x202F || n == 0x205F || n == 0x3000

def toDigit (radix : Nat) (c : Char) : Option Nat :=
  let d :=
    if c.isDigit then c.toNat - 48
    else if 'a' ≤ c ∧ c ≤ 'z' then c.toNat - 97 + 10
    else if 'A' ≤ c ∧ c ≤ 'Z' then c.toNat - 65 + 10
    else radix
  if d < radix then some d else none

def isHexdigit (c : Char) : Bool := (toDigit 16 c).isSome

def parseDigits (radix : Nat) (ds : Text) : Option Nat :=
  if ds = [] then none
  else (ds.mapM (toDigit radix)).map fun ds => ds.foldl (fun n d => n * radix + d) 0

/-- `i128::from_str_radix`, which is `str::parse::<i128>` at radix 10. -/
def parseI128 (radix : Nat) : Text → Option Int
  | '-' :: ds => (parseDigits radix ds).bind fun n => if n ≤ 2 ^ 127 then some (-(n : Int)) else none
  | '+' :: ds => (parseDigits radix ds).bind fun n => if n < 2 ^ 127 then some (n : Int) else none
  | ds => (parseDigits radix ds).bind fun n => if n < 2 ^ 127 then some (n : Int) else none

def parseUsize (ds : Text) : Option Nat := (parseDigits 10 ds).bind fun n => if n < 2 ^ 64 then some n else none

/-! ## The lexer -/

section

variable (P : Platform)

inductive NumberKind
  | hex | float | integer
deriving DecidableEq

/-- The digits of a number with at most one point, before any exponent; and whether there was a point or an exponent. -/
def decimalText : Bool → Text → Text × Bool
  | isFloat, [] => ([], isFloat)
  | isFloat, c :: cs =>
    if c.isDigit then (c :: (decimalText isFloat cs).1, (decimalText isFloat cs).2)
    else if c = '.' ∧ isFloat = false then (c :: (decimalText true cs).1, (decimalText true cs).2)
    else if c = 'e' ∨ c = 'E' then
      match cs with
      | [] => ([c], true)
      | s :: cs' =>
        if s = '+' ∨ s = '-' then (c :: s :: (decimalText true cs').1, (decimalText true cs').2)
        else (c :: (decimalText true (s :: cs')).1, (decimalText true (s :: cs')).2)
    else ([], isFloat)

def unsignedText : Text → Text × NumberKind
  | '0' :: 'x' :: cs => ('0' :: 'x' :: cs.takeWhile isHexdigit, .hex)
  | cs => ((decimalText false cs).1, if (decimalText false cs).2 then .float else .integer)

def numberText : Text → Text × NumberKind
  | [] => unsignedText []
  | c :: cs =>
    if c = '+' ∨ c = '-' then (c :: (unsignedText cs).1, (unsignedText cs).2) else unsignedText (c :: cs)

/-- The value of a number's text. A hexadecimal one is taken from the third character on, so it has none after a sign.
-/
def numberValue (text : Text) : NumberKind → Option (Parameter P.F64)
  | .hex => (parseI128 16 (text.drop 2)).map .integerValue
  | .float => (P.parseF64 text).map .floatValue
  | .integer => (parseI128 10 text).map .integerValue

/-- `unwrap_or(0)`. -/
def numberDefault : NumberKind → Parameter P.F64
  | .float => .floatValue P.zero
  | _ => .integerValue 0

def numberType : NumberKind → TokenType
  | .float => .floatValue
  | _ => .integerValue

def readNumber (cs : Text) : Token P × Text :=
  let (text, kind) := numberText cs
  (⟨numberType kind, (numberValue P text kind).getD (numberDefault P kind)⟩, cs.drop text.length)

def readString (cs : Text) : Text × Text :=
  let content := cs.tail.takeWhile (· ≠ '\'')
  (content, (cs.tail.drop content.length).tail)

def isIdentifierChar (c : Char) : Bool := c.isAlphanum || c == '_' || c == '-' || c == '.'

def readIdentifier (cs : Text) : Text × Text :=
  if cs.head?.any Char.isDigit then ([], cs)
  else (cs.takeWhile isIdentifierChar, cs.drop (cs.takeWhile isIdentifierChar).length)

/-- The number of `%n`, which has to be below 100. -/
def readParameter (cs : Text) : Option (Parameter P.F64 × Text) :=
  let digits := cs.tail.takeWhile Char.isDigit
  match parseUsize digits with
  | none => none
  | some n => if 100 ≤ n then none else some (.parameter n, cs.tail.drop digits.length)

def identifyKeyword (ident : Text) : TokenType :=
  match String.ofList (ident.map Char.toUpper) with
  | "SELECT" => .select
  | "FROM" => .from_
  | "WHERE" => .where_
  | "ORDER" => .orderBy
  | "BY" => .orderBy
  | "AS" => .as_
  | "AND" => .and
  | "OR" => .or
  | "NOT" => .not
  | "BETWEEN" => .between
  | "LIKE" => .like
  | "NATURAL" => .natural
  | "JOIN" => .join
  | "INNER" => .inner
  | _ => .identifier

/-- A one-byte text is a character. -/
def quotedToken (content : Text) : Token P :=
  match content with
  | [c] => if c.utf8Size = 1 then ⟨.charValue, .charValue c⟩ else ⟨.string, .string content⟩
  | _ => ⟨.string, .string content⟩

def eofToken : Token P := ⟨.eof, .string []⟩

/-- The token at the first character that is no white space. -/
def tokenAt : Text → Option (Token P × Text)
  | [] => some (eofToken P, [])
  | '=' :: cs => some (⟨.equal, .string ['=']⟩, cs)
  | '>' :: cs =>
    if cs.head? = some '=' then some (⟨.greaterEqual, .string ['>', '=']⟩, cs.tail)
    else some (⟨.greater, .string ['>']⟩, cs)
  | '<' :: cs =>
    if cs.head? = some '=' then some (⟨.lessEqual, .string ['<', '=']⟩, cs.tail)
    else if cs.head? = some '>' then some (⟨.notEqual, .string ['<', '>']⟩, cs.tail)
    else some (⟨.less, .string ['<']⟩, cs)
  | '(' :: cs => some (⟨.leftParen, .string ['(']⟩, cs)
  | ')' :: cs => some (⟨.rightParen, .string [')']⟩, cs)
  | ',' :: cs => some (⟨.comma, .string [',']⟩, cs)
  | ';' :: cs => some (⟨.semicolon, .string [';']⟩, cs)
  | '*' :: cs => some (⟨.asterisk, .string ['*']⟩, cs)
  | '.' :: cs =>
    -- the character looked at is the one after the next
    if cs.tail.head?.any Char.isDigit then some (readNumber P cs) else some (⟨.dot, .string ['.']⟩, cs.tail)
  | '\'' :: cs =>
    let (content, rest) := readString ('\'' :: cs)
    some (quotedToken P content, rest)
  | '%' :: cs => (readParameter P ('%' :: cs)).map fun (v, rest) => (⟨.parameter, v⟩, rest)
  | c :: cs =>
    if c.isDigit ∨ c = '+' ∨ c = '-' then
      if (c = '+' ∨ c = '-') ∧ ¬ cs.head?.any Char.isDigit then none else some (readNumber P (c :: cs))
    else if c.isAlpha ∨ c = '_' then
      let (ident, rest) := readIdentifier (c :: cs)
      some (⟨identifyKeyword ident, .string ident⟩, rest)
    else none

def skipWhitespace (cs : Text) : Text := cs.dropWhile isWhitespace

def nextToken (cs : Text) : Option (Token P × Text) := tokenAt P (skipWhitespace cs)

/-- `loop`, in at most the given number of rounds. -/
def tokenizeLoop : Nat → Text → Option (List (Token P))
  | 0, _ => none
  | n + 1, cs =>
    match nextToken P cs with
    | none => none
    | some (t, rest) =>
      if t.tokenType = .eof then some [t] else (tokenizeLoop n rest).map (t :: ·)

def tokenize (cs : Text) : Option (List (Token P)) := tokenizeLoop P (cs.length + 1) cs

end

/-! ## Documented tokens and those that are read -/

/-- A number starts with a digit, or with a sign and a digit. -/
def StartsNumber : Text → Prop
  | [] => False
  | c :: cs => c.isDigit = true ∨ ((c = '+' ∨ c = '-') ∧ cs.head?.any Char.isDigit = true)

/-- The first characters of a text make a token, with the rest of the text after it. -/
inductive Lexeme (P : Platform) (loose : Prop) : Text → Token P → Text → Prop
  | equal (cs : Text) : Lexeme P loose ('=' :: cs) ⟨.equal, .string ['=']⟩ cs
  | greaterEqual (cs : Text) : Lexeme P loose ('>' :: '=' :: cs) ⟨.greaterEqual, .string ['>', '=']⟩ cs
  | greater {cs : Text} : cs.head? ≠ some '=' → Lexeme P loose ('>' :: cs) ⟨.greater, .string ['>']⟩ cs
  | lessEqual (cs : Text) : Lexeme P loose ('<' :: '=' :: cs) ⟨.lessEqual, .string ['<', '=']⟩ cs
  | notEqual (cs : Text) : Lexeme P loose ('<' :: '>' :: cs) ⟨.notEqual, .string ['<', '>']⟩ cs
  | less {cs : Text} : cs.head? ≠ some '=' → cs.head? ≠ some '>' → Lexeme P loose ('<' :: cs) ⟨.less, .string ['<']⟩ cs
  | leftParen (cs : Text) : Lexeme P loose ('(' :: cs) ⟨.leftParen, .string ['(']⟩ cs
  | rightParen (cs : Text) : Lexeme P loose (')' :: cs) ⟨.rightParen, .string [')']⟩ cs
  | comma (cs : Text) : Lexeme P loose (',' :: cs) ⟨.comma, .string [',']⟩ cs
  | semicolon (cs : Text) : Lexeme P loose (';' :: cs) ⟨.semicolon, .string [';']⟩ cs
  | asterisk (cs : Text) : Lexeme P loose ('*' :: cs) ⟨.asterisk, .string ['*']⟩ cs
  | dot (cs : Text) : ¬ loose → Lexeme P loose ('.' :: cs) ⟨.dot, .string ['.']⟩ cs
  | dotAlong {cs : Text} : loose → ¬ cs.tail.head?.any Char.isDigit →
      Lexeme P loose ('.' :: cs) ⟨.dot, .string ['.']⟩ cs.tail
  | dotDropped {cs : Text} : loose → cs.tail.head?.any Char.isDigit →
      Lexeme P loose ('.' :: cs) (readNumber P cs).1 (readNumber P cs).2
  | quoted {s : Text} (cs : Text) : '\'' ∉ s → Lexeme P loose ('\'' :: (s ++ '\'' :: cs)) (quotedToken P s) cs
  | unclosed {s : Text} : loose → '\'' ∉ s → Lexeme P loose ('\'' :: s) (quotedToken P s) []
  | parameter {ds cs : Text} {n : Nat} : (∀ c ∈ ds, c.isDigit = true) → ¬ cs.head?.any Char.isDigit →
      parseDigits 10 ds = some n → n < 100 → Lexeme P loose ('%' :: (ds ++ cs)) ⟨.parameter, .parameter n⟩ cs
  | number {cs text : Text} {kind : NumberKind} {v : Parameter P.F64} : StartsNumber cs →
      numberText cs = (text, kind) → numberValue P text kind = some v →
      Lexeme P loose cs ⟨numberType kind, v⟩ (cs.drop text.length)
  | noNumber {cs text : Text} {kind : NumberKind} : loose → StartsNumber cs →
      numberText cs = (text, kind) → numberValue P text kind = none →
      Lexeme P loose cs ⟨numberType kind, numberDefault P kind⟩ (cs.drop text.length)
  | word {w cs : Text} : w.head?.any (fun c => c.isAlpha || c == '_') → (∀ c ∈ w, isIdentifierChar c = true) →
      ¬ cs.head?.any isIdentifierChar → Lexeme P loose (w ++ cs) ⟨identifyKeyword w, .string w⟩ cs

/-- A text as a list of tokens with white space around them. -/
inductive Tokens (P : Platform) (loose : Prop) : Text → List (Token P) → Prop
  | done {cs : Text} : skipWhitespace cs = [] → Tokens P loose cs []
  | token {cs rest : Text} {t : Token P} {ts : List (Token P)} :
      Lexeme P loose (skipWhitespace cs) t rest → Tokens P loose rest ts → Tokens P loose cs (t :: ts)

section

variable {P : Platform} {α : Type} {c : Char} {cs rest : Text} {t : Token P} {loose : Prop} {ts : List (Token P)}

variable {p : α → Bool}

theorem takeWhile_append_of_stop {w cs : List α} (hw : ∀ c ∈ w, p c = true) (hcs : ¬ cs.head?.any p) :
    (w ++ cs).takeWhile p = w := by
  rw [takeWhile_append_of_pos hw]
  cases cs with
  | nil => rw [takeWhile_nil, append_nil]
  | cons c cs =>
    have hc : ¬ p c = true := hcs
    rw [takeWhile_cons_of_neg hc, append_nil]

theorem drop_length_takeWhile (cs : List α) : cs.drop (cs.takeWhile p).length = cs.dropWhile p := by
  nth_rewrite 2 [← takeWhile_append_dropWhile (p := p) (l := cs)]
  exact drop_left

theorem not_head_dropWhile (p : α → Bool) (cs : List α) : ¬ (cs.dropWhile p).head?.any p := by
  induction cs with
  | nil => nofun
  | cons c cs ih =>
    by_cases hc : p c = true
    · rw [dropWhile_cons_of_pos hc]
      exact ih
    · rw [dropWhile_cons_of_neg hc]
      exact hc

/-! ## The lexer reads lexemes -/

/-- The characters with a rule of their own. -/
def symbols : List Char := ['=', '>', '<', '(', ')', ',', ';', '*', '.', '\'', '%']

theorem tokenAt_other (hc : c ∉ symbols) (cs : Text) :
    tokenAt P (c :: cs) =
      if c.isDigit ∨ c = '+' ∨ c = '-' then
        if (c = '+' ∨ c = '-') ∧ ¬ cs.head?.any Char.isDigit then none else some (readNumber P (c :: cs))
      else if c.isAlpha ∨ c = '_' then
        some (⟨identifyKeyword (readIdentifier (c :: cs)).1, .string (readIdentifier (c :: cs)).1⟩,
          (readIdentifier (c :: cs)).2)
      else none := by
  unfold tokenAt
  split
  case h_13 heq =>
    cases heq
    rfl
  case h_1 heq => cases heq
  all_goals
    rename_i heq
    cases heq
    exact absurd hc (by decide)

theorem notMem_symbols_of_startsNumber (h : StartsNumber (c :: cs)) : c ∉ symbols := by
  intro hc
  have hall : symbols.all fun c => !c.isDigit && c != '+' && c != '-' := by decide
  have hother := List.all_eq_true.1 hall c hc
  rcases h with h | ⟨h | h, -⟩ <;> simp [h] at hother

theorem notMem_symbols_of_isAlpha (h : (c.isAlpha || c == '_') = true) : c ∉ symbols := by
  intro hc
  have hall : symbols.all fun c => !(c.isAlpha || c == '_') := by decide
  have hother := List.all_eq_true.1 hall c hc
  rw [h] at hother
  cases hother

theorem isDigit_of_wordStart (hc : (c.isAlpha || c == '_') = true) : c.isDigit = false := by
  rw [Bool.or_eq_true, beq_iff_eq] at hc
  rcases hc with hc | rfl
  · by_contra hd
    rw [Bool.not_eq_false] at hd
    change (decide ('A'.val ≤ c.val ∧ c.val ≤ 'Z'.val) || decide ('a'.val ≤ c.val) && decide (c.val ≤ 'z'.val)) =
      true at hc
    simp only [Char.isDigit, Bool.or_eq_true, Bool.and_eq_true, decide_eq_true_eq, UInt32.le_iff_toNat_le] at hc hd
    have h9 : '9'.val.toNat = 57 := rfl
    have hA : 'A'.val.toNat = 65 := rfl
    have ha : 'a'.val.toNat = 97 := rfl
    omega
  · decide

variable {kind : NumberKind}

theorem readNumber_eq {text : Text} (h : numberText cs = (text, kind)) :
    readNumber P cs =
      (⟨numberType kind, (numberValue P text kind).getD (numberDefault P kind)⟩, cs.drop text.length) := by
  unfold readNumber
  rw [h]

theorem lexeme_readNumber (h : StartsNumber cs) : Lexeme P True cs (readNumber P cs).1 (readNumber P cs).2 := by
  rcases htext : numberText cs with ⟨text, kind⟩
  rw [readNumber_eq htext]
  cases hv : numberValue P text kind with
  | none => exact Lexeme.noNumber trivial h htext hv
  | some v => exact Lexeme.number h htext hv

theorem lexeme_readString :
    Lexeme P True ('\'' :: cs) (quotedToken P (readString ('\'' :: cs)).1) (readString ('\'' :: cs)).2 := by
  have hsplit := takeWhile_append_dropWhile (p := fun c : Char => decide (c ≠ '\'')) (l := cs)
  have hnot : '\'' ∉ cs.takeWhile (fun c => decide (c ≠ '\'')) := by
    intro hmem
    have hne := mem_takeWhile_imp hmem
    exact of_decide_eq_true hne rfl
  show Lexeme P True ('\'' :: cs) (quotedToken P (cs.takeWhile fun c => decide (c ≠ '\'')))
    (cs.drop (cs.takeWhile fun c => decide (c ≠ '\'')).length).tail
  rw [drop_length_takeWhile]
  cases hrest : cs.dropWhile (fun c => decide (c ≠ '\'')) with
  | nil =>
    rw [hrest, append_nil] at hsplit
    rw [hsplit] at hnot ⊢
    exact Lexeme.unclosed trivial hnot
  | cons c rest =>
    have hstop := not_head_dropWhile (fun c : Char => decide (c ≠ '\'')) cs
    rw [hrest] at hstop
    have hc : c = '\'' := by
      by_contra hne
      exact hstop (decide_eq_true hne)
    subst hc
    rw [hrest] at hsplit
    nth_rewrite 1 [← hsplit]
    exact Lexeme.quoted rest hnot

theorem lexeme_readIdentifier (hc : (c.isAlpha || c == '_') = true) :
    Lexeme P True (c :: cs)
      ⟨identifyKeyword (readIdentifier (c :: cs)).1, .string (readIdentifier (c :: cs)).1⟩
      (readIdentifier (c :: cs)).2 := by
  have hread : readIdentifier (c :: cs) =
      ((c :: cs).takeWhile isIdentifierChar, (c :: cs).dropWhile isIdentifierChar) := by
    unfold readIdentifier
    rw [if_neg (by simp [isDigit_of_wordStart hc]), drop_length_takeWhile]
  have hident : isIdentifierChar c = true := by
    rw [Bool.or_eq_true, beq_iff_eq] at hc
    rcases hc with hc | rfl
    · simp [isIdentifierChar, Char.isAlphanum, hc]
    · decide
  rw [hread]
  have hword : Lexeme P True ((c :: cs).takeWhile isIdentifierChar ++ (c :: cs).dropWhile isIdentifierChar)
      ⟨identifyKeyword ((c :: cs).takeWhile isIdentifierChar), .string ((c :: cs).takeWhile isIdentifierChar)⟩
      ((c :: cs).dropWhile isIdentifierChar) := by
    refine .word ?_ (fun d hd => mem_takeWhile_imp hd) (not_head_dropWhile _ _)
    rw [takeWhile_cons_of_pos hident]
    exact hc
  rwa [takeWhile_append_dropWhile] at hword

theorem lexeme_readParameter {v : Parameter P.F64} (h : readParameter P ('%' :: cs) = some (v, rest)) :
    Lexeme P True ('%' :: cs) ⟨.parameter, v⟩ rest := by
  have hread : readParameter P ('%' :: cs) =
      match parseUsize (cs.takeWhile Char.isDigit) with
      | none => none
      | some n => if 100 ≤ n then none else some (.parameter n, cs.drop (cs.takeWhile Char.isDigit).length) := rfl
  rw [hread] at h
  cases hn : parseUsize (cs.takeWhile Char.isDigit) with
  | none =>
    rw [hn] at h
    cases h
  | some n =>
    rw [hn] at h
    dsimp only at h
    split_ifs at h with hlt
    cases h
    obtain ⟨m, hm, hle⟩ := bind_eq_some_iff.1 hn
    obtain ⟨-, heq⟩ := ite_none_right_eq_some.1 hle
    cases heq
    have hparam : Lexeme P True ('%' :: (cs.takeWhile Char.isDigit ++ cs.dropWhile Char.isDigit))
        ⟨.parameter, .parameter n⟩ (cs.dropWhile Char.isDigit) :=
      .parameter (fun d hd => mem_takeWhile_imp hd) (not_head_dropWhile _ _) hm (Nat.lt_of_not_le hlt)
    rwa [takeWhile_append_dropWhile, ← drop_length_takeWhile] at hparam

theorem lexeme_of_tokenAt (h : tokenAt P (c :: cs) = some (t, rest)) : Lexeme P True (c :: cs) t rest := by
  by_cases hc : c ∈ symbols
  · simp only [symbols, mem_cons, not_mem_nil, or_false] at hc
    rcases hc with rfl | rfl | rfl | rfl | rfl | rfl | rfl | rfl | rfl | rfl | rfl
    · cases h
      exact Lexeme.equal cs
    · rw [tokenAt] at h
      split_ifs at h with heq
      · cases h
        obtain ⟨cs', rfl⟩ := head?_eq_some_iff.1 heq
        exact Lexeme.greaterEqual cs'
      · cases h
        exact Lexeme.greater heq
    · rw [tokenAt] at h
      split_ifs at h with heq hgt
      · cases h
        obtain ⟨cs', rfl⟩ := head?_eq_some_iff.1 heq
        exact Lexeme.lessEqual cs'
      · cases h
        obtain ⟨cs', rfl⟩ := head?_eq_some_iff.1 hgt
        exact Lexeme.notEqual cs'
      · cases h
        exact Lexeme.less heq hgt
    · cases h
      exact Lexeme.leftParen cs
    · cases h
      exact Lexeme.rightParen cs
    · cases h
      exact Lexeme.comma cs
    · cases h
      exact Lexeme.semicolon cs
    · cases h
      exact Lexeme.asterisk cs
    · rw [tokenAt] at h
      split_ifs at h with hdigit
      · have hpair := some.inj h
        have hdot : Lexeme P True ('.' :: cs) (readNumber P cs).1 (readNumber P cs).2 := .dotDropped trivial hdigit
        rwa [hpair] at hdot
      · cases h
        exact Lexeme.dotAlong trivial hdigit
    · cases h
      exact lexeme_readString
    · obtain ⟨⟨v, rest'⟩, hv, heq⟩ := map_eq_some_iff.1 h
      cases heq
      exact lexeme_readParameter hv
  · rw [tokenAt_other hc] at h
    split_ifs at h with hnum hsign hword
    · have hstart : StartsNumber (c :: cs) := by
        rcases hnum with hd | hs
        · exact .inl hd
        · exact .inr ⟨hs, not_not.1 (fun hd => hsign ⟨hs, hd⟩)⟩
      have hlex := lexeme_readNumber (P := P) hstart
      rwa [some.inj h] at hlex
    · cases h
      refine lexeme_readIdentifier ?_
      rw [Bool.or_eq_true, beq_iff_eq]
      exact hword

theorem startsNumber_cons (h : StartsNumber cs) : ∃ c cs', cs = c :: cs' := by
  cases cs with
  | nil => cases h
  | cons c cs => exact ⟨c, cs, rfl⟩

theorem tokenAt_of_startsNumber (h : StartsNumber cs) : tokenAt P cs = some (readNumber P cs) := by
  obtain ⟨c, cs, rfl⟩ := startsNumber_cons h
  rw [tokenAt_other (notMem_symbols_of_startsNumber h)]
  rcases h with hd | ⟨hs, hd⟩
  · have hsign : ¬ (c = '+' ∨ c = '-') := by
      rintro (rfl | rfl) <;> exact absurd hd (by decide)
    rw [if_pos (.inl hd), if_neg (fun h => hsign h.1)]
  · rw [if_pos (.inr hs), if_neg (fun h => h.2 hd)]

theorem tokenAt_word {w : Text} (hhead : w.head?.any (fun c => c.isAlpha || c == '_') = true)
    (hw : ∀ c ∈ w, isIdentifierChar c = true) (hcs : ¬ cs.head?.any isIdentifierChar) :
    tokenAt P (w ++ cs) = some (⟨identifyKeyword w, .string w⟩, cs) := by
  cases w with
  | nil => cases hhead
  | cons c w =>
    have hc : (c.isAlpha || c == '_') = true := hhead
    have hdigit := isDigit_of_wordStart hc
    have hsign : c ≠ '+' ∧ c ≠ '-' := by
      constructor <;> rintro rfl <;> exact absurd hc (by decide)
    have htake : (c :: w ++ cs).takeWhile isIdentifierChar = c :: w := takeWhile_append_of_stop hw hcs
    have hread : readIdentifier (c :: w ++ cs) = (c :: w, cs) := by
      unfold readIdentifier
      rw [if_neg (by simp [hdigit]), htake, drop_left]
    have hother := tokenAt_other (P := P) (notMem_symbols_of_isAlpha hc) (w ++ cs)
    rw [cons_append, hother, if_neg, if_pos]
    · rw [← cons_append, hread]
    · rwa [Bool.or_eq_true, beq_iff_eq] at hc
    · rw [hdigit]
      rintro (h | h | h)
      · cases h
      · exact hsign.1 h
      · exact hsign.2 h

theorem readString_quoted {s : Text} (hs : '\'' ∉ s) : readString ('\'' :: (s ++ '\'' :: cs)) = (s, cs) := by
  have htake : (s ++ '\'' :: cs).takeWhile (fun c => decide (c ≠ '\'')) = s :=
    takeWhile_append_of_stop (fun c hc => decide_eq_true (fun h => hs (h ▸ hc))) (by simp)
  unfold readString
  dsimp only [tail_cons]
  rw [htake, drop_left, tail_cons]

theorem readString_unclosed {s : Text} (hs : '\'' ∉ s) : readString ('\'' :: s) = (s, []) := by
  have htake : s.takeWhile (fun c => decide (c ≠ '\'')) = s :=
    takeWhile_eq_self_iff.2 (fun c hc => decide_eq_true (fun h => hs (h ▸ hc)))
  unfold readString
  dsimp only [tail_cons]
  rw [htake, drop_length, tail_nil]

theorem readParameter_digits {ds : Text} {n : Nat} (hds : ∀ c ∈ ds, c.isDigit = true)
    (hcs : ¬ cs.head?.any Char.isDigit) (hn : parseDigits 10 ds = some n) (hlt : n < 100) :
    readParameter P ('%' :: (ds ++ cs)) = some (.parameter n, cs) := by
  have htake : (ds ++ cs).takeWhile Char.isDigit = ds := takeWhile_append_of_stop hds hcs
  have husize : parseUsize ds = some n := by
    rw [parseUsize, hn, bind_some, if_pos (by omega)]
  unfold readParameter
  dsimp only [tail_cons]
  rw [htake, husize]
  dsimp only
  rw [if_neg (by omega), drop_left]

theorem tokenAt_of_lexeme (h : Lexeme P True cs t rest) : tokenAt P cs = some (t, rest) := by
  cases h with
  | equal | greaterEqual | lessEqual | notEqual | leftParen | rightParen | comma | semicolon | asterisk => rfl
  | greater heq => rw [tokenAt, if_neg heq]
  | less heq hgt => rw [tokenAt, if_neg heq, if_neg hgt]
  | dot _ hloose => exact absurd trivial hloose
  | dotAlong _ hdigit => rw [tokenAt, if_neg hdigit]
  | dotDropped _ hdigit => rw [tokenAt, if_pos hdigit]
  | quoted _ hs =>
    rw [tokenAt]
    rw [readString_quoted hs]
  | unclosed _ hs =>
    rw [tokenAt]
    rw [readString_unclosed hs]
  | parameter hds hcs hn hlt =>
    rw [tokenAt, readParameter_digits hds hcs hn hlt]
    rfl
  | number hstart htext hv => rw [tokenAt_of_startsNumber hstart, readNumber_eq htext, hv, getD_some]
  | noNumber _ hstart htext hv => rw [tokenAt_of_startsNumber hstart, readNumber_eq htext, hv, getD_none]
  | word hhead hw hcs => exact tokenAt_word hhead hw hcs

theorem lexeme_ne_nil (h : Lexeme P loose cs t rest) : cs ≠ [] := by
  cases h with
  | number hstart _ _ | noNumber _ hstart _ _ =>
    obtain ⟨c, cs', rfl⟩ := startsNumber_cons hstart
    nofun
  | word hhead _ _ =>
    rintro hnil
    rw [(append_eq_nil_iff.1 hnil).1] at hhead
    cases hhead
  | _ => nofun

theorem tokenAt_iff (hcs : cs ≠ []) : tokenAt P cs = some (t, rest) ↔ Lexeme P True cs t rest := by
  refine ⟨fun h => ?_, tokenAt_of_lexeme⟩
  obtain ⟨c, cs, rfl⟩ := exists_cons_of_ne_nil hcs
  exact lexeme_of_tokenAt h

/-! ## Whole texts -/

theorem unsignedText_ne_nil (hc : c.isDigit = true) : (unsignedText (c :: cs)).1 ≠ [] := by
  unfold unsignedText
  split
  · nofun
  · unfold decimalText
    rw [if_pos hc]
    nofun

theorem numberText_ne_nil (h : StartsNumber cs) : (numberText cs).1 ≠ [] := by
  obtain ⟨c, cs, rfl⟩ := startsNumber_cons h
  rw [numberText]
  split_ifs with hsign
  · nofun
  · exact unsignedText_ne_nil (h.resolve_right fun hs => hsign hs.1)

theorem length_lt_of_lexeme (h : Lexeme P loose cs t rest) : rest.length < cs.length := by
  cases h with
  | dotAlong _ _ =>
    rw [length_tail, length_cons]
    omega
  | dotDropped _ _ =>
    rw [readNumber, length_drop, length_cons]
    omega
  | quoted _ _ =>
    rw [length_cons, length_append, length_cons]
    omega
  | unclosed _ _ => exact Nat.succ_pos _
  | parameter _ _ _ _ =>
    rw [length_cons, length_append]
    omega
  | @number _ text _ _ hstart htext _ | @noNumber _ text _ _ hstart htext _ =>
    have htext : text ≠ [] := by
      have hne := numberText_ne_nil hstart
      rwa [htext] at hne
    have hpos := length_pos_of_ne_nil htext
    obtain ⟨c, cs', rfl⟩ := startsNumber_cons hstart
    rw [length_drop, length_cons]
    omega
  | @word w cs hhead _ _ =>
    have hpos : 0 < w.length := by
      cases w with
      | nil => cases hhead
      | cons c w => exact Nat.succ_pos _
    rw [length_append]
    omega
  | _ => simp only [length_cons]; omega

theorem numberType_ne_eof : numberType kind ≠ .eof := by cases kind <;> decide

theorem quotedToken_notMem (s : Text) : (quotedToken P s).tokenType ∉ [TokenType.eof, .integerValue, .floatValue] := by
  unfold quotedToken
  split
  · split_ifs <;> simp
  · simp

theorem identifyKeyword_notMem (w : Text) : identifyKeyword w ∉ [TokenType.eof, .integerValue, .floatValue] := by
  unfold identifyKeyword
  split <;> decide

theorem tokenType_ne_eof (h : Lexeme P loose cs t rest) : t.tokenType ≠ .eof := by
  cases h with
  | dotDropped _ _ => exact numberType_ne_eof
  | quoted _ _ | unclosed _ _ => exact fun h => quotedToken_notMem _ (mem_cons.2 (.inl h))
  | number _ _ _ | noNumber _ _ _ _ => exact numberType_ne_eof
  | word _ _ _ => exact fun h => identifyKeyword_notMem _ (mem_cons.2 (.inl h))
  | _ => nofun

theorem length_skipWhitespace_le (cs : Text) : (skipWhitespace cs).length ≤ cs.length :=
  (dropWhile_suffix isWhitespace).length_le

/-- With a round for each character, the loop reads the tokens of the text and the end of it. -/
theorem tokenizeLoop_eq_some_iff {n : Nat} (hn : cs.length < n) :
    tokenizeLoop P n cs = some ts ↔ ∃ toks, ts = toks ++ [eofToken P] ∧ Tokens P True cs toks := by
  induction n generalizing cs ts with
  | zero => exact absurd hn (Nat.not_lt_zero _)
  | succ n ih =>
    have hskip := length_skipWhitespace_le cs
    rw [tokenizeLoop, nextToken]
    by_cases hempty : skipWhitespace cs = []
    · rw [hempty]
      constructor
      · rintro ⟨⟩
        exact ⟨[], rfl, Tokens.done hempty⟩
      · rintro ⟨toks, rfl, htoks⟩
        cases htoks with
        | done _ => rfl
        | token hlex _ => exact absurd hempty (lexeme_ne_nil hlex)
    · cases hat : tokenAt P (skipWhitespace cs) with
      | none =>
        refine iff_of_false nofun ?_
        rintro ⟨toks, -, htoks⟩
        cases htoks with
        | done hdone => exact hempty hdone
        | token hlex _ =>
          rw [tokenAt_of_lexeme hlex] at hat
          cases hat
      | some tr =>
        obtain ⟨t, rest⟩ := tr
        have hlex := (tokenAt_iff hempty).1 hat
        have hlt := length_lt_of_lexeme hlex
        dsimp only
        rw [if_neg (tokenType_ne_eof hlex), map_eq_some_iff]
        constructor
        · rintro ⟨ts', hts', rfl⟩
          obtain ⟨toks, rfl, htoks⟩ := (ih (by omega)).1 hts'
          exact ⟨t :: toks, rfl, Tokens.token hlex htoks⟩
        · rintro ⟨toks, rfl, htoks⟩
          cases htoks with
          | done hdone => exact absurd hdone hempty
          | @token _ rest' t' toks hlex' htoks =>
            rw [tokenAt_of_lexeme hlex'] at hat
            cases hat
            exact ⟨toks ++ [eofToken P], (ih (by omega)).2 ⟨toks, rfl, htoks⟩, rfl⟩

theorem tokenize_eq_some_iff : tokenize P cs = some ts ↔ ∃ toks, ts = toks ++ [eofToken P] ∧ Tokens P True cs toks :=
  tokenizeLoop_eq_some_iff (Nat.lt_succ_self _)

theorem Tokens.unique {ts' : List (Token P)} (h : Tokens P True cs ts) (h' : Tokens P True cs ts') : ts = ts' := by
  have hread := tokenize_eq_some_iff.2 ⟨ts, rfl, h⟩
  rw [tokenize_eq_some_iff.2 ⟨ts', rfl, h'⟩] at hread
  exact (append_cancel_right (some.inj hread)).symm

theorem Lexeme.loosen (h : Lexeme P False cs t rest) (hdot : t.tokenType ≠ .dot) : Lexeme P True cs t rest := by
  cases h with
  | equal => exact .equal _
  | greaterEqual => exact .greaterEqual _
  | greater heq => exact .greater heq
  | lessEqual => exact .lessEqual _
  | notEqual => exact .notEqual _
  | less heq hgt => exact .less heq hgt
  | leftParen => exact .leftParen _
  | rightParen => exact .rightParen _
  | comma => exact .comma _
  | semicolon => exact .semicolon _
  | asterisk => exact .asterisk _
  | dot => exact absurd rfl hdot
  | dotAlong hloose _ => cases hloose
  | dotDropped hloose _ => cases hloose
  | quoted _ hs => exact .quoted _ hs
  | unclosed hloose _ => cases hloose
  | parameter hds hcs hn hlt => exact .parameter hds hcs hn hlt
  | number hstart htext hv => exact .number hstart htext hv
  | noNumber hloose _ _ _ => cases hloose
  | word hhead hw hcs => exact .word hhead hw hcs

/-- Without a dot, the lexer reads the documented tokens. -/
theorem Tokens.loosen (h : Tokens P False cs ts) (hdot : ∀ t ∈ ts, t.tokenType ≠ .dot) : Tokens P True cs ts := by
  induction h with
  | done hdone => exact Tokens.done hdone
  | token hlex _ ih =>
    exact Tokens.token (hlex.loosen (hdot _ mem_cons_self)) (ih (forall_mem_cons.1 hdot).2)

/-! ## The numbers that are read -/

def Signed (text : Text) : Prop := text.head? = some '+' ∨ text.head? = some '-'

instance : DecidablePred Signed := fun _ => inferInstanceAs (Decidable (_ ∨ _))

/-- The value that the text of a number stands for: the sign of a hexadecimal number is in front of its `0x`. -/
def literalValue (P : Platform) (text : Text) : NumberKind → Option (Parameter P.F64)
  | .hex =>
    (parseI128 16 (if Signed text then text.take 1 ++ text.drop 3 else text.drop 2)).map .integerValue
  | kind => numberValue P text kind

/-- A number that is read from `cs` is one of the documented ones, at the value of the text it takes. -/
def NumberExact (P : Platform) (cs : Text) : Prop :=
  ∀ t rest, nextToken P cs = some (t, rest) → t.tokenType = .integerValue ∨ t.tokenType = .floatValue →
    StartsNumber (skipWhitespace cs) ∧ ∃ text kind, numberText (skipWhitespace cs) = (text, kind) ∧
      rest = (skipWhitespace cs).drop text.length ∧ literalValue P text kind = some t.value

theorem numberType_numeric :
    numberType kind = .integerValue ∨ numberType kind = .floatValue := by cases kind <;> decide

theorem unsignedText_hex (h : (unsignedText cs).2 = .hex) : ∃ ds, (unsignedText cs).1 = '0' :: 'x' :: ds := by
  unfold unsignedText at h ⊢
  split at h
  · exact ⟨_, rfl⟩
  · split_ifs at h

/-- What is parsed of a hexadecimal number with a sign begins with the `x`. -/
theorem numberValue_of_signed (htext : numberText cs = (text, .hex)) (hs : Signed text) :
    numberValue P text .hex = none := by
  cases cs with
  | nil => cases htext
  | cons c cs =>
    rw [numberText] at htext
    split_ifs at htext with hc
    · obtain ⟨rfl, hkind⟩ := Prod.mk.inj htext
      obtain ⟨ds, hds⟩ := unsignedText_hex hkind
      rw [hds]
      rfl
    · obtain ⟨ds, hds⟩ := unsignedText_hex (congrArg Prod.snd htext)
      obtain rfl : text = '0' :: 'x' :: ds := by simpa [htext] using hds
      simp [Signed] at hs

theorem literalValue_eq (h : ¬ (kind = .hex ∧ Signed text)) : literalValue P text kind = numberValue P text kind := by
  cases kind with
  | hex => rw [literalValue, if_neg fun hs => h ⟨rfl, hs⟩, numberValue]
  | _ => rfl

/-- **Numbers at their value.** -/
theorem number_exact_iff (cs : Text) : NumberExact P cs ↔
    (∀ rest, skipWhitespace cs = '.' :: rest → ¬ rest.tail.head?.any Char.isDigit) ∧
      (StartsNumber (skipWhitespace cs) → ∀ text kind, numberText (skipWhitespace cs) = (text, kind) →
        ∃ v, literalValue P text kind = some v ∧ (kind = .hex → Signed text → v = .integerValue 0)) := by
  unfold NumberExact nextToken
  generalize skipWhitespace cs = cs
  constructor
  · intro h
    refine ⟨?_, fun hstart text kind htext => ?_⟩
    · rintro rest rfl hdigit
      have hdot : ¬ StartsNumber ('.' :: rest) := by simp [StartsNumber]
      exact hdot (h _ _ (if_pos hdigit) (numberType_numeric)).1
    · have hat := tokenAt_of_startsNumber (P := P) hstart
      rw [readNumber_eq htext] at hat
      obtain ⟨-, text', kind', htext', -, hv⟩ := h _ _ hat (numberType_numeric)
      obtain ⟨rfl, rfl⟩ := Prod.mk.inj (htext.symm.trans htext')
      refine ⟨_, hv, ?_⟩
      rintro rfl hs
      rw [numberValue_of_signed htext hs]
      rfl
  · rintro ⟨hdot, hvalue⟩ t rest hat hnum
    have hcs : cs ≠ [] := by
      rintro rfl
      cases hat
      simp [eofToken] at hnum
    cases (tokenAt_iff hcs).1 hat with
    | dotDropped _ hdigit => exact absurd hdigit (hdot _ rfl)
    | quoted | unclosed => exact absurd (mem_cons.2 (.inr (by simpa using hnum))) (quotedToken_notMem _)
    | word => exact absurd (mem_cons.2 (.inr (by simpa using hnum))) (identifyKeyword_notMem _)
    | number hstart htext hv =>
      refine ⟨hstart, _, _, htext, rfl, ?_⟩
      rw [literalValue_eq, hv]
      rintro ⟨rfl, hs⟩
      rw [numberValue_of_signed htext hs] at hv
      cases hv
    | @noNumber _ text kind _ hstart htext hv =>
      obtain ⟨v, hlit, hzero⟩ := hvalue hstart _ _ htext
      refine ⟨hstart, _, _, htext, rfl, ?_⟩
      have hs : kind = .hex ∧ Signed text := by
        by_contra hs
        rw [literalValue_eq hs, hv] at hlit
        cases hlit
      rw [hlit, hzero hs.1 hs.2, hs.1]
      rfl
    | _ => simp at hnum

theorem number_misread : ¬ NumberExact ⟨Unit, (), fun _ => some (), Unit, fun _ => none⟩ ['-', '0', 'x', '1'] := by
  intro h
  obtain ⟨-, text, kind, htext, -, hv⟩ := h ⟨.integerValue, .integerValue 0⟩ [] rfl (.inl rfl)
  cases htext
  cases hv

end

end Int2Dds.Sql
