import Int2Dds.Sql.Parser
import Mathlib.Data.List.Chain

/-!
# The grammar of filter conditions

The documented grammar of conditions is ambiguous:

    Condition ::= Predicate | Condition AND Condition | Condition OR Condition | NOT Condition | ( Condition )

* `Derives` : the token lists that it derives, with the documented predicates;
* `ReadPredicate` : the predicates as the parser reads them. Their sides are any values, but a pattern of LIKE has to be
  a string that is a regular expression.
-/

namespace Int2Dds.Sql

open Lib List

variable {P : Platform}

/-! ## Documented conditions -/

def IsField (t : Token P) : Prop := t.tokenType = .identifier ∧ ∃ s, t.value = .string s

def IsValue (t : Token P) : Prop := isParameter t.tokenType = true

def IsRelOp (t : Token P) : Prop := (comparisonOp P.Regex t.tokenType).isSome = true ∨ t.tokenType = .like

variable {t a b : Token P} {ts : List (Token P)} {p : Predicate P.F64 P.Regex}
  {c : Condition (Predicate P.F64 P.Regex)}

theorem IsField.isValue (h : IsField t) : IsValue t := by
  rw [IsValue, h.1]
  rfl

/-- A comparison has a field name on one side, BETWEEN on the left. -/
inductive DocumentedPredicate : List (Token P) → Prop
  | fieldFirst {a op b : Token P} : IsField a → IsRelOp op → IsValue b → DocumentedPredicate [a, op, b]
  | fieldSecond {a op b : Token P} : IsValue a → IsRelOp op → IsField b → DocumentedPredicate [a, op, b]
  | between {f k a n b : Token P} : IsField f → k.tokenType = .between → IsValue a → n.tokenType = .and → IsValue b →
      DocumentedPredicate [f, k, a, n, b]
  | notBetween {f x k a n b : Token P} : IsField f → x.tokenType = .not → k.tokenType = .between → IsValue a →
      n.tokenType = .and → IsValue b → DocumentedPredicate [f, x, k, a, n, b]

inductive Derives : List (Token P) → Prop
  | predicate {ts : List (Token P)} : DocumentedPredicate ts → Derives ts
  | and {l r : List (Token P)} {t : Token P} : Derives l → t.tokenType = .and → Derives r → Derives (l ++ t :: r)
  | or {l r : List (Token P)} {t : Token P} : Derives l → t.tokenType = .or → Derives r → Derives (l ++ t :: r)
  | not {ts : List (Token P)} {t : Token P} : t.tokenType = .not → Derives ts → Derives (t :: ts)
  | parentheses {ts : List (Token P)} {o q : Token P} : o.tokenType = .leftParen → Derives ts →
      q.tokenType = .rightParen → Derives (o :: (ts ++ [q]))

/-! ## Precedence -/

inductive Level
  | primary | unary | conjunction | disjunction
deriving DecidableEq

inductive Parses {π : Type} (pred : List (Token P) → π → Prop) (operand : Level) :
    Level → List (Token P) → Condition π → Prop
  | predicate {ts : List (Token P)} {p : π} : pred ts p → Parses pred operand .primary ts (.predicate p)
  | parentheses {ts : List (Token P)} {o q : Token P} {c : Condition π} : o.tokenType = .leftParen →
      Parses pred operand .disjunction ts c → q.tokenType = .rightParen →
      Parses pred operand .primary (o :: (ts ++ [q])) (.parentheses c)
  | primary {ts : List (Token P)} {c : Condition π} :
      Parses pred operand .primary ts c → Parses pred operand .unary ts c
  | not {ts : List (Token P)} {t : Token P} {c : Condition π} : t.tokenType = .not → Parses pred operand operand ts c →
      Parses pred operand .unary (t :: ts) (.unary .not c)
  | unary {ts : List (Token P)} {c : Condition π} : Parses pred operand .unary ts c →
      Parses pred operand .conjunction ts c
  | and {l r : List (Token P)} {t : Token P} {a b : Condition π} : Parses pred operand .conjunction l a →
      t.tokenType = .and → Parses pred operand .unary r b →
        Parses pred operand .conjunction (l ++ t :: r) (.binary a .and b)
  | conjunction {ts : List (Token P)} {c : Condition π} : Parses pred operand .conjunction ts c →
      Parses pred operand .disjunction ts c
  | or {l r : List (Token P)} {t : Token P} {a b : Condition π} : Parses pred operand .disjunction l a →
      t.tokenType = .or → Parses pred operand .conjunction r b →
      Parses pred operand .disjunction (l ++ t :: r) (.binary a .or b)

namespace Parses

variable {π : Type} {pred : List (Token P) → π → Prop} {operand level : Level} {ts l r : List (Token P)} {t : Token P}
  {c a b : Condition π}

def notLevel : Level → Level
  | .primary => .unary
  | level => level

theorem exists_not (ht : t.tokenType = .not) (h : Parses pred .unary level ts c) :
    ∃ c', Parses pred .unary (notLevel level) (t :: ts) c' := by
  induction h with
  | predicate h => exact ⟨_, .not ht (.primary (.predicate h))⟩
  | parentheses ho h hq _ => exact ⟨_, .not ht (.primary (.parentheses ho h hq))⟩
  | primary h _ => exact ⟨_, .not ht (.primary h)⟩
  | not ht' h _ => exact ⟨_, .not ht (.not ht' h)⟩
  | unary h _ => exact ⟨_, .unary (.not ht h)⟩
  | and _ ht' hr ih _ =>
    obtain ⟨c', hc'⟩ := ih
    exact ⟨_, .and hc' ht' hr⟩
  | conjunction _ ih =>
    obtain ⟨c', hc'⟩ := ih
    exact ⟨c', .conjunction hc'⟩
  | or _ ht' hr ih _ =>
    obtain ⟨c', hc'⟩ := ih
    exact ⟨_, .or hc' ht' hr⟩

/-- The level of a condition with a conjunction and an AND in front. -/
def andLevel : Level → Level
  | .disjunction => .disjunction
  | _ => .conjunction

theorem exists_conjunction_and (hl : Parses pred operand .conjunction l a) (ht : t.tokenType = .and)
    (hr : Parses pred operand level r b) : ∃ c, Parses pred operand (andLevel level) (l ++ t :: r) c := by
  induction hr with
  | predicate h => exact ⟨_, .and hl ht (.primary (.predicate h))⟩
  | parentheses ho h hq _ => exact ⟨_, .and hl ht (.primary (.parentheses ho h hq))⟩
  | primary h _ => exact ⟨_, .and hl ht (.primary h)⟩
  | not ht' h _ => exact ⟨_, .and hl ht (.not ht' h)⟩
  | unary h _ => exact ⟨_, .and hl ht h⟩
  | and _ ht' hr ih _ =>
    obtain ⟨c, hc⟩ := ih
    have hand := hc.and ht' hr
    rw [append_assoc] at hand
    exact ⟨_, hand⟩
  | conjunction _ ih =>
    obtain ⟨c, hc⟩ := ih
    exact ⟨c, .conjunction hc⟩
  | or _ ht' hr ih _ =>
    obtain ⟨c, hc⟩ := ih
    have hor := hc.or ht' hr
    rw [append_assoc] at hor
    exact ⟨_, hor⟩

theorem exists_or (hl : Parses pred operand .disjunction l a) (ht : t.tokenType = .or)
    (hr : Parses pred operand .disjunction r b) : ∃ c, Parses pred operand .disjunction (l ++ t :: r) c := by
  generalize hlevel : Level.disjunction = level at hr
  induction hr with
  | conjunction h _ => exact ⟨_, .or hl ht h⟩
  | or _ ht' hr ih _ =>
    obtain ⟨c, hc⟩ := ih rfl
    have hor := hc.or ht' hr
    rw [append_assoc] at hor
    exact ⟨_, hor⟩
  | _ => cases hlevel

theorem exists_and (hl : Parses pred operand .disjunction l a) (ht : t.tokenType = .and)
    (hr : Parses pred operand .disjunction r b) : ∃ c, Parses pred operand .disjunction (l ++ t :: r) c := by
  cases hl with
  | conjunction hl => exact exists_conjunction_and hl ht hr
  | or hl ht' hr' =>
    -- the AND joins the last conjunction on the left with the first on the right
    obtain ⟨c, hc⟩ := exists_conjunction_and hr' ht hr
    obtain ⟨c', hc'⟩ := exists_or hl ht' hc
    rw [append_assoc]
    exact ⟨c', hc'⟩

theorem mono {pred' : List (Token P) → π → Prop} (hpred : ∀ ts p, pred ts p → pred' ts p)
    (h : Parses pred .primary level ts c) : Parses pred' .primary level ts c ∧ Parses pred' .unary level ts c := by
  induction h with
  | predicate h => exact ⟨.predicate (hpred _ _ h), .predicate (hpred _ _ h)⟩
  | parentheses ho _ hq ih => exact ⟨.parentheses ho ih.1 hq, .parentheses ho ih.2 hq⟩
  | primary _ ih => exact ⟨.primary ih.1, .primary ih.2⟩
  | not ht _ ih => exact ⟨.not ht ih.1, .not ht (.primary ih.2)⟩
  | unary _ ih => exact ⟨.unary ih.1, .unary ih.2⟩
  | and _ ht _ ihl ihr => exact ⟨.and ihl.1 ht ihr.1, .and ihl.2 ht ihr.2⟩
  | conjunction _ ih => exact ⟨.conjunction ih.1, .conjunction ih.2⟩
  | or _ ht _ ihl ihr => exact ⟨.or ihl.1 ht ihr.1, .or ihl.2 ht ihr.2⟩

end Parses

/-- The documented conditions, without the predicates in their trees. -/
abbrev Stratified (ts : List (Token P)) (c : Condition Unit) : Prop :=
  Parses (fun ts (_ : Unit) => DocumentedPredicate ts) .unary .disjunction ts c

variable {level operand : Level}

theorem derives_of_parses {π : Type} {pred : List (Token P) → π → Prop} {c : Condition π}
    (hpred : ∀ ts p, pred ts p → DocumentedPredicate ts) (h : Parses pred operand level ts c) : Derives ts := by
  induction h with
  | predicate h => exact .predicate (hpred _ _ h)
  | parentheses ho _ hq ih => exact .parentheses ho ih hq
  | primary _ ih | unary _ ih | conjunction _ ih => exact ih
  | not ht _ ih => exact .not ht ih
  | and _ ht _ ihl ihr => exact .and ihl ht ihr
  | or _ ht _ ihl ihr => exact .or ihl ht ihr

/-- Precedence and association take no list away. -/
theorem derives_iff : Derives ts ↔ ∃ c, Stratified ts c := by
  constructor
  · intro h
    induction h with
    | predicate h => exact ⟨.predicate (), .conjunction (.unary (.primary (.predicate h)))⟩
    | and _ ht _ ihl ihr =>
      obtain ⟨a, ha⟩ := ihl
      obtain ⟨b, hb⟩ := ihr
      exact Parses.exists_and ha ht hb
    | or _ ht _ ihl ihr =>
      obtain ⟨a, ha⟩ := ihl
      obtain ⟨b, hb⟩ := ihr
      exact Parses.exists_or ha ht hb
    | not ht _ ih =>
      obtain ⟨c, hc⟩ := ih
      exact Parses.exists_not ht hc
    | parentheses ho _ hq ih =>
      obtain ⟨c, hc⟩ := ih
      exact ⟨_, .conjunction (.unary (.primary (.parentheses ho hc hq)))⟩
  · rintro ⟨c, hc⟩
    exact derives_of_parses (fun _ _ h => h) hc

/-! ## Conditions as they are read -/

inductive ReadPredicate : List (Token P) → Predicate P.F64 P.Regex → Prop
  | comparison {a k b : Token P} {op : RelOp P.Regex} : IsValue a → comparisonOp P.Regex k.tokenType = some op →
      IsValue b → ReadPredicate [a, k, b] (.comparison a.value op b.value)
  | like {a k b : Token P} {s : Text} {r : P.Regex} : IsValue a → k.tokenType = .like → IsValue b →
      b.value = .string s → P.newRegex (likeRegex s) = some r →
      ReadPredicate [a, k, b] (.comparison a.value (.like r) b.value)
  | between {f k a n b : Token P} {field : Text} : IsValue f → f.value = .string field → k.tokenType = .between →
      IsValue a → n.tokenType = .and → IsValue b →
      ReadPredicate [f, k, a, n, b] (.between field false ⟨a.value, b.value⟩)
  | notBetween {f x k a n b : Token P} {field : Text} : IsValue f → f.value = .string field → x.tokenType = .not →
      k.tokenType = .between → IsValue a → n.tokenType = .and → IsValue b →
      ReadPredicate [f, x, k, a, n, b] (.between field true ⟨a.value, b.value⟩)

def DocumentedTree (ts : List (Token P)) (p : Predicate P.F64 P.Regex) : Prop :=
  DocumentedPredicate ts ∧ ReadPredicate ts p

/-- A string that is a regular expression once its wildcards are replaced. -/
def IsPattern (t : Token P) : Prop := ∃ s r, t.value = .string s ∧ P.newRegex (likeRegex s) = some r

/-- No NOT comes after NOT, and after LIKE comes a pattern. -/
structure Follows (a b : Token P) : Prop where
  not : a.tokenType = .not → b.tokenType ≠ .not
  like : a.tokenType = .like → IsPattern b

/-- Of a documented predicate, LIKE needs a pattern. -/
theorem exists_readPredicate (h : DocumentedPredicate ts) (hchain : ts.IsChain Follows) : ∃ p, ReadPredicate ts p := by
  have hcomparison : ∀ {a k b : Token P}, IsValue a → IsRelOp k → IsValue b → [a, k, b].IsChain Follows →
      ∃ p, ReadPredicate [a, k, b] p := by
    intro a k b ha hk hb hchain
    rcases hk with hop | hlike
    · obtain ⟨op, hop⟩ := Option.isSome_iff_exists.1 hop
      exact ⟨_, .comparison ha hop hb⟩
    · rw [isChain_cons_cons, isChain_cons_cons] at hchain
      obtain ⟨s, r, hs, hr⟩ := hchain.2.1.like hlike
      exact ⟨_, .like ha hlike hb hs hr⟩
  cases h with
  | fieldFirst ha hop hb => exact hcomparison ha.isValue hop hb hchain
  | fieldSecond ha hop hb => exact hcomparison ha hop hb.isValue hchain
  | between hf hk ha hn hb =>
    obtain ⟨s, hs⟩ := hf.2
    exact ⟨_, .between hf.isValue hs hk ha hn hb⟩
  | notBetween hf hx hk ha hn hb =>
    obtain ⟨s, hs⟩ := hf.2
    exact ⟨_, .notBetween hf.isValue hs hx hk ha hn hb⟩

theorem parses_of_stratified {c : Condition Unit}
    (h : Parses (fun ts (_ : Unit) => DocumentedPredicate ts) .unary level ts c) (hchain : ts.IsChain Follows) :
    ∃ c', Parses DocumentedTree .primary level ts c' := by
  induction h with
  | predicate h =>
    obtain ⟨p, hp⟩ := exists_readPredicate h hchain
    exact ⟨_, .predicate ⟨h, hp⟩⟩
  | parentheses ho _ hq ih =>
    rw [isChain_cons, isChain_append] at hchain
    obtain ⟨c', hc'⟩ := ih hchain.2.1
    exact ⟨_, .parentheses ho hc' hq⟩
  | primary _ ih =>
    obtain ⟨c', hc'⟩ := ih hchain
    exact ⟨c', .primary hc'⟩
  | not ht _ ih =>
    rw [isChain_cons] at hchain
    obtain ⟨c', hc'⟩ := ih hchain.2
    cases hc' with
    | primary hc' => exact ⟨_, .not ht hc'⟩
    | not ht' _ => exact absurd ht' ((hchain.1 _ rfl).not ht)
  | unary _ ih =>
    obtain ⟨c', hc'⟩ := ih hchain
    exact ⟨c', .unary hc'⟩
  | and _ ht _ ihl ihr =>
    rw [isChain_append, isChain_cons] at hchain
    obtain ⟨a, ha⟩ := ihl hchain.1
    obtain ⟨b, hb⟩ := ihr hchain.2.1.2
    exact ⟨_, .and ha ht hb⟩
  | conjunction _ ih =>
    obtain ⟨c', hc'⟩ := ih hchain
    exact ⟨c', .conjunction hc'⟩
  | or _ ht _ ihl ihr =>
    rw [isChain_append, isChain_cons] at hchain
    obtain ⟨a, ha⟩ := ihl hchain.1
    obtain ⟨b, hb⟩ := ihr hchain.2.1.2
    exact ⟨_, .or ha ht hb⟩

/-! ## The tokens of a condition -/

/-- The first token of a condition: a value or a parenthesis, or NOT. -/
def Starts (level : Level) (t : Token P) : Prop :=
  IsValue t ∨ t.tokenType = .leftParen ∨ (level ≠ .primary ∧ t.tokenType = .not)

def Ends (t : Token P) : Prop := IsValue t ∨ t.tokenType = .rightParen

theorem starts_of_readPredicate (h : ReadPredicate ts p) : ∃ t ∈ ts.head?, IsValue t := by
  cases h with
  | comparison ha _ _ | like ha _ _ _ _ | between ha _ _ _ _ _ | notBetween ha _ _ _ _ _ _ => exact ⟨_, rfl, ha⟩

theorem ends_of_readPredicate (h : ReadPredicate ts p) : ∃ t ∈ ts.getLast?, IsValue t := by
  cases h with
  | comparison _ _ hb | like _ _ hb _ _ | between _ _ _ _ _ hb | notBetween _ _ _ _ _ _ hb => exact ⟨_, rfl, hb⟩

theorem starts_of_parses (h : Parses ReadPredicate operand level ts c) : ∃ t ∈ ts.head?, Starts level t := by
  induction h with
  | predicate h =>
    obtain ⟨t, ht, hv⟩ := starts_of_readPredicate h
    exact ⟨t, ht, .inl hv⟩
  | parentheses ho _ _ _ => exact ⟨_, rfl, .inr (.inl ho)⟩
  | primary _ ih =>
    obtain ⟨t, ht, hv | hp | ⟨hne, -⟩⟩ := ih
    · exact ⟨t, ht, .inl hv⟩
    · exact ⟨t, ht, .inr (.inl hp)⟩
    · exact absurd rfl hne
  | not ht _ _ => exact ⟨_, rfl, .inr (.inr ⟨nofun, ht⟩)⟩
  | unary _ ih | conjunction _ ih =>
    obtain ⟨t, ht, hs⟩ := ih
    exact ⟨t, ht, hs.imp_right (Or.imp_right fun h => ⟨nofun, h.2⟩)⟩
  | and _ _ _ ih _ | or _ _ _ ih _ =>
    obtain ⟨t, ht, hs⟩ := ih
    exact ⟨t, mem_head?_append_of_mem_head? ht, hs⟩

theorem ends_of_parses (h : Parses ReadPredicate operand level ts c) : ∃ t ∈ ts.getLast?, Ends t := by
  induction h with
  | predicate h =>
    obtain ⟨t, ht, hv⟩ := ends_of_readPredicate h
    exact ⟨t, ht, .inl hv⟩
  | parentheses _ _ hq _ =>
    refine ⟨_, ?_, .inr hq⟩
    rw [Option.mem_def, ← cons_append, getLast?_concat]
  | primary _ ih | unary _ ih | conjunction _ ih => exact ih
  | not _ _ ih =>
    obtain ⟨t, ht, he⟩ := ih
    exact ⟨t, mem_getLast?_cons ht, he⟩
  | and _ _ _ _ ih | or _ _ _ _ ih =>
    obtain ⟨t, ht, he⟩ := ih
    exact ⟨t, mem_getLast?_append_of_mem_getLast? (mem_getLast?_cons ht), he⟩

theorem IsValue.ne (h : IsValue t) {ty : TokenType} (hty : isParameter ty = false) : t.tokenType ≠ ty := by
  rintro rfl
  rw [IsValue, hty] at h
  cases h

theorem follows_of_ne (hnot : a.tokenType ≠ .not) (hlike : a.tokenType ≠ .like) : Follows a b :=
  ⟨fun h => absurd h hnot, fun h => absurd h hlike⟩

theorem IsValue.follows (h : IsValue a) : Follows a b := follows_of_ne (h.ne rfl) (h.ne rfl)

theorem Ends.follows (h : Ends a) : Follows a b := by
  rcases h with hv | hp
  · exact hv.follows
  · exact follows_of_ne (by rw [hp]; nofun) (by rw [hp]; nofun)

theorem isChain_of_readPredicate (h : ReadPredicate ts p) : ts.IsChain Follows := by
  have htype : ∀ {a b : Token P} {ty : TokenType}, a.tokenType = ty → ty ≠ .not → ty ≠ .like → Follows a b := by
    rintro a b ty rfl hnot hlike
    exact follows_of_ne hnot hlike
  cases h with
  | comparison ha hop _ =>
    refine .cons_cons ha.follows (.cons_cons (follows_of_ne ?_ ?_) (.singleton _)) <;>
    · intro hk
      rw [hk] at hop
      cases hop
  | like ha hk _ hs hr =>
    refine .cons_cons ha.follows (.cons_cons ⟨fun h => ?_, fun _ => ⟨_, _, hs, hr⟩⟩ (.singleton _))
    rw [hk] at h
    cases h
  | between hf _ hk ha hn _ =>
    exact .cons_cons hf.follows (.cons_cons (htype hk nofun nofun)
      (.cons_cons ha.follows (.cons_cons (htype hn nofun nofun) (.singleton _))))
  | notBetween hf _ hx hk ha hn _ =>
    refine .cons_cons hf.follows (.cons_cons ⟨fun _ => by rw [hk]; nofun, fun h => ?_⟩
      (.cons_cons (htype hk nofun nofun) (.cons_cons ha.follows (.cons_cons (htype hn nofun nofun) (.singleton _)))))
    rw [hx] at h
    cases h

theorem isChain_append_cons {l r : List (Token P)} (hl : l.IsChain Follows) (hr : r.IsChain Follows)
    (hlast : ∃ x ∈ l.getLast?, Ends x) (hnot : t.tokenType ≠ .not) (hlike : t.tokenType ≠ .like) :
    (l ++ t :: r).IsChain Follows := by
  rw [isChain_append, isChain_cons]
  refine ⟨hl, ⟨fun _ _ => follows_of_ne hnot hlike, hr⟩, fun x hx _ _ => ?_⟩
  obtain ⟨y, hy, he⟩ := hlast
  rw [hx] at hy
  cases hy
  exact he.follows

theorem isChain_of_parses (h : Parses ReadPredicate .primary level ts c) : ts.IsChain Follows := by
  induction h with
  | predicate h => exact isChain_of_readPredicate h
  | parentheses ho h hq ih =>
    rw [isChain_cons]
    exact ⟨fun _ _ => follows_of_ne (by rw [ho]; nofun) (by rw [ho]; nofun),
      isChain_append_cons ih .nil (ends_of_parses h) (by rw [hq]; nofun) (by rw [hq]; nofun)⟩
  | primary _ ih | unary _ ih | conjunction _ ih => exact ih
  | @not ts t c ht h ih =>
    rw [isChain_cons]
    refine ⟨fun y hy => ⟨fun _ => ?_, fun hlike => ?_⟩, ih⟩
    · obtain ⟨x, hx, hs⟩ := starts_of_parses h
      rw [hx] at hy
      cases hy
      rcases hs with hv | hp | ⟨hne, -⟩
      · exact hv.ne rfl
      · rw [hp]
        nofun
      · exact absurd rfl hne
    · rw [ht] at hlike
      cases hlike
  | and hl ht _ ihl ihr | or hl ht _ ihl ihr =>
    exact isChain_append_cons ihl ihr (ends_of_parses hl) (by rw [ht]; nofun) (by rw [ht]; nofun)

/-! ## The length of a condition -/

def Predicate.length {F R : Type} : Predicate F R → Nat
  | .comparison _ _ _ => 3
  | .between _ false _ => 5
  | .between _ true _ => 6

def Condition.length {F R : Type} : Condition (Predicate F R) → Nat
  | .predicate p => p.length
  | .binary l _ r => l.length + r.length + 1
  | .unary _ c => c.length + 1
  | .parentheses c => c.length + 2

theorem length_of_parses {pred : List (Token P) → Predicate P.F64 P.Regex → Prop}
    (hpred : ∀ ts p, pred ts p → ReadPredicate ts p) (h : Parses pred operand level ts c) : ts.length = c.length := by
  induction h with
  | predicate h =>
    cases hpred _ _ h <;> rfl
  | parentheses _ _ _ ih =>
    rw [length_cons, length_append, ih]
    rfl
  | primary _ ih | unary _ ih | conjunction _ ih => exact ih
  | not _ _ ih =>
    rw [length_cons, ih]
    rfl
  | and _ _ _ ihl ihr | or _ _ _ ihl ihr =>
    rw [length_append, length_cons, ihl, ihr]
    exact Nat.add_assoc _ _ _ |>.symm

theorem tokenType_ne_dot_of_derives (h : Derives ts) : ∀ t ∈ ts, t.tokenType ≠ .dot := by
  have hrel : ∀ {t : Token P}, IsRelOp t → t.tokenType ≠ .dot := by
    rintro t (h | h) hdot
    · rw [hdot] at h
      cases h
    · rw [hdot] at h
      cases h
  have htype : ∀ {t : Token P} {ty : TokenType}, t.tokenType = ty → ty ≠ .dot → t.tokenType ≠ .dot :=
    fun h hne => h ▸ hne
  have hval : ∀ {t : Token P}, IsValue t → t.tokenType ≠ .dot := fun h => h.ne rfl
  induction h with
  | predicate h =>
    cases h with
    | fieldFirst ha hop hb => simp [hval ha.isValue, hrel hop, hval hb]
    | fieldSecond ha hop hb => simp [hval ha, hrel hop, hval hb.isValue]
    | between hf hk ha hn hb => simp [hval hf.isValue, hk, hval ha, hn, hval hb]
    | notBetween hf hx hk ha hn hb => simp [hval hf.isValue, hx, hk, hval ha, hn, hval hb]
  | and _ ht _ ihl ihr | or _ ht _ ihl ihr =>
    rw [forall_mem_append, forall_mem_cons]
    exact ⟨ihl, htype ht nofun, ihr⟩
  | not ht _ ih =>
    rw [forall_mem_cons]
    exact ⟨htype ht nofun, ih⟩
  | parentheses ho _ hq ih =>
    rw [forall_mem_cons, forall_mem_append, forall_mem_singleton]
    exact ⟨htype ho nofun, ih, htype hq nofun⟩

end Int2Dds.Sql
