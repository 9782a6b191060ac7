import Int2Dds.Sql.Grammar

/-!
# What the parser reads

* `parsePredicate_ok_iff` : a predicate is read exactly where `ReadPredicate` has one;
* `reads_primary`, `reads_unary`, `reads_and`, `reads_or`, `reads_conditionTo` : so are the conditions of each level, if
  the conditions in parentheses are;
* `parseCondition_ok_iff` : the parser reads an initial part that is a condition and that neither AND nor OR follows.
-/

namespace Int2Dds.Sql

open Lib Outcome List

variable {P : Platform}

/-! ## Tokens -/

theorem currentToken_cons (t : Token P) (ts : List (Token P)) : currentToken (t :: ts) = t := rfl

variable {t : Token P} {ty : TokenType} {ts rest : List (Token P)} {left : Parameter P.F64}
  {p : Predicate P.F64 P.Regex} {c : Condition (Predicate P.F64 P.Regex)}

theorem matchToken_cons {ty' : TokenType} (h : t.tokenType = ty') (ts : List (Token P)) :
    matchToken (t :: ts) ty = decide (ty' = ty) := by
  rw [matchToken, currentToken_cons, h]

theorem not_matchToken_cons {ty' : TokenType} (h : t.tokenType = ty') (ts : List (Token P)) (hne : ty' ≠ ty) :
    ¬ matchToken (t :: ts) ty = true := by
  rw [matchToken_cons h, decide_eq_true_iff]
  exact hne

theorem matchToken_iff (hty : ty ≠ .eof) : matchToken ts ty = true ↔ ∃ t rest, ts = t :: rest ∧ t.tokenType = ty := by
  rw [matchToken, decide_eq_true_iff]
  cases ts with
  | nil => exact iff_of_false (fun h => hty h.symm) nofun
  | cons t ts =>
    constructor
    · intro h
      exact ⟨t, ts, rfl, h⟩
    · rintro ⟨t', rest, heq, h⟩
      cases heq
      exact h

theorem headIs_isType_iff (hty : ty ≠ .eof) : HeadIs (isType ty) ts ↔ matchToken ts ty = true := by
  cases ts with
  | nil =>
    refine iff_of_false not_headIs_nil ?_
    rw [matchToken_iff hty]
    nofun
  | cons t ts => exact headIs_cons

theorem safe_expect (ts : List (Token P)) : Safe 0 (expect ts ty) := by
  unfold expect
  split_ifs
  · exact safe_pure _
  · exact safe_error _

theorem expect_ok_iff (hty : ty ≠ .eof) :
    (expect ts ty).result = .ok (t, rest) ↔ ts = t :: rest ∧ t.tokenType = ty := by
  unfold expect
  cases ts with
  | nil =>
    rw [if_neg (fun h => hty h.symm)]
    exact iff_of_false nofun nofun
  | cons t' ts =>
    rw [result_ite_eq_ok]
    constructor
    · rintro ⟨h, ⟨⟩⟩
      exact ⟨rfl, h⟩
    · rintro ⟨heq, h⟩
      cases heq
      exact ⟨h, rfl⟩

theorem expect_cons (h : t.tokenType = ty) (ts : List (Token P)) : expect (t :: ts) ty = pure (t, ts) := if_pos h

theorem safe_parseParameter (ts : List (Token P)) : Safe 0 (parseParameter ts) := by
  unfold parseParameter
  split_ifs
  · exact safe_pure _
  · exact safe_error _

theorem parseParameter_ok_iff {v : Parameter P.F64} :
    (parseParameter ts).result = .ok (v, rest) ↔ ∃ t, ts = t :: rest ∧ IsValue t ∧ v = t.value := by
  unfold parseParameter
  cases ts with
  | nil => exact iff_of_false nofun nofun
  | cons t ts =>
    rw [result_ite_eq_ok]
    constructor
    · rintro ⟨h, ⟨⟩⟩
      exact ⟨t, rfl, h, rfl⟩
    · rintro ⟨t', heq, h, rfl⟩
      cases heq
      exact ⟨h, rfl⟩

/-! ## Predicates -/

theorem safe_parseComparisonOp (ts : List (Token P)) : Safe 0 (parseComparisonOp ts) := by
  unfold parseComparisonOp
  split
  · exact safe_pure _
  · split_ifs <;> exact safe_error _

theorem parseComparisonOp_ok_iff {op : RelOp P.Regex} :
    (parseComparisonOp ts).result = .ok (op, rest) ↔
      ∃ k, ts = k :: rest ∧ comparisonOp P.Regex k.tokenType = some op := by
  unfold parseComparisonOp
  cases ts with
  | nil => exact iff_of_false nofun nofun
  | cons k ts =>
    rw [currentToken_cons]
    cases hop : comparisonOp P.Regex k.tokenType with
    | some op' =>
      constructor
      · rintro ⟨⟩
        exact ⟨k, rfl, hop⟩
      · rintro ⟨k', heq, hop'⟩
        cases heq
        rw [hop] at hop'
        cases hop'
        rfl
    | none =>
      refine iff_of_false ?_ ?_
      · split_ifs <;> nofun
      · rintro ⟨k', heq, hop'⟩
        cases heq
        rw [hop] at hop'
        cases hop'

theorem safe_parseRange (ts : List (Token P)) : Safe 0 (parseRange ts) := by
  refine (safe_parseParameter ts).bind (fun _ _ => (safe_expect _).bind (fun _ _ => ?_))
  exact (safe_parseParameter _).bind (fun _ _ => safe_pure _)

theorem parseRange_ok_iff {range : Range P.F64} :
    (parseRange ts).result = .ok (range, rest) ↔ ∃ a n b, ts = a :: n :: b :: rest ∧ IsValue a ∧
      n.tokenType = .and ∧ IsValue b ∧ range = ⟨a.value, b.value⟩ := by
  unfold parseRange
  simp only [result_bind_eq_ok, Prod.exists, parseParameter_ok_iff, expect_ok_iff (show TokenType.and ≠ .eof by decide)]
  constructor
  · rintro ⟨v, ts₁, ⟨a, rfl, ha, rfl⟩, n, ts₂, ⟨rfl, hn⟩, w, ts₃, ⟨b, rfl, hb, rfl⟩, hpure⟩
    cases hpure
    exact ⟨a, n, b, rfl, ha, hn, hb, rfl⟩
  · rintro ⟨a, n, b, rfl, ha, hn, hb, rfl⟩
    exact ⟨_, _, ⟨a, rfl, ha, rfl⟩, n, _, ⟨rfl, hn⟩, _, _, ⟨b, rfl, hb, rfl⟩, rfl⟩

theorem safe_parseBetween (negated : Bool) (ts : List (Token P)) : Safe 0 (parseBetween left negated ts) := by
  refine (safe_parseRange ts).bind ?_
  rintro ⟨range, rest⟩ -
  dsimp only
  split
  · exact safe_pure _
  · exact safe_error _

theorem parseBetween_ok_iff {negated : Bool} :
    (parseBetween left negated ts).result = .ok (p, rest) ↔ ∃ field a n b, left = .string field ∧
      ts = a :: n :: b :: rest ∧ IsValue a ∧ n.tokenType = .and ∧ IsValue b ∧
      p = .between field negated ⟨a.value, b.value⟩ := by
  unfold parseBetween
  rw [result_bind_eq_ok]
  constructor
  · rintro ⟨⟨range, ts₁⟩, hrange, hp⟩
    obtain ⟨a, n, b, rfl, ha, hn, hb, rfl⟩ := parseRange_ok_iff.1 hrange
    cases left with
    | string field =>
      cases hp
      exact ⟨field, a, n, b, rfl, rfl, ha, hn, hb, rfl⟩
    | _ => cases hp
  · rintro ⟨field, a, n, b, rfl, rfl, ha, hn, hb, rfl⟩
    exact ⟨_, parseRange_ok_iff.2 ⟨a, n, b, rfl, ha, hn, hb, rfl⟩, rfl⟩

theorem safe_parseLike (ts : List (Token P)) : Safe 0 (parseLike left ts) := by
  refine (safe_parseParameter ts).bind ?_
  rintro ⟨pattern, rest⟩ -
  dsimp only
  split
  · split
    · exact safe_pure _
    · exact safe_error _
  · exact safe_error _

theorem parseLike_ok_iff :
    (parseLike left ts).result = .ok (p, rest) ↔ ∃ b s r, ts = b :: rest ∧ IsValue b ∧ b.value = .string s ∧
      P.newRegex (likeRegex s) = some r ∧ p = .comparison left (.like r) b.value := by
  unfold parseLike
  rw [result_bind_eq_ok]
  constructor
  · rintro ⟨⟨v, ts₁⟩, hv, hp⟩
    obtain ⟨b, rfl, hb, rfl⟩ := parseParameter_ok_iff.1 hv
    dsimp only at hp
    split at hp
    case h_1 s hs =>
      split at hp
      case h_1 r hr =>
        cases hp
        exact ⟨b, s, r, rfl, hb, hs, hr, by rw [hs]⟩
      case h_2 => cases hp
    case h_2 => cases hp
  · rintro ⟨b, s, r, rfl, hb, hs, hr, rfl⟩
    refine ⟨_, parseParameter_ok_iff.2 ⟨b, rfl, hb, rfl⟩, ?_⟩
    rw [hs]
    dsimp only
    rw [hr]
    rfl

theorem safe_parseComparison (ts : List (Token P)) : Safe 0 (parseComparison left ts) :=
  (safe_parseComparisonOp ts).bind fun _ _ => (safe_parseParameter _).bind fun _ _ => safe_pure _

theorem parseComparison_ok_iff :
    (parseComparison left ts).result = .ok (p, rest) ↔ ∃ k op b, ts = k :: b :: rest ∧
      comparisonOp P.Regex k.tokenType = some op ∧ IsValue b ∧ p = .comparison left op b.value := by
  unfold parseComparison
  simp only [result_bind_eq_ok, Prod.exists, parseComparisonOp_ok_iff, parseParameter_ok_iff]
  constructor
  · rintro ⟨op, ts₁, ⟨k, rfl, hop⟩, v, ts₂, ⟨b, rfl, hb, rfl⟩, hpure⟩
    cases hpure
    exact ⟨k, op, b, rfl, hop, hb, rfl⟩
  · rintro ⟨k, op, b, rfl, hop, hb, rfl⟩
    exact ⟨op, _, ⟨k, rfl, hop⟩, _, _, ⟨b, rfl, hb, rfl⟩, rfl⟩

theorem safe_parsePredicateRest (ts : List (Token P)) : Safe 0 (parsePredicateRest left ts) := by
  unfold parsePredicateRest
  split_ifs
  · exact (safe_expect _).bind fun _ _ => safe_parseBetween _ _
  · exact safe_parseBetween _ _
  · exact safe_parseLike _
  · exact safe_parseComparison _

theorem safe_parsePredicate (ts : List (Token P)) : Safe 0 (parsePredicate ts) :=
  (safe_parseParameter ts).bind fun _ _ => safe_parsePredicateRest _

theorem parsePredicateRest_ok_iff {a : Token P} (ha : IsValue a) :
    (parsePredicateRest a.value ts).result = .ok (p, rest) ↔ ∃ q, ts = q ++ rest ∧ ReadPredicate (a :: q) p := by
  constructor
  · intro h
    unfold parsePredicateRest at h
    split_ifs at h with hnot hbetween hlike
    · obtain ⟨x, ts, rfl, hx⟩ := (matchToken_iff (by decide)).1 hnot
      obtain ⟨⟨k, ts'⟩, hexpect, hrest⟩ := result_bind_eq_ok.1 h
      obtain ⟨rfl, hk⟩ := (expect_ok_iff (by decide)).1 hexpect
      obtain ⟨field, b, n, c, hfield, rfl, hb, hn, hc, rfl⟩ := parseBetween_ok_iff.1 hrest
      exact ⟨[x, k, b, n, c], rfl, .notBetween ha hfield hx hk hb hn hc⟩
    · obtain ⟨k, ts, rfl, hk⟩ := (matchToken_iff (by decide)).1 hbetween
      obtain ⟨field, b, n, c, hfield, rfl, hb, hn, hc, rfl⟩ := parseBetween_ok_iff.1 h
      exact ⟨[k, b, n, c], rfl, .between ha hfield hk hb hn hc⟩
    · obtain ⟨k, ts, rfl, hk⟩ := (matchToken_iff (by decide)).1 hlike
      obtain ⟨b, s, r, rfl, hb, hs, hr, rfl⟩ := parseLike_ok_iff.1 h
      exact ⟨[k, b], rfl, .like ha hk hb hs hr⟩
    · obtain ⟨k, op, b, rfl, hop, hb, rfl⟩ := parseComparison_ok_iff.1 h
      exact ⟨[k, b], rfl, .comparison ha hop hb⟩
  · rintro ⟨q, rfl, hread⟩
    unfold parsePredicateRest
    cases hread with
    | @comparison _ k _ _ _ hop hb =>
      have hne : ∀ ty, comparisonOp P.Regex ty = none → ¬ decide (k.tokenType = ty) = true := by
        intro ty hty h
        rw [of_decide_eq_true h, hty] at hop
        cases hop
      rw [cons_append, matchToken_cons rfl, matchToken_cons rfl, matchToken_cons rfl, if_neg (hne .not rfl),
        if_neg (hne .between rfl), if_neg (hne .like rfl)]
      exact parseComparison_ok_iff.2 ⟨_, _, _, rfl, hop, hb, rfl⟩
    | like _ hk hb hs hr =>
      rw [cons_append, matchToken_cons hk, matchToken_cons hk, matchToken_cons hk]
      exact parseLike_ok_iff.2 ⟨_, _, _, rfl, hb, hs, hr, rfl⟩
    | between _ hfield hk hb hn hc =>
      rw [cons_append, matchToken_cons hk, matchToken_cons hk]
      exact parseBetween_ok_iff.2 ⟨_, _, _, _, hfield, rfl, hb, hn, hc, rfl⟩
    | notBetween _ hfield hx hk hb hn hc =>
      rw [cons_append, matchToken_cons hx, if_pos (by decide), result_bind_eq_ok]
      exact ⟨_, (expect_ok_iff (by decide)).2 ⟨rfl, hk⟩,
        parseBetween_ok_iff.2 ⟨_, _, _, _, hfield, rfl, hb, hn, hc, rfl⟩⟩

theorem parsePredicate_ok_iff :
    (parsePredicate ts).result = .ok (p, rest) ↔ ∃ q, ts = q ++ rest ∧ ReadPredicate q p := by
  rw [parsePredicate, result_bind_eq_ok]
  constructor
  · rintro ⟨⟨v, ts₁⟩, hv, h⟩
    obtain ⟨a, rfl, ha, rfl⟩ := parseParameter_ok_iff.1 hv
    obtain ⟨q, rfl, hread⟩ := (parsePredicateRest_ok_iff ha).1 h
    exact ⟨a :: q, rfl, hread⟩
  · rintro ⟨q, rfl, hread⟩
    obtain ⟨a, hhead, ha⟩ := starts_of_readPredicate hread
    obtain ⟨q, rfl⟩ := head?_eq_some_iff.1 hhead
    exact ⟨(a.value, q ++ rest), parseParameter_ok_iff.2 ⟨a, rfl, ha, rfl⟩,
      (parsePredicateRest_ok_iff ha).2 ⟨q, rfl, hread⟩⟩

/-! ## Conditions -/

abbrev ReadCondition (level : Level) (ts : List (Token P)) (c : Condition (Predicate P.F64 P.Regex)) : Prop :=
  Parses ReadPredicate .primary level ts c

def CanStop (rest : List (Token P)) : Prop := ¬ HeadIs (isType .and) rest ∧ ¬ HeadIs (isType .or) rest

theorem canStop_cons (hand : t.tokenType ≠ .and) (hor : t.tokenType ≠ .or) : CanStop (t :: ts) := by
  constructor
  · intro h
    have ht := headIs_cons.1 h
    exact hand (of_decide_eq_true ht)
  · intro h
    have ht := headIs_cons.1 h
    exact hor (of_decide_eq_true ht)

theorem starts_of_append {level : Level} {q : List (Token P)} (h : ReadCondition level q c)
    (heq : t :: ts = q ++ rest) : Starts level t := by
  obtain ⟨x, hx, hs⟩ := starts_of_parses h
  obtain ⟨q, rfl⟩ := head?_eq_some_iff.1 hx
  rw [cons_append, cons.injEq] at heq
  rwa [heq.1]

theorem not_starts_primary (ht : t.tokenType = ty) (hvalue : isParameter ty = false) (hparen : ty ≠ .leftParen) :
    ¬ Starts .primary t := by
  rintro (hv | hp | ⟨hne, -⟩)
  · exact hv.ne hvalue ht
  · exact hparen (ht.symm.trans hp)
  · exact hne rfl

theorem parsePredicateCondition_ok_iff :
    (parsePredicateCondition ts).result = .ok (c, rest) ↔
      ∃ q p, ts = q ++ rest ∧ ReadPredicate q p ∧ c = .predicate p := by
  unfold parsePredicateCondition
  simp only [result_bind_eq_ok, Prod.exists, parsePredicate_ok_iff]
  constructor
  · rintro ⟨p, ts₁, ⟨q, rfl, hq⟩, hpure⟩
    cases hpure
    exact ⟨q, p, rfl, hq, rfl⟩
  · rintro ⟨q, p, rfl, hq, rfl⟩
    exact ⟨p, rest, ⟨q, rfl, hq⟩, rfl⟩

theorem safe_parsePredicateCondition (ts : List (Token P)) : Safe 0 (parsePredicateCondition ts) :=
  (safe_parsePredicate ts).bind fun _ _ => safe_pure _

section

variable {n : Nat} {condition : ConditionParser P}

theorem reads_primary (h : ∀ m < n, Recognizes m (ReadCondition .disjunction) CanStop condition) :
    Recognizes n (ReadCondition .primary) (fun _ => True) (parsePrimaryCondition condition) where
  safe ts hn := by
    unfold parsePrimaryCondition
    split_ifs with hparen
    · obtain ⟨o, ts, rfl, -⟩ := (matchToken_iff (by decide)).1 hparen
      refine ((h ts.length hn).safe ts le_rfl).bind ?_
      exact fun _ _ => (safe_expect _).bind fun _ _ => safe_pure _
    · exact safe_parsePredicateCondition ts
  ok_iff ts c rest hn := by
    unfold parsePrimaryCondition
    split_ifs with hparen
    · obtain ⟨o, ts, rfl, ho⟩ := (matchToken_iff (by decide)).1 hparen
      unfold parseParentheses
      simp only [result_bind_eq_ok, Prod.exists, expect_ok_iff (show TokenType.rightParen ≠ .eof by decide)]
      constructor
      · rintro ⟨c', ts₁, hc', q, ts₂, ⟨rfl, hq⟩, hpure⟩
        cases hpure
        obtain ⟨p, rfl, hp, -⟩ := ((h ts.length hn).ok_iff ts c' _ le_rfl).1 hc'
        refine ⟨o :: (p ++ [q]), ?_, .parentheses ho hp hq, trivial⟩
        rw [cons_append, append_assoc, singleton_append]
      · rintro ⟨p, heq, hp, -⟩
        cases hp with
        | predicate hp =>
          obtain ⟨a, ha, hv⟩ := starts_of_readPredicate hp
          obtain ⟨p, rfl⟩ := head?_eq_some_iff.1 ha
          rw [cons_append, cons.injEq] at heq
          rw [heq.1] at ho
          exact absurd ho (hv.ne rfl)
        | @parentheses p o' q c' ho' hp hq =>
          rw [cons_append, append_assoc] at heq
          obtain ⟨rfl, rfl⟩ := heq
          have hstop : CanStop (q :: rest) := canStop_cons (by rw [hq]; nofun) (by rw [hq]; nofun)
          exact ⟨c', q :: rest, ((h _ hn).ok_iff _ c' _ le_rfl).2 ⟨p, rfl, hp, hstop⟩, q, rest, ⟨rfl, hq⟩, rfl⟩
    · rw [parsePredicateCondition_ok_iff]
      constructor
      · rintro ⟨q, p, rfl, hq, rfl⟩
        exact ⟨q, rfl, .predicate hq, trivial⟩
      · rintro ⟨q, rfl, hq, -⟩
        cases hq with
        | predicate hp => exact ⟨_, _, rfl, hp, rfl⟩
        | parentheses ho _ _ => exact absurd ((matchToken_iff (by decide)).2 ⟨_, _, rfl, ho⟩) hparen

theorem reads_unary (h : ∀ m < n, Recognizes m (ReadCondition .disjunction) CanStop condition) :
    Recognizes n (ReadCondition .unary) (fun _ => True) (parseUnaryCondition condition) where
  safe ts hn := by
    unfold parseUnaryCondition
    split_ifs with hnot
    · exact safe_parsePredicateCondition ts
    · have hlen : ts.tail.length ≤ n := by
        rw [length_tail]
        omega
      exact ((reads_primary h).safe ts.tail hlen).bind fun _ _ => safe_pure _
    · exact (reads_primary h).safe ts hn
  ok_iff ts c rest hn := by
    unfold parseUnaryCondition
    split_ifs with hnot hbetween
    · -- NOT starts no predicate, and BETWEEN no condition
      obtain ⟨t, ts, rfl, ht⟩ := (matchToken_iff (by decide)).1 hnot
      refine iff_of_false (fun hok => ?_) ?_
      · obtain ⟨q, p, heq, hq, -⟩ := parsePredicateCondition_ok_iff.1 hok
        exact not_starts_primary ht rfl nofun (starts_of_append (.predicate hq) heq)
      · rintro ⟨q, heq, hq, -⟩
        cases hq with
        | primary hq => exact not_starts_primary ht rfl nofun (starts_of_append hq heq)
        | not _ hq =>
          rw [isNotBetweenPredicate, Bool.and_eq_true] at hbetween
          obtain ⟨k, ts, rfl, hk⟩ := (matchToken_iff (by decide)).1 hbetween.2
          rw [cons_append, cons.injEq] at heq
          exact not_starts_primary hk rfl nofun (starts_of_append hq heq.2)
    · obtain ⟨t, ts, rfl, ht⟩ := (matchToken_iff (by decide)).1 hnot
      rw [length_cons] at hn
      rw [result_bind_eq_ok]
      constructor
      · rintro ⟨⟨c', ts₁⟩, hc', hpure⟩
        cases hpure
        obtain ⟨p, rfl, hp, -⟩ := ((reads_primary h).ok_iff ts c' _ (by omega)).1 hc'
        exact ⟨t :: p, rfl, .not ht hp, trivial⟩
      · rintro ⟨q, heq, hq, -⟩
        cases hq with
        | primary hq => exact absurd (starts_of_append hq heq) (not_starts_primary ht rfl nofun)
        | @not q _ c' _ hq =>
          rw [cons_append, cons.injEq] at heq
          exact ⟨(c', rest), ((reads_primary h).ok_iff ts c' rest (by omega)).2 ⟨q, heq.2, hq, trivial⟩, rfl⟩
    · rw [(reads_primary h).ok_iff ts c rest hn]
      constructor
      · rintro ⟨p, rfl, hp, -⟩
        exact ⟨p, rfl, .primary hp, trivial⟩
      · rintro ⟨q, rfl, hq, -⟩
        cases hq with
        | primary hq => exact ⟨q, rfl, hq, trivial⟩
        | not ht _ => exact absurd ((matchToken_iff (by decide)).2 ⟨_, _, rfl, ht⟩) hnot

theorem chain_and_iff {ts : List (Token P)} {c : Condition (Predicate P.F64 P.Regex)} :
    Chain (ReadCondition .unary) (isType .and) (fun l r => .binary l .and r) ts c ↔
      ReadCondition .conjunction ts c := by
  constructor
  · intro h
    induction h with
    | one h => exact .unary h
    | more _ ht hr ih => exact .and ih (of_decide_eq_true ht) hr
  · intro h
    generalize hlevel : Level.conjunction = level at h
    induction h with
    | unary h _ => exact .one h
    | and _ ht hr ih _ => exact .more (ih rfl) (decide_eq_true ht) hr
    | _ => cases hlevel

theorem chain_or_iff {ts : List (Token P)} {c : Condition (Predicate P.F64 P.Regex)} :
    Chain (ReadCondition .conjunction) (isType .or) (fun l r => .binary l .or r) ts c ↔
      ReadCondition .disjunction ts c := by
  constructor
  · intro h
    induction h with
    | one h => exact .conjunction h
    | more _ ht hr ih => exact .or ih (of_decide_eq_true ht) hr
  · intro h
    generalize hlevel : Level.disjunction = level at h
    induction h with
    | conjunction h _ => exact .one h
    | or _ ht hr ih _ => exact .more (ih rfl) (decide_eq_true ht) hr
    | _ => cases hlevel

theorem reads_and (h : ∀ m < n, Recognizes m (ReadCondition .disjunction) CanStop condition) :
    Recognizes n (ReadCondition .conjunction) (fun rest => ¬ HeadIs (isType .and) rest)
      (parseAndCondition condition) := by
  have hchain := (reads_unary h).leftAssoc (isType .and) (fun l r => .binary l .and r) (fun _ _ _ => trivial)
  refine ⟨hchain.safe, fun ts c rest hn => ?_⟩
  rw [parseAndCondition, hchain.ok_iff ts c rest hn]
  simp only [chain_and_iff, true_and]

theorem reads_or (h : ∀ m < n, Recognizes m (ReadCondition .disjunction) CanStop condition) :
    Recognizes n (ReadCondition .disjunction) CanStop (parseOrCondition condition) := by
  have hop : ∀ (t : Token P) (ts : List (Token P)), isType .or t = true → ¬ HeadIs (isType .and) (t :: ts) := by
    intro t ts ht hhead
    have hand := headIs_cons.1 hhead
    have hand : t.tokenType = .and := of_decide_eq_true hand
    rw [of_decide_eq_true ht] at hand
    cases hand
  have hchain := (reads_and h).leftAssoc (isType .or) (fun l r => .binary l .or r) hop
  refine ⟨hchain.safe, fun ts c rest hn => ?_⟩
  rw [parseOrCondition, hchain.ok_iff ts c rest hn]
  simp only [chain_or_iff, CanStop]

end

/-- A depth above the number of tokens is enough. -/
theorem reads_conditionTo {depth n : Nat} (hn : n < depth) :
    Recognizes n (ReadCondition .disjunction) CanStop (parseConditionTo (P := P) depth) := by
  induction depth generalizing n with
  | zero => exact absurd hn (Nat.not_lt_zero n)
  | succ depth ih => exact reads_or (fun m hm => ih (by omega))

theorem safe_parseCondition (ts : List (Token P)) : Safe 0 (parseCondition ts) :=
  (reads_conditionTo (Nat.lt_succ_self _)).safe ts le_rfl

theorem parseCondition_ok_iff :
    (parseCondition ts).result = .ok (c, rest) ↔
      ∃ p, ts = p ++ rest ∧ ReadCondition .disjunction p c ∧ CanStop rest :=
  (reads_conditionTo (Nat.lt_succ_self _)).ok_iff ts c rest le_rfl

end Int2Dds.Sql
