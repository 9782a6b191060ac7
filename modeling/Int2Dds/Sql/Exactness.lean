import Int2Dds.Sql.Recognition

/-!
# Which filter expressions are parsed as documented

A text should be accepted as a filter expression exactly when it splits into documented tokens that the documented
grammar derives, with the tree of that derivation, and be refused with an error otherwise.

* `Begins` : what the parser accepts a list of tokens for: an initial part that is a condition or a `SELECT` expression.
-/

namespace Int2Dds.Sql

open Lib Outcome List

variable {P : Platform}

/-! ## SELECT expressions -/

/-- `FIELDNAME | FIELDNAME FIELDNAME | FIELDNAME AS FIELDNAME`. -/
inductive FieldSpecText : List (Token P) → Prop
  | field {a : Token P} : IsField a → FieldSpecText [a]
  | fieldField {a b : Token P} : IsField a → IsField b → FieldSpecText [a, b]
  | fieldAs {a k b : Token P} : IsField a → k.tokenType = .as_ → IsField b → FieldSpecText [a, k, b]

inductive FieldsText : List (Token P) → Prop
  | one {ts : List (Token P)} : FieldSpecText ts → FieldsText ts
  | more {ts rest : List (Token P)} {t : Token P} : FieldSpecText ts → t.tokenType = .comma → FieldsText rest →
      FieldsText (ts ++ t :: rest)

inductive AggregationText : List (Token P) → Prop
  | all {t : Token P} : t.tokenType = .asterisk → AggregationText [t]
  | fields {ts : List (Token P)} : FieldsText ts → AggregationText ts

inductive JoinText : List (Token P) → Prop
  | naturalJoin {a b : Token P} : a.tokenType = .natural → b.tokenType = .join → JoinText [a, b]
  | naturalInnerJoin {a b c : Token P} : a.tokenType = .natural → b.tokenType = .inner → c.tokenType = .join →
      JoinText [a, b, c]
  | innerNaturalJoin {a b c : Token P} : a.tokenType = .inner → b.tokenType = .natural → c.tokenType = .join →
      JoinText [a, b, c]

def IsTopic (t : Token P) : Prop := (t.tokenType = .identifier ∨ t.tokenType = .string) ∧ ∃ s, t.value = .string s

inductive SelectionText : List (Token P) → Prop
  | topic {t : Token P} : IsTopic t → SelectionText [t]
  | join {t : Token P} {j rest : List (Token P)} : IsTopic t → JoinText j → SelectionText rest →
      SelectionText (t :: (j ++ rest))

def BeginsCondition (ts : List (Token P)) : Prop :=
  ∃ p rest c, ts = p ++ rest ∧ ReadCondition .disjunction p c ∧ CanStop rest

def BeginsTopic (ts : List (Token P)) : Prop :=
  ∃ (s f : Token P) (a l rest : List (Token P)), ts = s :: (a ++ f :: (l ++ rest)) ∧ s.tokenType = .select ∧
    AggregationText a ∧ f.tokenType = .from_ ∧ SelectionText l ∧ ¬ HeadIs (isType .natural) rest ∧
    ¬ HeadIs (isType .inner) rest ∧ (HeadIs (isType .where_) rest → BeginsCondition rest.tail)

def Begins (ts : List (Token P)) : Prop := BeginsCondition ts ∨ BeginsTopic ts

/-! ## SELECT expressions as they are read -/

theorem safe_parseSubjectFieldSpec (ts : List (Token P)) : Safe 0 (parseSubjectFieldSpec ts) := by
  refine (safe_expect _).bind ?_
  rintro ⟨first, ts⟩ -
  dsimp only
  split
  · split_ifs
    · refine (safe_expect _).bind ?_
      rintro ⟨second, ts⟩ -
      split
      · exact safe_pure _
      · exact safe_error _
    · split
      · exact safe_pure _
      · exact safe_error _
    · exact safe_pure _
  · exact safe_error _

variable {rest ts p toks : List (Token P)} {n : Nat} {s : Text}

theorem fieldSpecText_of_ok {f : SubjectFieldSpec} (h : (parseSubjectFieldSpec ts).result = .ok (f, rest)) :
    ∃ p, ts = p ++ rest ∧ FieldSpecText p := by
  obtain ⟨⟨a, ts₁⟩, ha, hafter⟩ := result_bind_eq_ok.1 h
  obtain ⟨rfl, hty⟩ := (expect_ok_iff (by decide)).1 ha
  dsimp only at hafter
  split at hafter
  case h_2 => cases hafter
  case h_1 name hname =>
    have hfield : IsField a := ⟨hty, name, hname⟩
    split_ifs at hafter with has hident
    · obtain ⟨k, ts₂, rfl, hk⟩ := (matchToken_iff (by decide)).1 has
      obtain ⟨⟨b, ts₃⟩, hb, hlast⟩ := result_bind_eq_ok.1 hafter
      obtain ⟨rfl, hbty⟩ := (expect_ok_iff (by decide)).1 hb
      split at hlast
      case h_2 => cases hlast
      case h_1 renamed hrenamed =>
        cases hlast
        exact ⟨[a, k, b], rfl, .fieldAs hfield hk ⟨hbty, renamed, hrenamed⟩⟩
    · obtain ⟨b, ts₂, rfl, hbty⟩ := (matchToken_iff (by decide)).1 hident
      split at hafter
      case h_2 => cases hafter
      case h_1 second hsecond =>
        cases hafter
        exact ⟨[a, b], rfl, .fieldField hfield ⟨hbty, second, hsecond⟩⟩
    · cases hafter
      exact ⟨[a], rfl, .field hfield⟩

theorem parseSubjectFieldSpec_ok (h : FieldSpecText p) (has : ¬ matchToken rest .as_ = true)
    (hident : ¬ matchToken rest .identifier = true) :
    ∃ f, (parseSubjectFieldSpec (p ++ rest)).result = .ok (f, rest) := by
  unfold parseSubjectFieldSpec
  cases h with
  | field ha =>
    obtain ⟨hty, name, hname⟩ := ha
    rw [singleton_append, expect_cons hty, pure_bind]
    dsimp only
    rw [hname]
    dsimp only
    rw [if_neg has, if_neg hident]
    exact ⟨_, rfl⟩
  | @fieldField a b ha hb =>
    obtain ⟨hty, name, hname⟩ := ha
    obtain ⟨hbty, second, hsecond⟩ := hb
    rw [cons_append, singleton_append, expect_cons hty, pure_bind]
    dsimp only
    rw [hname]
    rw [matchToken_cons hbty, matchToken_cons hbty, currentToken_cons, hsecond]
    exact ⟨_, rfl⟩
  | @fieldAs a k b ha hk hb =>
    obtain ⟨hty, name, hname⟩ := ha
    obtain ⟨hbty, renamed, hrenamed⟩ := hb
    rw [cons_append, cons_append, singleton_append, expect_cons hty, pure_bind]
    dsimp only
    rw [hname]
    dsimp only
    rw [matchToken_cons hk, tail_cons, expect_cons hbty, pure_bind]
    rw [hrenamed]
    exact ⟨_, rfl⟩

theorem length_lt_of_fieldSpec_ok {f : SubjectFieldSpec} (h : (parseSubjectFieldSpec ts).result = .ok (f, rest)) :
    rest.length < ts.length := by
  obtain ⟨p, rfl, hp⟩ := fieldSpecText_of_ok h
  cases hp <;> simp only [length_append, length_cons] <;> omega

theorem safe_parseSubjectFields (hn : ts.length < n) : Safe 0 (parseSubjectFields n ts) := by
  induction n generalizing ts with
  | zero => exact absurd hn (Nat.not_lt_zero _)
  | succ n ih =>
    refine (safe_parseSubjectFieldSpec ts).bind ?_
    rintro ⟨f, rest⟩ hf
    have hlt := length_lt_of_fieldSpec_ok hf
    dsimp only
    split_ifs
    · refine Safe.bind (ih ?_) fun _ _ => safe_pure _
      rw [length_tail]
      omega
    · exact safe_pure _

theorem fieldsText_of_ok {fs : List SubjectFieldSpec} (h : (parseSubjectFields n ts).result = .ok (fs, rest)) :
    ∃ p, ts = p ++ rest ∧ FieldsText p := by
  induction n generalizing ts fs with
  | zero => cases h
  | succ n ih =>
    obtain ⟨⟨f, ts₁⟩, hf, hafter⟩ := result_bind_eq_ok.1 h
    obtain ⟨p, rfl, hp⟩ := fieldSpecText_of_ok hf
    dsimp only at hafter
    split_ifs at hafter with hcomma
    · obtain ⟨t, ts₂, rfl, ht⟩ := (matchToken_iff (by decide)).1 hcomma
      obtain ⟨⟨fs', ts₃⟩, hfs, hlast⟩ := result_bind_eq_ok.1 hafter
      cases hlast
      obtain ⟨q, hq, hfields⟩ := ih hfs
      subst hq
      refine ⟨p ++ t :: q, ?_, .more hp ht hfields⟩
      rw [append_assoc, cons_append]
    · cases hafter
      exact ⟨p, rfl, .one hp⟩

theorem parseSubjectFields_ok (h : FieldsText p) (hn : p.length < n) (hfrom : matchToken rest .from_ = true) :
    ∃ fs, fs ≠ [] ∧ (parseSubjectFields n (p ++ rest)).result = .ok (fs, rest) := by
  obtain ⟨k, rest', rfl, hk⟩ := (matchToken_iff (by decide)).1 hfrom
  induction h generalizing n with
  | one hp =>
    obtain ⟨n, rfl⟩ := Nat.exists_eq_add_one.2 (Nat.zero_lt_of_lt hn)
    obtain ⟨f, hf⟩ := parseSubjectFieldSpec_ok hp (not_matchToken_cons hk rest' nofun)
      (not_matchToken_cons hk rest' nofun)
    refine ⟨[f], nofun, ?_⟩
    rw [parseSubjectFields, result_bind_of_ok hf]
    dsimp only
    rw [matchToken_cons hk]
    rfl
  | @more ts rest t hp ht _ ih =>
    obtain ⟨n, rfl⟩ := Nat.exists_eq_add_one.2 (Nat.zero_lt_of_lt hn)
    rw [length_append, length_cons] at hn
    obtain ⟨f, hf⟩ := parseSubjectFieldSpec_ok hp (not_matchToken_cons ht (rest ++ k :: rest') nofun)
      (not_matchToken_cons ht (rest ++ k :: rest') nofun)
    obtain ⟨fs, -, hfs⟩ := ih (n := n) (by omega)
    refine ⟨f :: fs, nofun, ?_⟩
    rw [append_assoc, cons_append, parseSubjectFields, result_bind_of_ok hf]
    dsimp only
    rw [matchToken_cons ht, if_pos (by decide), tail_cons, result_bind_of_ok hfs]
    rfl

theorem safe_parseAggregation (ts : List (Token P)) : Safe 0 (parseAggregation ts) := by
  unfold parseAggregation
  split_ifs
  · exact safe_pure _
  · refine (safe_parseSubjectFields (Nat.lt_succ_self _)).bind ?_
    rintro ⟨fs, rest⟩ -
    dsimp only
    split_ifs
    · exact safe_error _
    · exact safe_pure _

theorem aggregationText_of_ok {a : Aggregation} (h : (parseAggregation ts).result = .ok (a, rest)) :
    ∃ p, ts = p ++ rest ∧ AggregationText p := by
  unfold parseAggregation at h
  split_ifs at h with hall
  · obtain ⟨t, ts, rfl, ht⟩ := (matchToken_iff (by decide)).1 hall
    cases h
    exact ⟨[t], rfl, .all ht⟩
  · obtain ⟨⟨fs, ts₁⟩, hfs, hafter⟩ := result_bind_eq_ok.1 h
    dsimp only at hafter
    split_ifs at hafter
    · cases hafter
    · cases hafter
      obtain ⟨p, rfl, hp⟩ := fieldsText_of_ok hfs
      exact ⟨p, rfl, .fields hp⟩

theorem FieldsText.head (h : FieldsText p) : ∃ t ∈ p.head?, t.tokenType = .identifier := by
  have hspec : ∀ {p : List (Token P)}, FieldSpecText p → ∃ t ∈ p.head?, t.tokenType = .identifier := by
    intro p hp
    cases hp with
    | field ha | fieldField ha _ | fieldAs ha _ _ => exact ⟨_, rfl, ha.1⟩
  cases h with
  | one hp => exact hspec hp
  | more hp _ _ =>
    obtain ⟨t, ht, hty⟩ := hspec hp
    exact ⟨t, mem_head?_append_of_mem_head? ht, hty⟩

theorem parseAggregation_ok (h : AggregationText p) (hfrom : matchToken rest .from_ = true) :
    ∃ a, (parseAggregation (p ++ rest)).result = .ok (a, rest) := by
  unfold parseAggregation
  cases h with
  | all ht =>
    rw [singleton_append, matchToken_cons ht]
    exact ⟨_, rfl⟩
  | fields hp =>
    obtain ⟨t, ht, hty⟩ := hp.head
    obtain ⟨p', hp'⟩ := head?_eq_some_iff.1 ht
    obtain ⟨fs, hne, hfs⟩ := parseSubjectFields_ok (n := (p ++ rest).length + 1) hp
      (by rw [length_append]; omega) hfrom
    have hall : ¬ matchToken (p ++ rest) .asterisk = true := by
      rw [hp', cons_append, matchToken_cons hty]
      decide
    rw [if_neg hall, result_bind_of_ok hfs]
    dsimp only
    rw [if_neg hne]
    exact ⟨_, rfl⟩

theorem safe_parseJoinType (ts : List (Token P)) : Safe 0 (parseJoinType ts) := by
  unfold parseJoinType
  split_ifs
  · exact (safe_expect _).bind fun _ _ => safe_pure _
  · exact (safe_expect _).bind fun _ _ => safe_pure _
  · refine (safe_expect _).bind fun _ _ => (safe_expect _).bind fun _ _ => ?_
    exact (safe_expect _).bind fun _ _ => safe_pure _

theorem joinText_of_ok {j : NaturalJoin} (h : (parseJoinType ts).result = .ok (j, rest)) :
    ∃ p, ts = p ++ rest ∧ JoinText p := by
  unfold parseJoinType at h
  split_ifs at h with hnatural hinner
  · obtain ⟨a, ts, rfl, ha⟩ := (matchToken_iff (by decide)).1 hnatural
    obtain ⟨b, ts, rfl, hb⟩ := (matchToken_iff (by decide)).1 hinner
    obtain ⟨⟨c, ts₁⟩, hc, hafter⟩ := result_bind_eq_ok.1 h
    obtain ⟨hts, htc⟩ := (expect_ok_iff (by decide)).1 hc
    cases hafter
    subst hts
    exact ⟨[a, b, c], rfl, .naturalInnerJoin ha hb htc⟩
  · obtain ⟨a, ts, rfl, ha⟩ := (matchToken_iff (by decide)).1 hnatural
    obtain ⟨⟨b, ts₁⟩, hb, hafter⟩ := result_bind_eq_ok.1 h
    obtain ⟨hts, htb⟩ := (expect_ok_iff (by decide)).1 hb
    cases hafter
    subst hts
    exact ⟨[a, b], rfl, .naturalJoin ha htb⟩
  · obtain ⟨⟨a, ts₁⟩, ha, hafter⟩ := result_bind_eq_ok.1 h
    obtain ⟨⟨b, ts₂⟩, hb, hafter'⟩ := result_bind_eq_ok.1 hafter
    obtain ⟨⟨c, ts₃⟩, hc, hlast⟩ := result_bind_eq_ok.1 hafter'
    obtain ⟨rfl, hta⟩ := (expect_ok_iff (by decide)).1 ha
    obtain ⟨rfl, htb⟩ := (expect_ok_iff (by decide)).1 hb
    obtain ⟨rfl, htc⟩ := (expect_ok_iff (by decide)).1 hc
    cases hlast
    exact ⟨[a, b, c], rfl, .innerNaturalJoin hta htb htc⟩

theorem parseJoinType_ok (h : JoinText p) (rest : List (Token P)) :
    ∃ j, (parseJoinType (p ++ rest)).result = .ok (j, rest) := by
  unfold parseJoinType
  cases h with
  | naturalJoin ha hb =>
    rw [cons_append, singleton_append, matchToken_cons ha, tail_cons,
      matchToken_cons hb, expect_cons hb]
    exact ⟨_, rfl⟩
  | naturalInnerJoin ha hb hc =>
    rw [cons_append, cons_append, singleton_append, matchToken_cons ha,
      tail_cons, matchToken_cons hb, tail_cons, expect_cons hc]
    exact ⟨_, rfl⟩
  | innerNaturalJoin ha hb hc =>
    rw [cons_append, cons_append, singleton_append, matchToken_cons ha,
      expect_cons ha, pure_bind]
    dsimp only
    rw [expect_cons hb, pure_bind]
    rw [expect_cons hc]
    exact ⟨_, rfl⟩

theorem JoinText.head (h : JoinText p) : ∃ t q, p = t :: q ∧ (t.tokenType = .natural ∨ t.tokenType = .inner) := by
  cases h with
  | naturalJoin ha _ | naturalInnerJoin ha _ _ => exact ⟨_, _, rfl, .inl ha⟩
  | innerNaturalJoin ha _ _ => exact ⟨_, _, rfl, .inr ha⟩

theorem safe_parseTopicName (ts : List (Token P)) : Safe 0 (parseTopicName ts) := by
  unfold parseTopicName
  split_ifs
  · split
    · exact safe_pure _
    · exact safe_error _
  · exact safe_error _

theorem parseTopicName_ok_iff {name : Text} :
    (parseTopicName ts).result = .ok (name, rest) ↔ ∃ t, ts = t :: rest ∧ IsTopic t ∧ t.value = .string name := by
  unfold parseTopicName
  cases ts with
  | nil => exact iff_of_false nofun nofun
  | cons t ts =>
    simp only [matchToken_cons rfl, decide_eq_true_iff, currentToken_cons]
    split_ifs with hty
    · split
      case h_1 s hs =>
        constructor
        · rintro ⟨⟩
          exact ⟨t, rfl, ⟨hty, name, hs⟩, hs⟩
        · rintro ⟨t', heq, -, hname⟩
          cases heq
          rw [hs] at hname
          cases hname
          rfl
      case h_2 hs =>
        refine iff_of_false nofun ?_
        rintro ⟨t', heq, -, hname⟩
        cases heq
        exact hs name hname
    · refine iff_of_false nofun ?_
      rintro ⟨t', heq, htopic, -⟩
      cases heq
      exact hty htopic.1

theorem safe_parseSelection (hn : ts.length < n) : Safe 0 (parseSelection n ts) := by
  induction n generalizing ts with
  | zero => exact absurd hn (Nat.not_lt_zero _)
  | succ n ih =>
    refine (safe_parseTopicName ts).bind ?_
    rintro ⟨name, ts₁⟩ hname
    obtain ⟨t, rfl, -, -⟩ := parseTopicName_ok_iff.1 hname
    rw [length_cons] at hn
    dsimp only
    split_ifs
    · refine (safe_parseJoinType ts₁).bind ?_
      rintro ⟨j, ts₂⟩ hj
      obtain ⟨q, rfl, -⟩ := joinText_of_ok hj
      rw [length_append] at hn
      exact Safe.bind (ih (by dsimp only; omega)) fun _ _ => safe_pure _
    · exact safe_pure _

theorem selectionText_of_ok {s : Selection} (h : (parseSelection n ts).result = .ok (s, rest)) :
    ∃ p, ts = p ++ rest ∧ SelectionText p ∧ ¬ HeadIs (isType .natural) rest ∧ ¬ HeadIs (isType .inner) rest := by
  induction n generalizing ts s with
  | zero => cases h
  | succ n ih =>
    obtain ⟨⟨name, ts₁⟩, hname, hafter⟩ := result_bind_eq_ok.1 h
    obtain ⟨t, rfl, ht, -⟩ := parseTopicName_ok_iff.1 hname
    dsimp only at hafter
    split_ifs at hafter with hjoin
    · obtain ⟨⟨j, ts₂⟩, hj, hafter'⟩ := result_bind_eq_ok.1 hafter
      obtain ⟨⟨right, ts₃⟩, hright, hlast⟩ := result_bind_eq_ok.1 hafter'
      obtain ⟨q, rfl, hq⟩ := joinText_of_ok hj
      cases hlast
      obtain ⟨l, hl, hsel, hstop⟩ := ih hright
      subst hl
      refine ⟨t :: (q ++ l), ?_, .join ht hq hsel, hstop⟩
      rw [cons_append, append_assoc]
    · cases hafter
      rw [not_or] at hjoin
      rw [headIs_isType_iff (by decide), headIs_isType_iff (by decide)]
      exact ⟨[t], rfl, .topic ht, hjoin⟩

theorem parseSelection_ok (h : SelectionText p) (hn : p.length < n) (hnatural : ¬ HeadIs (isType .natural) rest)
    (hinner : ¬ HeadIs (isType .inner) rest) : ∃ s, (parseSelection n (p ++ rest)).result = .ok (s, rest) := by
  rw [headIs_isType_iff (by decide)] at hnatural hinner
  induction h generalizing n with
  | topic ht =>
    obtain ⟨n, rfl⟩ := Nat.exists_eq_add_one.2 (Nat.zero_lt_of_lt hn)
    obtain ⟨name, hname⟩ := ht.2
    rw [singleton_append, parseSelection, result_bind_of_ok (parseTopicName_ok_iff.2 ⟨_, rfl, ht, hname⟩)]
    dsimp only
    rw [if_neg (not_or.2 ⟨hnatural, hinner⟩)]
    exact ⟨_, rfl⟩
  | @join t j l ht hj _ ih =>
    obtain ⟨n, rfl⟩ := Nat.exists_eq_add_one.2 (Nat.zero_lt_of_lt hn)
    rw [length_cons, length_append] at hn
    obtain ⟨name, hname⟩ := ht.2
    obtain ⟨k, q, rfl, hk⟩ := hj.head
    obtain ⟨joinType, hjoin⟩ := parseJoinType_ok hj (l ++ rest)
    obtain ⟨right, hright⟩ := ih (n := n) (by omega)
    have hmatch :
        matchToken (k :: q ++ (l ++ rest)) .natural = true ∨ matchToken (k :: q ++ (l ++ rest)) .inner = true := by
      rw [cons_append, matchToken_cons rfl, matchToken_cons rfl, decide_eq_true_iff, decide_eq_true_iff]
      exact hk
    rw [cons_append, append_assoc, parseSelection,
      result_bind_of_ok (parseTopicName_ok_iff.2 ⟨_, rfl, ht, hname⟩)]
    dsimp only
    rw [if_pos hmatch, result_bind_of_ok hjoin, result_bind_of_ok hright]
    exact ⟨_, rfl⟩

theorem safe_parseWhere (ts : List (Token P)) : Safe 0 (parseWhere ts) := by
  unfold parseWhere
  split_ifs
  · exact (safe_parseCondition _).bind fun _ _ => safe_pure _
  · exact safe_pure _

theorem exists_parseCondition_ok_iff : (∃ x, (parseCondition ts).result = .ok x) ↔ BeginsCondition ts := by
  constructor
  · rintro ⟨⟨c, rest⟩, h⟩
    obtain ⟨p, hp, hc, hstop⟩ := parseCondition_ok_iff.1 h
    exact ⟨p, rest, c, hp, hc, hstop⟩
  · rintro ⟨p, rest, c, hp, hc, hstop⟩
    exact ⟨(c, rest), parseCondition_ok_iff.2 ⟨p, hp, hc, hstop⟩⟩

theorem exists_parseWhere_ok_iff :
    (∃ x, (parseWhere ts).result = .ok x) ↔ (HeadIs (isType .where_) ts → BeginsCondition ts.tail) := by
  rw [headIs_isType_iff (by decide), ← exists_parseCondition_ok_iff]
  unfold parseWhere
  split_ifs with hwhere
  · constructor
    · rintro ⟨x, hx⟩ -
      obtain ⟨c, hc, -⟩ := result_bind_eq_ok.1 hx
      exact ⟨c, hc⟩
    · intro h
      obtain ⟨c, hc⟩ := h hwhere
      rw [result_bind_of_ok hc]
      exact ⟨_, rfl⟩
  · exact iff_of_true ⟨_, rfl⟩ fun h => absurd h hwhere

theorem safe_parseTopicExpression (ts : List (Token P)) : Safe 0 (parseTopicExpression ts) := by
  refine (safe_expect _).bind fun _ _ => (safe_parseAggregation _).bind fun _ _ => ?_
  refine (safe_expect _).bind fun _ _ => Safe.bind (safe_parseSelection (Nat.lt_succ_self _)) fun _ _ => ?_
  exact (safe_parseWhere _).bind fun _ _ => safe_pure _

theorem exists_parseTopicExpression_ok_iff : (∃ x, (parseTopicExpression ts).result = .ok x) ↔ BeginsTopic ts := by
  unfold parseTopicExpression
  constructor
  · rintro ⟨x, hx⟩
    obtain ⟨⟨s, ts₁⟩, hs, hx⟩ := result_bind_eq_ok.1 hx
    obtain ⟨⟨a, ts₂⟩, ha, hx⟩ := result_bind_eq_ok.1 hx
    obtain ⟨⟨f, ts₃⟩, hf, hx⟩ := result_bind_eq_ok.1 hx
    obtain ⟨⟨l, ts₄⟩, hl, hx⟩ := result_bind_eq_ok.1 hx
    obtain ⟨w, hw, -⟩ := result_bind_eq_ok.1 hx
    obtain ⟨rfl, hselect⟩ := (expect_ok_iff (by decide)).1 hs
    obtain ⟨p, rfl, hp⟩ := aggregationText_of_ok ha
    obtain ⟨rfl, hfrom⟩ := (expect_ok_iff (by decide)).1 hf
    obtain ⟨q, rfl, hq, hnatural, hinner⟩ := selectionText_of_ok hl
    exact ⟨s, f, p, q, ts₄, rfl, hselect, hp, hfrom, hq, hnatural, hinner, exists_parseWhere_ok_iff.1 ⟨w, hw⟩⟩
  · rintro ⟨s, f, p, q, rest, rfl, hs, hp, hf, hq, hnatural, hinner, hwhere⟩
    have hfrom : matchToken (f :: (q ++ rest)) .from_ = true := by
      rw [matchToken_cons hf]
      rfl
    obtain ⟨a, ha⟩ := parseAggregation_ok hp hfrom
    obtain ⟨l, hl⟩ := parseSelection_ok (n := (q ++ rest).length + 1) hq (by rw [length_append]; omega) hnatural
      hinner
    obtain ⟨w, hw⟩ := exists_parseWhere_ok_iff.2 hwhere
    rw [expect_cons hs, pure_bind, result_bind_of_ok ha]
    dsimp only
    rw [expect_cons hf, pure_bind, result_bind_of_ok hl, result_bind_of_ok hw]
    exact ⟨_, rfl⟩

/-! ## Expressions -/

theorem safe_parseFilterExpression (ts : List (Token P)) : Safe 0 (parseFilterExpression ts) := by
  unfold parseFilterExpression
  split_ifs
  · exact (safe_parseCondition ts).bind fun _ _ => safe_pure _
  · exact safe_error _

theorem parseExpression_false (ts : List (Token P)) :
    Parser.parseExpression ts false =
      if matchToken ts .select then parseTopicExpression ts else parseFilterExpression ts := by
  rw [Parser.parseExpression, if_neg Bool.false_ne_true]

theorem safe_filter (ts : List (Token P)) : Safe 0 (Parser.parseExpression ts false) := by
  rw [parseExpression_false]
  split_ifs
  · exact safe_parseTopicExpression ts
  · exact safe_parseFilterExpression ts

theorem BeginsCondition.start (h : BeginsCondition ts) :
    isConditionStart ts = true ∧ ¬ matchToken ts .select = true := by
  obtain ⟨p, rest, c, rfl, hc, -⟩ := h
  obtain ⟨t, ht, hs⟩ := starts_of_parses hc
  obtain ⟨p, rfl⟩ := head?_eq_some_iff.1 ht
  rw [cons_append, isConditionStart, matchToken_cons rfl, currentToken_cons, decide_eq_true_iff]
  rcases hs with hv | hp | ⟨-, hn⟩
  · refine ⟨?_, hv.ne rfl⟩
    rw [IsValue] at hv
    cases hty : t.tokenType <;> rw [hty] at hv <;> first | rfl | cases hv
  · rw [hp]
    exact ⟨rfl, by decide⟩
  · rw [hn]
    exact ⟨rfl, by decide⟩

variable {c : Condition (Predicate P.F64 P.Regex)}

theorem parseExpression_of_condition (hc : ReadCondition .disjunction p c)
    (hstop : CanStop rest) : (Parser.parseExpression (p ++ rest) false).result = .ok (.filterExpression c, rest) := by
  obtain ⟨hstart, hselect⟩ := BeginsCondition.start ⟨p, rest, c, rfl, hc, hstop⟩
  rw [parseExpression_false, if_neg hselect, parseFilterExpression, if_pos hstart,
    result_bind_of_ok (parseCondition_ok_iff.2 ⟨p, rfl, hc, hstop⟩)]
  rfl

theorem condition_of_parseExpression
    (h : (Parser.parseExpression ts false).result = .ok (.filterExpression c, rest)) :
    ∃ p, ts = p ++ rest ∧ ReadCondition .disjunction p c := by
  rw [parseExpression_false, parseFilterExpression] at h
  split_ifs at h
  · -- a SELECT expression is no filter expression
    iterate 5 obtain ⟨_, -, h⟩ := result_bind_eq_ok.1 h
    cases h
  · obtain ⟨⟨c', rest'⟩, hc', hpure⟩ := result_bind_eq_ok.1 h
    cases hpure
    obtain ⟨p, hp, hc, -⟩ := parseCondition_ok_iff.1 hc'
    exact ⟨p, hp, hc⟩
  · cases h

theorem exists_parseExpression_ok_iff : (∃ x, (Parser.parseExpression ts false).result = .ok x) ↔ Begins ts := by
  constructor
  · rintro ⟨x, hx⟩
    rw [parseExpression_false, parseFilterExpression] at hx
    split_ifs at hx
    · exact .inr (exists_parseTopicExpression_ok_iff.1 ⟨x, hx⟩)
    · obtain ⟨c, hc, -⟩ := result_bind_eq_ok.1 hx
      exact .inl (exists_parseCondition_ok_iff.1 ⟨c, hc⟩)
    · cases hx
  · rintro (⟨p, rest, c, rfl, hc, hstop⟩ | htopic)
    · exact ⟨_, parseExpression_of_condition hc hstop⟩
    · have hselect : matchToken ts .select = true := by
        obtain ⟨s, f, a, l, rest, rfl, hs, -⟩ := htopic
        rw [matchToken_cons hs]
        rfl
      rw [parseExpression_false, if_pos hselect]
      exact exists_parseTopicExpression_ok_iff.2 htopic

/-! ## Exactness -/

/-- The text is a filter expression, with the given tokens. -/
def IsFilterExpression (P : Platform) (s : Text) (toks : List (Token P)) : Prop := Tokens P False s toks ∧ Derives toks

/-- A filter expression gives its tree, and any other text an error. -/
def ParsedAsDocumented (P : Platform) (s : Text) : Prop :=
  (∀ toks, IsFilterExpression P s toks → ∃ c, Parses DocumentedTree .unary .disjunction toks c ∧
    (parseExpression P s false).result = .ok (.filterExpression c)) ∧
  ((¬ ∃ toks, IsFilterExpression P s toks) → ∃ e, (parseExpression P s false).result = .error e)

/-- Every character can be read. In a filter NOT is not followed by NOT, and LIKE is followed by a pattern. Any other
text does not begin with an expression, as it is read. -/
def Sound (P : Platform) (s : Text) : Prop :=
  ∃ toks, Tokens P True s toks ∧ (IsFilterExpression P s toks → toks.IsChain Follows) ∧
    (¬ IsFilterExpression P s toks → ¬ Begins (toks ++ [eofToken P]))

theorem IsFilterExpression.eq {toks' : List (Token P)} (h : IsFilterExpression P s toks)
    (h' : Tokens P True s toks') : toks = toks' :=
  (h.1.loosen (tokenType_ne_dot_of_derives h.2)).unique h'

theorem canStop_eof : CanStop [eofToken P] := canStop_cons nofun nofun

theorem parseExpression_of_tokens (h : Tokens P True s toks) :
    parseExpression P s false = Parser.parseExpression (toks ++ [eofToken P]) false >>= fun (e, _) => pure e := by
  rw [parseExpression, tokenize_eq_some_iff.2 ⟨toks, rfl, h⟩]

theorem result_ne_panic_of_parsedAsDocumented (h : ParsedAsDocumented P s) :
    (parseExpression P s false).result ≠ .panic := by
  intro hpanic
  by_cases hf : ∃ toks, IsFilterExpression P s toks
  · obtain ⟨toks, hf⟩ := hf
    obtain ⟨c, -, hc⟩ := h.1 toks hf
    rw [hpanic] at hc
    cases hc
  · obtain ⟨e, he⟩ := h.2 hf
    rw [hpanic] at he
    cases he

theorem parseExpression_of_filter (h : IsFilterExpression P s toks) (hchain : toks.IsChain Follows) :
    ∃ c, Parses DocumentedTree .unary .disjunction toks c ∧
      (Parser.parseExpression (toks ++ [eofToken P]) false).result = .ok (.filterExpression c, [eofToken P]) := by
  obtain ⟨c, hc⟩ := derives_iff.1 h.2
  obtain ⟨c, hc⟩ := parses_of_stratified hc hchain
  exact ⟨c, (hc.mono fun _ _ hp => hp).2, parseExpression_of_condition (hc.mono fun _ _ hp => hp.2).1 canStop_eof⟩

theorem sound_of_parsedAsDocumented (h : ParsedAsDocumented P s) : Sound P s := by
  cases htokens : tokenize P s with
  | none =>
    refine absurd ?_ (result_ne_panic_of_parsedAsDocumented h)
    rw [parseExpression, htokens]
    rfl
  | some ts =>
    obtain ⟨toks, -, htoks⟩ := tokenize_eq_some_iff.1 htokens
    refine ⟨toks, htoks, fun hf => ?_, fun hf hbegins => ?_⟩
    · obtain ⟨c, hc, hok⟩ := h.1 toks hf
      rw [parseExpression_of_tokens htoks] at hok
      obtain ⟨⟨e, rest⟩, he, hpure⟩ := result_bind_eq_ok.1 hok
      cases hpure
      obtain ⟨p, hp, hread⟩ := condition_of_parseExpression he
      -- both trees have as many tokens
      have hlength : toks.length = p.length := by
        rw [length_of_parses (fun _ _ h => h.2) hc, length_of_parses (fun _ _ h => h) hread]
      obtain ⟨rfl, -⟩ := append_inj hp hlength
      exact isChain_of_parses hread
    · have hno : ¬ ∃ toks, IsFilterExpression P s toks := by
        rintro ⟨toks', hf'⟩
        rw [hf'.eq htoks] at hf'
        exact hf hf'
      obtain ⟨e, he⟩ := h.2 hno
      obtain ⟨x, hx⟩ := exists_parseExpression_ok_iff.2 hbegins
      rw [parseExpression_of_tokens htoks, result_bind_of_ok hx] at he
      cases he

theorem parsedAsDocumented_of_sound (h : Sound P s) : ParsedAsDocumented P s := by
  obtain ⟨toks, htoks, hchain, hbegins⟩ := h
  rw [ParsedAsDocumented, parseExpression_of_tokens htoks]
  constructor
  · intro toks' hf
    obtain rfl := hf.eq htoks
    obtain ⟨c, hc, hok⟩ := parseExpression_of_filter hf (hchain hf)
    exact ⟨c, hc, by rw [result_bind_of_ok hok]; rfl⟩
  · intro hno
    have hnot := hbegins fun hf => hno ⟨toks, hf⟩
    have hsafe := safe_filter (toks ++ [eofToken P])
    cases hresult : (Parser.parseExpression (toks ++ [eofToken P]) false).result with
    | ok x => exact absurd (exists_parseExpression_ok_iff.1 ⟨x, hresult⟩) hnot
    | error e =>
      refine ⟨e, ?_⟩
      rw [bind_of_error hresult]
    | panic => exact absurd hresult hsafe.1

/-- A text is parsed as documented exactly when it is sound. The recursion of the parser is taken to fit the native
stack, however deep the text is nested. -/
theorem filter_parsed_as_documented_iff (P : Platform) (s : Text) : ParsedAsDocumented P s ↔ Sound P s :=
  ⟨sound_of_parsedAsDocumented, parsedAsDocumented_of_sound⟩

/-! ## Texts that are not -/

theorem not_parsedAsDocumented_of_rest {e : Expression P.F64 P.Regex} (htokens : tokenize P s = some ts)
    (hok : (Parser.parseExpression ts false).result = .ok (e, rest)) (hrest : rest.length ≠ 1) :
    ¬ ParsedAsDocumented P s := by
  intro h
  obtain ⟨toks, htoks, hchain, hbegins⟩ := sound_of_parsedAsDocumented h
  rw [tokenize_eq_some_iff.2 ⟨toks, rfl, htoks⟩] at htokens
  cases htokens
  by_cases hf : IsFilterExpression P s toks
  · obtain ⟨c, -, hc⟩ := parseExpression_of_filter hf (hchain hf)
    rw [hok] at hc
    cases hc
    exact hrest rfl
  · exact hbegins hf (exists_parseExpression_ok_iff.1 ⟨_, hok⟩)

/-- A platform that takes every text for a number and for a regular expression. -/
def plain : Platform := ⟨Unit, (), fun _ => some (), Unit, fun _ => some ()⟩

theorem isFilterExpression_notNot :
    IsFilterExpression plain "NOT NOT x = 1".toList
      [⟨.not, .string ['N', 'O', 'T']⟩, ⟨.not, .string ['N', 'O', 'T']⟩, ⟨.identifier, .string ['x']⟩,
        ⟨.equal, .string ['=']⟩, ⟨.integerValue, .integerValue 1⟩] := by
  have hword : ∀ (w cs : Text), w.head?.any (fun c => c.isAlpha || c == '_') → (∀ c ∈ w, isIdentifierChar c = true) →
      ¬ cs.head?.any isIdentifierChar → Lexeme plain False (w ++ cs) ⟨identifyKeyword w, .string w⟩ cs :=
    fun _ _ => .word
  have hone : Lexeme plain False ['1'] ⟨.integerValue, .integerValue 1⟩ [] :=
    .number (show StartsNumber ['1'] from .inl rfl) (show numberText ['1'] = (['1'], .integer) from rfl) rfl
  constructor
  · refine .token (hword ['N', 'O', 'T'] " NOT x = 1".toList rfl (List.all_eq_true.1 rfl) (by decide)) ?_
    refine .token (hword ['N', 'O', 'T'] " x = 1".toList rfl (List.all_eq_true.1 rfl) (by decide)) ?_
    refine .token (hword ['x'] " = 1".toList rfl (List.all_eq_true.1 rfl) (by decide)) ?_
    exact .token (.equal " 1".toList) (.token hone (.done rfl))
  · exact .not rfl (.not rfl (.predicate (.fieldFirst ⟨rfl, _, rfl⟩ (.inl rfl) rfl)))

/-- A character that starts no token panics, a token after the condition is ignored, and NOT after NOT is refused. -/
theorem filter_misparsed :
    ¬ ParsedAsDocumented plain ['x', ' ', '=', ' ', '@'] ∧
      ¬ ParsedAsDocumented plain ['x', ' ', '=', ' ', '1', ' ', 'y'] ∧
      ¬ ParsedAsDocumented plain "NOT NOT x = 1".toList := by
  refine ⟨fun h => result_ne_panic_of_parsedAsDocumented h ?_, ?_, fun h => ?_⟩
  · rfl
  · have htokens : tokenize plain ['x', ' ', '=', ' ', '1', ' ', 'y'] =
        some [⟨.identifier, .string ['x']⟩, ⟨.equal, .string ['=']⟩, ⟨.integerValue, .integerValue 1⟩,
          ⟨.identifier, .string ['y']⟩, eofToken plain] := by rfl
    have hok : (Parser.parseExpression (P := plain) [⟨.identifier, .string ['x']⟩, ⟨.equal, .string ['=']⟩,
        ⟨.integerValue, .integerValue 1⟩, ⟨.identifier, .string ['y']⟩, eofToken plain] false).result =
          .ok (.filterExpression (.predicate (.comparison (.string ['x']) .equal (.integerValue 1))),
            [⟨.identifier, .string ['y']⟩, eofToken plain]) := by rfl
    exact not_parsedAsDocumented_of_rest htokens hok (by decide)
  · -- it is a filter expression, but its tokens do not follow each other
    obtain ⟨toks, htoks, hchain, -⟩ := sound_of_parsedAsDocumented h
    have hf := isFilterExpression_notNot
    obtain rfl := hf.eq htoks
    have hnot := (isChain_cons_cons.1 (hchain hf)).1.not rfl
    exact hnot rfl

end Int2Dds.Sql
