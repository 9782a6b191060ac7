import Int2Dds.Lib.LeftAssoc
import Int2Dds.Sql.Lexer

/-!
# Parser of SQL filter expressions

A recursive-descent parser on the tokens that are left. Past the last token there are only `Eof` tokens. Nested
conditions are parsed by a parser of smaller depth; a loop or recursion that would not end is a panic.

* `parsePredicate`, `parsePrimaryCondition`, `parseUnaryCondition`, `parseCondition` : conditions.
-/

namespace Int2Dds.Sql

open Lib

/-! ## Syntax trees -/

inductive BinaryOp
  | and | or
deriving DecidableEq

inductive UnaryOp
  | not
deriving DecidableEq

inductive RelOp (R : Type)
  | equal | greater | greaterEq | less | lessEq | notEqual
  | like (regex : R)
deriving DecidableEq

structure Range (F : Type) where
  start : Parameter F
  stop : Parameter F
deriving DecidableEq

inductive Predicate (F R : Type)
  | comparison (left : Parameter F) (op : RelOp R) (right : Parameter F)
  | between (field : Text) (negated : Bool) (range : Range F)
deriving DecidableEq

inductive Condition (π : Type)
  | predicate (p : π)
  | binary (left : Condition π) (op : BinaryOp) (right : Condition π)
  | unary (op : UnaryOp) (operand : Condition π)
  | parentheses (c : Condition π)
deriving DecidableEq

inductive SubjectFieldSpec
  | field (name : Text)
  | fieldField (name second : Text)
  | fieldAs (name renamed : Text)
deriving DecidableEq

inductive Aggregation
  | all
  | fields (fs : List SubjectFieldSpec)
deriving DecidableEq

inductive NaturalJoin
  | naturalJoin | naturalInnerJoin | innerNaturalJoin
deriving DecidableEq

inductive Selection
  | topic (name : Text)
  | joinItem (left : Text) (joinType : NaturalJoin) (right : Selection)
deriving DecidableEq

inductive Expression (F R : Type)
  | filterExpression (condition : Condition (Predicate F R))
  | topicExpression (select : Aggregation) (selection : Selection) (whereClause : Option (Condition (Predicate F R)))
  | queryExpression (condition : Option (Condition (Predicate F R))) (orderBy : Option (List Text))
deriving DecidableEq

/-- The texts of `DdsError::Error`; the first three name what was found. -/
inductive ParseError (P : Platform)
  | expected (expected got : TokenType)
  | expectedParameter (found : Token P)
  | invalidLikePattern (pattern : Text)
  | error (text : String)

/-! ## Tokens -/

section

variable {P : Platform}

def currentToken (ts : List (Token P)) : Token P := ts.headD (eofToken P)

def matchToken (ts : List (Token P)) (ty : TokenType) : Bool := decide ((currentToken ts).tokenType = ty)

def matchNextToken (ts : List (Token P)) (ty : TokenType) : Bool := matchToken ts.tail ty

def expect (ts : List (Token P)) (ty : TokenType) : Outcome (ParseError P) (Token P × List (Token P)) :=
  if (currentToken ts).tokenType = ty then pure (currentToken ts, ts.tail)
  else Outcome.error (.expected ty (currentToken ts).tokenType)

def isParameter : TokenType → Bool
  | .integerValue | .floatValue | .string | .charValue | .parameter | .identifier => true
  | _ => false

def parseParameter (ts : List (Token P)) : Outcome (ParseError P) (Parameter P.F64 × List (Token P)) :=
  if isParameter (currentToken ts).tokenType then pure ((currentToken ts).value, ts.tail)
  else Outcome.error (.expectedParameter (currentToken ts))

/-! ## Predicates -/

def comparisonOp (R : Type) : TokenType → Option (RelOp R)
  | .equal => some .equal
  | .greater => some .greater
  | .greaterEqual => some .greaterEq
  | .less => some .less
  | .lessEqual => some .lessEq
  | .notEqual => some .notEqual
  | _ => none

def parseComparisonOp (ts : List (Token P)) : Outcome (ParseError P) (RelOp P.Regex × List (Token P)) :=
  match comparisonOp P.Regex (currentToken ts).tokenType with
  | some op => pure (op, ts.tail)
  | none =>
    if matchToken ts .like then Outcome.error (.error "LIKE should be handled in parse_predicate")
    else Outcome.error (.error "Expected comparison operator")

def parseRange (ts : List (Token P)) : Outcome (ParseError P) (Range P.F64 × List (Token P)) := do
  let (start, ts) ← parseParameter ts
  let (_, ts) ← expect ts .and
  let (stop, ts) ← parseParameter ts
  pure (⟨start, stop⟩, ts)

/-- The rest of a `BETWEEN` predicate; what is left of it has to be a field name. -/
def parseBetween (left : Parameter P.F64) (negated : Bool) (ts : List (Token P)) :
    Outcome (ParseError P) (Predicate P.F64 P.Regex × List (Token P)) := do
  let (range, ts) ← parseRange ts
  match left with
  | .string field => pure (.between field negated range, ts)
  | _ => Outcome.error (.error "BETWEEN predicate requires field name on left side")

/-- `%` stands for any text and `_` for any character. -/
def likeRegex (pattern : Text) : Text :=
  '^' :: (pattern.flatMap fun c => if c = '%' then ['.', '*'] else if c = '_' then ['.'] else [c]) ++ ['$']

def parseLike (left : Parameter P.F64) (ts : List (Token P)) :
    Outcome (ParseError P) (Predicate P.F64 P.Regex × List (Token P)) := do
  let (pattern, ts) ← parseParameter ts
  match pattern with
  | .string s =>
    match P.newRegex (likeRegex s) with
    | some regex => pure (.comparison left (.like regex) pattern, ts)
    | none => Outcome.error (.invalidLikePattern s)
  | _ => Outcome.error (.error "LIKE pattern must be a string")

def parseComparison (left : Parameter P.F64) (ts : List (Token P)) :
    Outcome (ParseError P) (Predicate P.F64 P.Regex × List (Token P)) := do
  let (op, ts) ← parseComparisonOp ts
  let (right, ts) ← parseParameter ts
  pure (.comparison left op right, ts)

def parsePredicateRest (left : Parameter P.F64) (ts : List (Token P)) :
    Outcome (ParseError P) (Predicate P.F64 P.Regex × List (Token P)) :=
  if matchToken ts .not then expect ts.tail .between >>= fun (_, ts) => parseBetween left true ts
  else if matchToken ts .between then parseBetween left false ts.tail
  else if matchToken ts .like then parseLike left ts.tail
  else parseComparison left ts

def parsePredicate (ts : List (Token P)) : Outcome (ParseError P) (Predicate P.F64 P.Regex × List (Token P)) :=
  parseParameter ts >>= fun (left, ts) => parsePredicateRest left ts

/-! ## Conditions -/

abbrev ConditionParser (P : Platform) :=
  List (Token P) → Outcome (ParseError P) (Condition (Predicate P.F64 P.Regex) × List (Token P))

/-- `Condition::Predicate(self.parse_predicate()?)`. -/
def parsePredicateCondition : ConditionParser P := fun ts =>
  parsePredicate ts >>= fun (p, ts) => pure (.predicate p, ts)

def parseParentheses (condition : ConditionParser P) : ConditionParser P := fun ts => do
  let (c, ts) ← condition ts.tail
  let (_, ts) ← expect ts .rightParen
  pure (.parentheses c, ts)

def parsePrimaryCondition (condition : ConditionParser P) : ConditionParser P := fun ts =>
  if matchToken ts .leftParen then parseParentheses condition ts else parsePredicateCondition ts

def isNotBetweenPredicate (ts : List (Token P)) : Bool := matchToken ts .not && matchNextToken ts .between

def parseUnaryCondition (condition : ConditionParser P) : ConditionParser P := fun ts =>
  if matchToken ts .not then
    if isNotBetweenPredicate ts then parsePredicateCondition ts
    else parsePrimaryCondition condition ts.tail >>= fun (c, ts) => pure (.unary .not c, ts)
  else parsePrimaryCondition condition ts

def isType (ty : TokenType) (t : Token P) : Bool := decide (t.tokenType = ty)

def parseAndCondition (condition : ConditionParser P) : ConditionParser P :=
  leftAssoc (parseUnaryCondition condition) (isType .and) (fun l r => .binary l .and r)

def parseOrCondition (condition : ConditionParser P) : ConditionParser P :=
  leftAssoc (parseAndCondition condition) (isType .or) (fun l r => .binary l .or r)

/-- Conditions nested less than `depth` deep. -/
def parseConditionTo : Nat → ConditionParser P
  | 0 => fun _ => Outcome.panic
  | depth + 1 => parseOrCondition (parseConditionTo depth)

/-- No condition is nested deeper than it has tokens. -/
def parseCondition : ConditionParser P := fun ts => parseConditionTo (ts.length + 1) ts

def isConditionStart (ts : List (Token P)) : Bool :=
  match (currentToken ts).tokenType with
  | .identifier | .not | .leftParen | .integerValue | .floatValue | .string | .charValue | .parameter => true
  | _ => false

/-! ## Topic expressions -/

def parseSubjectFieldSpec (ts : List (Token P)) : Outcome (ParseError P) (SubjectFieldSpec × List (Token P)) :=
  expect ts .identifier >>= fun (first, ts) =>
    match first.value with
    | .string name =>
      if matchToken ts .as_ then
        expect ts.tail .identifier >>= fun (second, ts) =>
          match second.value with
          | .string renamed => pure (.fieldAs name renamed, ts)
          | _ => Outcome.error (.error "Expected alias after AS")
      else if matchToken ts .identifier then
        match (currentToken ts).value with
        | .string second => pure (.fieldField name second, ts.tail)
        | _ => Outcome.error (.error "Expected second field name")
      else pure (.field name, ts)
    | _ => Outcome.error (.error "Expected field name")

/-- `loop`, in at most the given number of rounds. -/
def parseSubjectFields : Nat → List (Token P) → Outcome (ParseError P) (List SubjectFieldSpec × List (Token P))
  | 0, _ => Outcome.panic
  | n + 1, ts =>
    parseSubjectFieldSpec ts >>= fun (f, ts) =>
      if matchToken ts .comma then parseSubjectFields n ts.tail >>= fun (fs, ts) => pure (f :: fs, ts)
      else pure ([f], ts)

def parseAggregation (ts : List (Token P)) : Outcome (ParseError P) (Aggregation × List (Token P)) :=
  if matchToken ts .asterisk then pure (.all, ts.tail)
  else
    parseSubjectFields (ts.length + 1) ts >>= fun (fields, ts) =>
      if fields = [] then Outcome.error (.error "Expected at least one field in aggregation")
      else pure (.fields fields, ts)

def parseJoinType (ts : List (Token P)) : Outcome (ParseError P) (NaturalJoin × List (Token P)) :=
  if matchToken ts .natural then
    if matchToken ts.tail .inner then expect ts.tail.tail .join >>= fun (_, ts) => pure (.naturalInnerJoin, ts)
    else expect ts.tail .join >>= fun (_, ts) => pure (.naturalJoin, ts)
  else do
    let (_, ts) ← expect ts .inner
    let (_, ts) ← expect ts .natural
    let (_, ts) ← expect ts .join
    pure (.innerNaturalJoin, ts)

def parseTopicName (ts : List (Token P)) : Outcome (ParseError P) (Text × List (Token P)) :=
  if matchToken ts .identifier ∨ matchToken ts .string then
    match (currentToken ts).value with
    | .string name => pure (name, ts.tail)
    | _ => Outcome.error (.error "Expected topic name")
  else Outcome.error (.error "Expected topic name (Identifier or String)")

def parseSelection : Nat → List (Token P) → Outcome (ParseError P) (Selection × List (Token P))
  | 0, _ => Outcome.panic
  | n + 1, ts =>
    parseTopicName ts >>= fun (name, ts) =>
      if matchToken ts .natural ∨ matchToken ts .inner then
        parseJoinType ts >>= fun (joinType, ts) =>
          parseSelection n ts >>= fun (right, ts) => pure (.joinItem name joinType right, ts)
      else pure (.topic name, ts)

def parseWhere (ts : List (Token P)) :
    Outcome (ParseError P) (Option (Condition (Predicate P.F64 P.Regex)) × List (Token P)) :=
  if matchToken ts .where_ then parseCondition ts.tail >>= fun (c, ts) => pure (some c, ts) else pure (none, ts)

/-- `SELECT`, `FROM`, maybe `WHERE`; a final semicolon is skipped. -/
def parseTopicExpression (ts : List (Token P)) :
    Outcome (ParseError P) (Expression P.F64 P.Regex × List (Token P)) := do
  let (_, ts) ← expect ts .select
  let (select, ts) ← parseAggregation ts
  let (_, ts) ← expect ts .from_
  let (selection, ts) ← parseSelection (ts.length + 1) ts
  let (whereClause, ts) ← parseWhere ts
  pure (.topicExpression select selection whereClause, if matchToken ts .semicolon then ts.tail else ts)

/-! ## Expressions -/

def parseFieldList : Nat → List (Token P) → Outcome (ParseError P) (List Text × List (Token P))
  | 0, _ => Outcome.panic
  | n + 1, ts =>
    expect ts .identifier >>= fun (t, ts) =>
      let fields := match t.value with
        | .string field => [field]
        | _ => []
      if matchToken ts .comma then parseFieldList n ts.tail >>= fun (fs, ts) => pure (fields ++ fs, ts)
      else pure (fields, ts)

/-- The token is an `OrderBy` keyword or carries the given text. -/
def isOrderWord (ts : List (Token P)) (word : String) : Bool :=
  matchToken ts .orderBy || match (currentToken ts).value with
    | .string s => decide (s = word.toList)
    | _ => false

def parseOrderBy (ts : List (Token P)) : Outcome (ParseError P) (Option (List Text) × List (Token P)) :=
  if isOrderWord ts "Order" then
    if isOrderWord ts.tail "By" then
      parseFieldList (ts.length + 1) ts.tail.tail >>= fun (fields, ts) => pure (some fields, ts)
    else Outcome.error (.error "Expected BY after ORDER")
  else pure (none, ts)

def parseQueryExpression (ts : List (Token P)) :
    Outcome (ParseError P) (Expression P.F64 P.Regex × List (Token P)) := do
  let (condition, ts) ←
    if isConditionStart ts then parseCondition ts >>= fun (c, ts) => pure (some c, ts) else pure (none, ts)
  let (orderBy, ts) ← parseOrderBy ts
  pure (.queryExpression condition orderBy, ts)

def parseFilterExpression (ts : List (Token P)) :
    Outcome (ParseError P) (Expression P.F64 P.Regex × List (Token P)) :=
  if isConditionStart ts then parseCondition ts >>= fun (c, ts) => pure (.filterExpression c, ts)
  else Outcome.error (.error "Expected condition for filter expression")

/-- The tokens that are left are not looked at. -/
def Parser.parseExpression (ts : List (Token P)) (query : Bool) :
    Outcome (ParseError P) (Expression P.F64 P.Regex × List (Token P)) :=
  if matchToken ts .select then parseTopicExpression ts
  else if query then parseQueryExpression ts
  else parseFilterExpression ts

end

def parseExpression (P : Platform) (expression : Text) (query : Bool) :
    Outcome (ParseError P) (Expression P.F64 P.Regex) :=
  match tokenize P expression with
  | none => Outcome.panic
  | some tokens => Parser.parseExpression tokens query >>= fun (e, _) => pure e

end Int2Dds.Sql
