import Mathlib.Data.List.Basic
import Mathlib.Logic.Function.Basic

/-!
# The type registry and the replies of peers

A TypeLookup reply is registered under the hashes it names, the minimal types that can be derived from it are derived,
and the correspondences it carries are noted. The type objects themselves, their hashes and the derivation of a minimal
object are parameters (`TypeObjects`).
-/

namespace Int2Dds.XTypes.TypeLookup

open List

inductive TypeObject (Complete Minimal : Type) where
  | complete (c : Complete)
  | minimal (m : Minimal)
deriving DecidableEq

/-- Only the identifiers of complete and minimal types carry a hash. -/
inductive TypeIdentifier (Hash : Type) where
  | completeTypeId (hash : Hash)
  | minimalTypeId (hash : Hash)
  | other
deriving DecidableEq

def TypeIdentifier.equivalenceHash {Hash : Type} : TypeIdentifier Hash → Option Hash
  | .completeTypeId hash | .minimalTypeId hash => some hash
  | .other => none

/-- What the registry asks of type objects. -/
structure TypeObjects (Hash Complete Minimal : Type) where
  referencedHashes : Complete → List Hash
  extractCompleteTypeName : Complete → String
  /-- The minimal object, with the member ids rewritten by a map. -/
  deriveMinimalObject : Complete → (Hash → Option Hash) → Minimal
  /-- `spec_hash` of a minimal object. -/
  specHash : Minimal → Hash
  computeHash : TypeObject Complete Minimal → Hash

structure TypeRegistry (Hash Complete Minimal : Type) where
  completeObjects : Hash → Option Complete
  minimalObjects : Hash → Option Minimal
  typeNames : String → Option Hash
  completeToMinimal : Hash → Option Hash
  minimalToComplete : Hash → Option Hash

abbrev TypeEntry (Hash Complete Minimal : Type) := TypeIdentifier Hash × TypeObject Complete Minimal

inductive TypeLookupReturn (Hash Complete Minimal : Type) where
  | getTypes (types : List (TypeEntry Hash Complete Minimal))
      (completeToMinimal : List (TypeIdentifier Hash × TypeIdentifier Hash))
  | getTypeDependencies (dependentTypeids : List (TypeIdentifier Hash))

variable {Hash Complete Minimal : Type}

def TypeLookupReturn.registered (outstanding : Bool) :
    TypeLookupReturn Hash Complete Minimal → List (TypeEntry Hash Complete Minimal)
  | .getTypes types _ => if outstanding then types else []
  | .getTypeDependencies _ => []

namespace TypeRegistry

variable [DecidableEq Hash] (ops : TypeObjects Hash Complete Minimal) (reg : TypeRegistry Hash Complete Minimal)

def registerComplete (hash : Hash) (typeName : String) (obj : Complete) : TypeRegistry Hash Complete Minimal :=
  { reg with
    typeNames := Function.update reg.typeNames typeName (some hash)
    completeObjects := Function.update reg.completeObjects hash (some obj) }

def registerMinimal (hash : Hash) (obj : Minimal) : TypeRegistry Hash Complete Minimal :=
  { reg with minimalObjects := Function.update reg.minimalObjects hash (some obj) }

def registerTypeObjectKeyed (hash : Hash) : TypeObject Complete Minimal → TypeRegistry Hash Complete Minimal
  | .complete c => reg.registerComplete hash (ops.extractCompleteTypeName c) c
  | .minimal m => reg.registerMinimal hash m

/-- Derives the minimal object, if every type that is referred to has one. -/
def tryDeriveMinimal (hash : Hash) : Bool × TypeRegistry Hash Complete Minimal :=
  if (reg.completeToMinimal hash).isSome then (true, reg)
  else match reg.completeObjects hash with
    | none => (false, reg)
    | some c =>
      let deps := (ops.referencedHashes c).filter (· ≠ hash)
      if deps.all (fun dep => (reg.completeToMinimal dep).isSome) then
        let min := ops.deriveMinimalObject c (fun dep => if dep ∈ deps then reg.completeToMinimal dep else none)
        let minHash := ops.specHash min
        (true, { reg.registerMinimal minHash min with
          completeToMinimal := Function.update reg.completeToMinimal hash (some minHash)
          minimalToComplete := Function.update reg.minimalToComplete minHash (some hash) })
      else (false, reg)

/-- The hash an object is registered under: the one its identifier names, whatever the object is. -/
def keyOf (type : TypeEntry Hash Complete Minimal) : Hash :=
  type.1.equivalenceHash.getD (ops.computeHash type.2)

def registerTypeObjectWithId (type : TypeEntry Hash Complete Minimal) : TypeRegistry Hash Complete Minimal :=
  ((reg.registerTypeObjectKeyed ops (keyOf ops type) type.2).tryDeriveMinimal ops (keyOf ops type)).2

def noteCompleteToMinimal (complete minimal : Hash) : TypeRegistry Hash Complete Minimal :=
  { reg with
    completeToMinimal := Function.update reg.completeToMinimal complete
      ((reg.completeToMinimal complete).or (some minimal))
    minimalToComplete := Function.update reg.minimalToComplete minimal
      ((reg.minimalToComplete minimal).or (some complete)) }

/-- One round over the hashes of the reply, and whether it got any further. -/
def deriveRound (hashes : List Hash) : Bool × TypeRegistry Hash Complete Minimal :=
  hashes.foldl (fun (progressed, reg) h =>
    if (reg.completeToMinimal h).isNone then
      (progressed || (reg.tryDeriveMinimal ops h).1, (reg.tryDeriveMinimal ops h).2)
    else (progressed, reg)) (false, reg)

/-- At most `rounds` rounds. A round that gets further maps another hash, so the loop ends. -/
def deriveLoop (hashes : List Hash) : Nat → TypeRegistry Hash Complete Minimal → TypeRegistry Hash Complete Minimal
  | 0, reg => reg
  | rounds + 1, reg =>
    if (reg.deriveRound ops hashes).1 then deriveLoop hashes rounds (reg.deriveRound ops hashes).2
    else (reg.deriveRound ops hashes).2

/-- The correspondences of a reply, as far as both ids have a hash. -/
def noteAll (pairs : List (TypeIdentifier Hash × TypeIdentifier Hash)) : TypeRegistry Hash Complete Minimal :=
  pairs.foldl (fun reg pair =>
    match pair.1.equivalenceHash, pair.2.equivalenceHash with
    | some complete, some minimal => reg.noteCompleteToMinimal complete minimal
    | _, _ => reg) reg

/-- The registry when the types of a reply are registered and what can be derived from them is. -/
def registerAndDerive (rounds : Nat) (types : List (TypeEntry Hash Complete Minimal)) :
    TypeRegistry Hash Complete Minimal :=
  deriveLoop ops (types.filterMap fun type => type.1.equivalenceHash) rounds
    (types.foldl (registerTypeObjectWithId ops) reg)

/-- `outstanding`: the reply answers a request that is pending. -/
def handleTypeLookupReply (outstanding : Bool) (rounds : Nat) :
    TypeLookupReturn Hash Complete Minimal → TypeRegistry Hash Complete Minimal
  | .getTypes types completeToMinimal =>
    if !outstanding then reg else (reg.registerAndDerive ops rounds types).noteAll completeToMinimal
  | .getTypeDependencies _ => reg

end TypeRegistry

/-! ## What is kept -/

def Keeps {κ α : Type} (f g : κ → Option α) : Prop := ∀ k v, f k = some v → g k = some v

section Keeps

variable {κ α : Type} [DecidableEq κ] {f g : κ → Option α} {k : κ} {v : α}

theorem Keeps.update (h : Keeps f g) (hk : ∀ w, f k = some w → w = v) : Keeps f (Function.update g k (some v)) := by
  intro j w hj
  rcases eq_or_ne j k with rfl | hne
  · rw [Function.update_self, hk w hj]
  · rw [Function.update_of_ne hne]
    exact h j w hj

theorem Keeps.orInsert (h : Keeps f g) : Keeps f (Function.update g k ((g k).or (some v))) := by
  intro j w hj
  rcases eq_or_ne j k with rfl | hne
  · rw [Function.update_self, h j w hj, Option.some_or]
  · rw [Function.update_of_ne hne]
    exact h j w hj

def insertAll (f : κ → Option α) (l : List (κ × α)) : κ → Option α :=
  l.foldl (fun f e => Function.update f e.1 (some e.2)) f

theorem insertAll_append (l l' : List (κ × α)) : insertAll f (l ++ l') = insertAll (insertAll f l) l' := foldl_append

theorem insertAll_apply (l : List (κ × α)) : insertAll f l k = (l.reverse.lookup k).or (f k) := by
  induction l generalizing f with
  | nil => rfl
  | cons e l ih =>
    obtain ⟨j, v⟩ := e
    rw [insertAll, foldl_cons, ← insertAll, ih, reverse_cons, lookup_append]
    rcases eq_or_ne k j with rfl | hne
    · simp
    · simp [hne, lookup_cons, beq_false_of_ne hne]

theorem keeps_insertAll_iff (l : List (κ × α)) :
    Keeps f (insertAll f l) ↔ ∀ k v w, f k = some v → l.reverse.lookup k = some w → w = v := by
  simp only [Keeps, insertAll_apply]
  refine forall₂_congr fun k v => ⟨fun h w hf hl => ?_, fun h hf => ?_⟩
  · have := h hf
    rw [hl] at this
    exact Option.some.inj this
  · cases hl : l.reverse.lookup k with
    | none => rw [Option.none_or, hf]
    | some w => rw [h w hf hl, Option.some_or]

theorem mem_of_insertAll {l : List (κ × α)} (h : insertAll f l k = some v) : f k = some v ∨ (k, v) ∈ l := by
  rw [insertAll_apply, Option.or_eq_some_iff] at h
  rcases h with h | h
  · obtain ⟨before, after, hl, -⟩ := lookup_eq_some_iff.1 h
    exact .inr (mem_reverse.1 (hl ▸ mem_append_right _ mem_cons_self))
  · exact .inl h.2

end Keeps

namespace TypeRegistry

variable [DecidableEq Hash] (ops : TypeObjects Hash Complete Minimal)

/-- The complete objects of a reply, by the hash they are registered under. -/
def completes (types : List (TypeEntry Hash Complete Minimal)) : List (Hash × Complete) :=
  types.filterMap fun type => match type.2 with
    | .complete c => some (keyOf ops type, c)
    | .minimal _ => none

def minimals (types : List (TypeEntry Hash Complete Minimal)) : List (Hash × Minimal) :=
  types.filterMap fun type => match type.2 with
    | .complete _ => none
    | .minimal m => some (keyOf ops type, m)

def names (types : List (TypeEntry Hash Complete Minimal)) : List (String × Hash) :=
  (completes ops types).map fun e => (ops.extractCompleteTypeName e.2, e.1)

variable (reg : TypeRegistry Hash Complete Minimal) (types : List (TypeEntry Hash Complete Minimal))

/-- The map the derivation of a minimal object is given: the minimal hashes of the direct dependencies. -/
def dependencyMap (completeToMinimal : Hash → Option Hash) (h : Hash) (c : Complete) : Hash → Option Hash :=
  fun dep => if dep ∈ (ops.referencedHashes c).filter (· ≠ h) then completeToMinimal dep else none

/-- No minimal object of the reply, sent or derived, meets another one under its hash. `derivedTo` are the minimal
hashes when all is derived: where a hash is new there, its minimal object was derived. -/
structure MinimalsFresh (derivedTo : Hash → Option Hash) : Prop where
  sent : ∀ e ∈ minimals ops types, ∀ m, reg.minimalObjects e.1 = some m → m = e.2
  derived : ∀ h c, reg.completeObjects h = some c ∨ (h, c) ∈ completes ops types → reg.completeToMinimal h = none →
    let min := ops.deriveMinimalObject c (dependencyMap ops derivedTo h c)
    derivedTo h = some (ops.specHash min) →
      (∀ m, reg.minimalObjects (ops.specHash min) = some m → m = min) ∧
        ∀ h', reg.minimalToComplete (ops.specHash min) = some h' → h' = h

/-- `r` is what has become of `reg` with `types` registered. -/
structure OnTheWay (r : TypeRegistry Hash Complete Minimal) : Prop where
  completeObjects : r.completeObjects = insertAll reg.completeObjects (completes ops types)
  typeNames : r.typeNames = insertAll reg.typeNames (names ops types)
  completeToMinimal : Keeps reg.completeToMinimal r.completeToMinimal
  minimal : ∀ derivedTo, Keeps r.completeToMinimal derivedTo → MinimalsFresh ops reg types derivedTo →
    Keeps reg.minimalObjects r.minimalObjects ∧ Keeps reg.minimalToComplete r.minimalToComplete

variable {ops reg types} {r : TypeRegistry Hash Complete Minimal}

theorem onTheWay_start : OnTheWay ops reg [] reg :=
  ⟨rfl, rfl, fun _ _ h => h, fun _ _ _ => ⟨fun _ _ h => h, fun _ _ h => h⟩⟩

theorem OnTheWay.tryDeriveMinimal (hr : OnTheWay ops reg types r) (h : Hash) :
    OnTheWay ops reg types (r.tryDeriveMinimal ops h).2 := by
  unfold TypeRegistry.tryDeriveMinimal
  split_ifs with hmapped
  · exact hr
  split
  · exact hr
  rename_i c hc
  dsimp only
  split_ifs with hdeps
  · have hunmapped : r.completeToMinimal h = none := by simpa using hmapped
    have hnone : reg.completeToMinimal h = none := by
      cases hreg : reg.completeToMinimal h with
      | none => rfl
      | some w =>
        rw [hr.completeToMinimal h w hreg] at hunmapped
        cases hunmapped
    refine ⟨hr.completeObjects, hr.typeNames, hr.completeToMinimal.update (fun w hw => ?_),
      fun derivedTo hto hfresh => ?_⟩
    · rw [hnone] at hw
      cases hw
    · dsimp only at hto
      have hbefore : Keeps r.completeToMinimal derivedTo := by
        intro k v hk
        have hne : k ≠ h := by
          rintro rfl
          rw [hunmapped] at hk
          cases hk
        exact hto k v (by rwa [Function.update_of_ne hne])
      -- a minimal hash that is known now stays what it is
      have hmap : dependencyMap ops derivedTo h c = fun dep =>
          if dep ∈ (ops.referencedHashes c).filter (· ≠ h) then r.completeToMinimal dep else none := by
        funext dep
        unfold dependencyMap
        split_ifs with hdep
        · obtain ⟨v, hv⟩ := Option.isSome_iff_exists.1 (all_eq_true.1 hdeps dep hdep)
          rw [hv, hbefore dep v hv]
        · rfl
      rw [hr.completeObjects] at hc
      have hderived := hfresh.derived h c (mem_of_insertAll hc) hnone
      rw [hmap] at hderived
      obtain ⟨hmin, hback⟩ := hderived (hto h _ (Function.update_self ..))
      obtain ⟨hkeep, hkeep'⟩ := hr.minimal derivedTo hbefore hfresh
      exact ⟨hkeep.update hmin, hkeep'.update hback⟩
  · exact hr

theorem MinimalsFresh.mono {types' : List (TypeEntry Hash Complete Minimal)} {derivedTo : Hash → Option Hash}
    (hsub : types ⊆ types') (h : MinimalsFresh ops reg types' derivedTo) : MinimalsFresh ops reg types derivedTo :=
  ⟨fun e he => h.sent e (filterMap_subset _ hsub he),
    fun k c hc => h.derived k c (hc.imp_right fun hc => filterMap_subset _ hsub hc)⟩

theorem OnTheWay.registerTypeObjectWithId (hr : OnTheWay ops reg types r) (type : TypeEntry Hash Complete Minimal) :
    OnTheWay ops reg (types ++ [type]) (r.registerTypeObjectWithId ops type) := by
  refine OnTheWay.tryDeriveMinimal ?_ _
  have hminimal {derivedTo : Hash → Option Hash} (hto : Keeps r.completeToMinimal derivedTo)
      (h : MinimalsFresh ops reg (types ++ [type]) derivedTo) :=
    hr.minimal derivedTo hto (h.mono (subset_append_left _ _))
  have hcompletes : completes ops (types ++ [type]) = completes ops types ++ completes ops [type] :=
    filterMap_append
  obtain ⟨id, obj⟩ := type
  constructor
  case completeObjects =>
    rw [hcompletes, insertAll_append, ← hr.completeObjects]
    cases obj <;> rfl
  case typeNames =>
    rw [names, hcompletes, map_append, insertAll_append, ← names, ← hr.typeNames]
    cases obj <;> rfl
  case completeToMinimal => cases obj <;> exact hr.completeToMinimal
  case minimal =>
    intro derivedTo hto h
    cases obj with
    | complete c => exact hminimal hto h
    | minimal m =>
      refine ⟨(hminimal hto h).1.update (h.sent (keyOf ops (id, .minimal m), m) ?_), (hminimal hto h).2⟩
      exact mem_filterMap.2 ⟨_, mem_append_right _ mem_cons_self, rfl⟩

theorem OnTheWay.deriveRound (hr : OnTheWay ops reg types r) (hashes : List Hash) :
    OnTheWay ops reg types (r.deriveRound ops hashes).2 := by
  unfold TypeRegistry.deriveRound
  generalize false = progressed
  induction hashes generalizing r progressed with
  | nil => exact hr
  | cons h hashes ih =>
    rw [foldl_cons]
    dsimp only
    split_ifs
    · exact ih (hr.tryDeriveMinimal h) _
    · exact ih hr _

theorem OnTheWay.deriveLoop (hr : OnTheWay ops reg types r) (hashes : List Hash) (rounds : Nat) :
    OnTheWay ops reg types (TypeRegistry.deriveLoop ops hashes rounds r) := by
  induction rounds generalizing r with
  | zero => exact hr
  | succ rounds ih =>
    unfold TypeRegistry.deriveLoop
    split_ifs
    · exact ih (hr.deriveRound hashes)
    · exact hr.deriveRound hashes

theorem onTheWay_registerAll (l : List (TypeEntry Hash Complete Minimal)) (hr : OnTheWay ops reg types r) :
    OnTheWay ops reg (types ++ l) (l.foldl (TypeRegistry.registerTypeObjectWithId ops) r) := by
  induction l generalizing types r with
  | nil => rwa [append_nil]
  | cons type l ih =>
    rw [append_cons]
    exact ih (hr.registerTypeObjectWithId type)

theorem onTheWay_registerAndDerive (rounds : Nat) :
    OnTheWay ops reg types (reg.registerAndDerive ops rounds types) :=
  (onTheWay_registerAll types onTheWay_start).deriveLoop _ rounds

/-- Noting a correspondence adds it where there is none. -/
theorem noteAll_keeps (pairs : List (TypeIdentifier Hash × TypeIdentifier Hash))
    (r : TypeRegistry Hash Complete Minimal) :
    (r.noteAll pairs).completeObjects = r.completeObjects ∧ (r.noteAll pairs).typeNames = r.typeNames ∧
      (r.noteAll pairs).minimalObjects = r.minimalObjects ∧
      Keeps r.completeToMinimal (r.noteAll pairs).completeToMinimal ∧
      Keeps r.minimalToComplete (r.noteAll pairs).minimalToComplete := by
  unfold TypeRegistry.noteAll
  induction pairs generalizing r with
  | nil => exact ⟨rfl, rfl, rfl, fun _ _ h => h, fun _ _ h => h⟩
  | cons pair pairs ih =>
    rw [foldl_cons]
    split
    · next complete minimal _ _ =>
      obtain ⟨hc, hn, hm, hto, hback⟩ := ih (r.noteCompleteToMinimal complete minimal)
      exact ⟨hc, hn, hm, fun k v hk => hto k v (Keeps.orInsert (fun _ _ h => h) k v hk),
        fun k v hk => hback k v (Keeps.orInsert (fun _ _ h => h) k v hk)⟩
    · exact ih r

variable (ops reg) in
theorem handleTypeLookupReply_keeps (outstanding : Bool) (rounds : Nat)
    (reply : TypeLookupReturn Hash Complete Minimal) :
    let r := reg.registerAndDerive ops rounds (reply.registered outstanding)
    let r' := reg.handleTypeLookupReply ops outstanding rounds reply
    r'.completeObjects = r.completeObjects ∧ r'.typeNames = r.typeNames ∧ r'.minimalObjects = r.minimalObjects ∧
      Keeps r.completeToMinimal r'.completeToMinimal ∧ Keeps r.minimalToComplete r'.minimalToComplete := by
  have hnothing : reg.registerAndDerive ops rounds [] = reg := by
    cases rounds <;> rfl
  cases reply with
  | getTypeDependencies ids =>
    rw [TypeLookupReturn.registered, hnothing]
    exact ⟨rfl, rfl, rfl, fun _ _ h => h, fun _ _ h => h⟩
  | getTypes types pairs =>
    cases outstanding with
    | false =>
      rw [TypeLookupReturn.registered, if_neg Bool.false_ne_true, hnothing]
      exact ⟨rfl, rfl, rfl, fun _ _ h => h, fun _ _ h => h⟩
    | true => exact noteAll_keeps pairs _

end TypeRegistry

end Int2Dds.XTypes.TypeLookup
