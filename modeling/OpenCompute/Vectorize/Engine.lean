import OpenCompute.Platform
import OpenCompute.Relational.Table
import OpenCompute.Transition.Run
import OpenCompute.Vectorize.Metadata

/-!
# The mutation engine of a vector index

An index is one database: the visible vectors with the terms of their indexed
metadata, and an ordered queue of mutations.  A mutation is admitted against a
projection of everything that is still pending, then claimed under a lease, and
applied to the visible vectors in sequence order.
-/

namespace OpenCompute
namespace Vectorize

open Relational Transaction

/-! ## Values and texts as they are stored -/

abbrev F32 := BitVec 32

def isFinite (value : F32) : Bool := value.extractLsb' 23 8 ≠ 255#8

def toLeBytes (value : F32) : List Byte :=
  [(value.extractLsb' 0 8).toFin, (value.extractLsb' 8 8).toFin,
    (value.extractLsb' 16 8).toFin, (value.extractLsb' 24 8).toFin]

def fromLeBytes (b0 b1 b2 b3 : Byte) : F32 :=
  BitVec.ofFin (w := 8) b3 ++ BitVec.ofFin (w := 8) b2 ++ BitVec.ofFin (w := 8) b1 ++
    BitVec.ofFin (w := 8) b0

inductive VectorMutationKind where
  | insert
  | upsert
  | delete
deriving DecidableEq

structure VectorMutationInput where
  id : Text
  namespaceName : Option Text
  values : Option (List F32)
  metadata : Option Value

structure StoredItem (β : Type) where
  id : Text
  namespaceName : Option Text
  values : Option (List Byte)
  metadata : Option β
deriving DecidableEq

structure VectorRow (β : Type) where
  id : Text
  namespaceName : Option Text
  values : List Byte
  metadata : Option β
  updatedSequence : Nat
deriving DecidableEq

inductive PropertyType where
  | string
  | number
  | boolean
deriving DecidableEq

structure MetadataIndex where
  propertyName : Text
  propertyType : PropertyType
deriving DecidableEq

inductive TermValue where
  | string (value : List Byte)
  | number (value : Rat)
  | boolean (value : Bool)
deriving DecidableEq

structure Term where
  propertyName : Text
  vectorId : Text
  ordinal : Nat
  value : TermValue
deriving DecidableEq

def Term.key (term : Term) : Text × Text × Nat :=
  (term.propertyName, term.vectorId, term.ordinal)

inductive FailureCode where
  | rejected (code : ErrorCode)
  | vectorQuotaExceeded
  | vectorByteQuotaExceeded
deriving DecidableEq

/-- The state of a mutation with its lease or its error. -/
inductive MutationState where
  | queued
  | claimed (token : Text) (untilMs : Millis)
  | applied
  | failed (code : FailureCode)
deriving DecidableEq

def MutationState.isPending : MutationState -> Bool
  | .queued => true
  | .claimed _ _ => true
  | _ => false

structure VectorMutation (β : Type) where
  mutationId : Uuid
  sequence : Nat
  kind : VectorMutationKind
  state : MutationState
  itemCount : Nat
  payloadBytes : Nat
  items : List (StoredItem β)
deriving DecidableEq

structure Store (β : Type) where
  vectors : Table (VectorRow.id (β := β))
  indexes : Table MetadataIndex.propertyName
  terms : Table Term.key
  mutations : Table (VectorMutation.sequence (β := β))
  vectorCount : Nat
  nextSequence : Nat
  processedSequence : Nat

def Store.initial (β : Type) : Store β :=
  ⟨Table.empty, Table.empty, Table.empty, Table.empty, 0, 1, 0⟩

/-- The frozen configuration of an index that could be opened. -/
structure VectorizeEngine where
  dimensions : Nat
  quotaVectors : Nat
  quotaBytes : Nat
  dimensions_range : 1 ≤ dimensions ∧ dimensions ≤ 1536
  quotaVectors_range : 0 < quotaVectors ∧ (quotaVectors : Int) ≤ i64Max
  quotaBytes_range : 1048576 ≤ quotaBytes ∧ (quotaBytes : Int) ≤ i64Max

/-! ## Errors -/

def invalid : PlatformError := ⟨.bindingProtocolError, "Vectorize request is invalid"⟩

def notFound : PlatformError := ⟨.resourceNotFound, "Vectorize metadata index was not found"⟩

def limit : PlatformError :=
  ⟨.bindingLimitExceeded, "Vectorize request exceeds a fixed limit"⟩

def conflict : PlatformError := ⟨.resourceNameConflict, "Vectorize identity already exists"⟩

def corrupt : PlatformError :=
  ⟨.resourceInvariantViolation, "Vectorize SQLite authority is corrupt"⟩

def unavailable : PlatformError :=
  ⟨.resourceUnavailable, "Vectorize SQLite authority is unavailable"⟩

def frontierBlocked : PlatformError :=
  ⟨.resourceUnavailable, "Vectorize mutation frontier is blocked"⟩

/-! ## Encoding -/

def maxBatchItems : Nat := 1000

def maxIdBytes : Nat := 64

def maxNamespaceBytes : Nat := 64

def u64Max : Nat := 18446744073709551615

def validIdentity (value : Text) (max : Nat) : Bool :=
  !value.chars.isEmpty && decide (value.len ≤ max)

def encodeValues (values : List F32) (dimensions : Nat) : Result (List Byte) := do
  ensure (values.length = dimensions ∧ values.all isFinite = true) invalid
  pure (values.flatMap toLeBytes)

def decodeChunks : List Byte -> Result (List F32)
  | b0 :: b1 :: b2 :: b3 :: rest => do
    let value := fromLeBytes b0 b1 b2 b3
    ensure (isFinite value) corrupt
    let values ← decodeChunks rest
    pure (value :: values)
  | _ => pure []

def decodeValues (bytes : List Byte) (dimensions : Nat) : Result (List F32) := do
  ensure (bytes.length = dimensions * 4) corrupt
  decodeChunks bytes

mutual

def validateMetadataValue : Value -> Nat -> Result Unit
  | .object fields, depth =>
    if depth ≤ 1 then validateMetadataFields fields depth else .error invalid
  | .string _, _ => pure ()
  | .bool _, _ => pure ()
  | .number _, _ => pure ()
  | .array values, _ =>
    if !values.isEmpty && values.all Value.isString then pure () else .error invalid
  | .null, _ => .error invalid

def validateMetadataFields : List (Text × Value) -> Nat -> Result Unit
  | [], _ => pure ()
  | (name, value) :: fields, depth => do
    ensure (name.chars ≠ [] ∧ name.chars.contains '.' = false) invalid
    validateMetadataValue value (depth + 1)
    validateMetadataFields fields depth

end

variable {β : Type} (json : Json β) (engine : VectorizeEngine)

def canonicalMetadata (value : Value) : Result β := do
  ensure (value.asObject.isSome = true) invalid
  validateMetadataValue value 0
  let bytes := json.print value
  ensure (json.size bytes ≤ maxMetadataBytes) limit
  pure bytes

def optionalLen (value : Option Text) : Nat := (value.map Text.len).getD 0

def StoredItem.bytes (item : StoredItem β) : Nat :=
  item.id.len + optionalLen item.namespaceName + (item.values.map List.length).getD 0 +
    (item.metadata.map json.size).getD 0

def VectorRow.bytes (row : VectorRow β) : Nat :=
  row.id.len + optionalLen row.namespaceName + row.values.length +
    (row.metadata.map json.size).getD 0

/-! ## Admission -/

def encodeItemValues (kind : VectorMutationKind) (values : Option (List F32)) :
    Result (Option (List Byte)) :=
  match kind, values with
  | .delete, none => pure none
  | .insert, some values => some <$> encodeValues values engine.dimensions
  | .upsert, some values => some <$> encodeValues values engine.dimensions
  | _, _ => .error invalid

def encodeItemMetadata : Option Value -> Result (Option β)
  | none => pure none
  | some value => some <$> canonicalMetadata json value

/-- The check of one item, which is skipped when its id was seen before. -/
def validateItem (kind : VectorMutationKind) (encoded : List (StoredItem β))
    (item : VectorMutationInput) : Result (List (StoredItem β)) :=
  if encoded.any fun other => other.id = item.id then pure encoded
  else do
    ensure (validIdentity item.id maxIdBytes = true ∧
      item.namespaceName.all (fun value => validIdentity value maxNamespaceBytes) = true) invalid
    let values ← encodeItemValues engine kind item.values
    ensure (kind = .delete -> item.namespaceName.isNone = true ∧ item.metadata.isNone = true)
      invalid
    let metadata ← encodeItemMetadata json item.metadata
    pure (encoded ++ [⟨item.id, item.namespaceName, values, metadata⟩])

def validateBatch (kind : VectorMutationKind) (items : List VectorMutationInput) :
    Result (List (StoredItem β)) := do
  ensure (items.length ≠ 0 ∧ items.length ≤ maxBatchItems) limit
  items.foldlM (validateItem json engine kind) []

abbrev Projection := Table (Prod.fst : Text × Nat -> Text)

def projectVectors (vectors : Table (VectorRow.id (β := β))) : Projection :=
  vectors.mapRows (fun row => (row.id, row.bytes json)) fun _ => rfl

def project (kind : VectorMutationKind) (projected : Projection) (item : Text × Nat) :
    Projection :=
  match kind with
  | .insert => (projected.insert? item).getD projected
  | .upsert => projected.put item
  | .delete => projected.erase item.1

def projectMutation (projected : Projection) (mutation : VectorMutation β) : Projection :=
  mutation.items.foldl (fun projected item =>
    project mutation.kind projected (item.id, item.bytes json)) projected

def maxPendingMutations : Nat := 1024

def maxPendingItems : Nat := 100000

def retainAppliedMutations : Nat := 10000

namespace Store

variable (s : Store β)

def pending : List (VectorMutation β) :=
  (s.mutations.rows.filter fun m => m.state.isPending).insertionSort
    fun a b => a.sequence ≤ b.sequence

def validatePendingProjection : Result Unit := do
  ensure (s.mutations.rows.all (fun m => match m.state with | .failed _ => false | _ => true) =
    true) frontierBlocked
  ensure (s.pending.length ≤ maxPendingMutations ∧
    (s.pending.map VectorMutation.itemCount).sum ≤ maxPendingItems ∧
    (s.pending.map VectorMutation.payloadBytes).sum ≤ engine.quotaBytes) limit
  let projected := s.pending.foldl (projectMutation json) (projectVectors json s.vectors)
  let projectedBytes := (projected.rows.map Prod.snd).sum
  ensure (projectedBytes ≤ u64Max) limit
  ensure (projected.rows.length ≤ engine.quotaVectors ∧ projectedBytes ≤ engine.quotaBytes) limit

def enqueue (kind : VectorMutationKind) (items : List VectorMutationInput) (mutationId : Uuid) :
    Result (Store β × VectorMutation β) := do
  let encoded ← validateBatch json engine kind items
  let payloadBytes : Nat := (encoded.map fun item => item.bytes json).sum
  ensure ((payloadBytes : Int) ≤ i64Max) invalid
  let mutation : VectorMutation β :=
    ⟨mutationId, s.nextSequence, kind, .queued, encoded.length, payloadBytes, encoded⟩
  -- The primary key and the unique sequence.
  ensure (s.mutations.rows.all (fun m => decide (m.mutationId ≠ mutationId)) = true) unavailable
  let mutations ← okOr (s.mutations.insert? mutation) unavailable
  let s := { s with mutations }
  s.validatePendingProjection json engine
  ensure (((s.nextSequence + 1 : Nat) : Int) ≤ i64Max) corrupt
  pure ({ s with nextSequence := s.nextSequence + 1 }, mutation)

/-! ## Leases -/

def claimNext (claimToken : Text) (nowMs leaseMs : Millis) :
    Result (Store β × Option (VectorMutation β)) := do
  ensure (claimToken.chars ≠ [] ∧ claimToken.len ≤ 128 ∧ 0 < leaseMs) invalid
  match s.mutations.find? (s.processedSequence + 1) with
  | none => pure (s, none)
  | some mutation =>
    let claim : Result (Store β × Option (VectorMutation β)) := do
      let claimUntil ← okOr (checkedAdd nowMs leaseMs) limit
      let mutation := { mutation with state := .claimed claimToken claimUntil }
      pure ({ s with mutations := s.mutations.replace mutation }, some mutation)
    match mutation.state with
    | .failed _ => .error frontierBlocked
    | .applied => .error corrupt
    | .claimed _ untilMs => if nowMs < untilMs then pure (s, none) else claim
    | .queued => claim

/-! ## Application -/

end Store

def validValues (kind : VectorMutationKind) (dimensions : Nat) (values : Option (List Byte)) :
    Result Unit :=
  match kind, values with
  | .delete, none => pure ()
  | .insert, some bytes => do
    let _ ← decodeValues bytes dimensions
    pure ()
  | .upsert, some bytes => do
    let _ ← decodeValues bytes dimensions
    pure ()
  | _, _ => .error corrupt

/-- Whether stored metadata is what its value prints. -/
def validMetadata [DecidableEq β] (metadata : β) : Bool :=
  match json.parse metadata with
  | none => false
  | some value =>
    match canonicalMetadata json value with
    | .ok bytes => bytes = metadata
    | .error _ => false

def validatePersistedItem [DecidableEq β] (kind : VectorMutationKind) (ids : List Text)
    (item : StoredItem β) : Result (List Text) := do
  ensure (validIdentity item.id maxIdBytes = true ∧ ¬ item.id ∈ ids) corrupt
  ensure (item.namespaceName.all (fun value => validIdentity value maxNamespaceBytes) = true)
    corrupt
  validValues kind engine.dimensions item.values
  ensure (item.metadata.all (fun metadata => validMetadata json metadata) = true) corrupt
  pure (ids ++ [item.id])

def validatePersistedItems [DecidableEq β] (items : List (StoredItem β))
    (kind : VectorMutationKind) : Result Unit := do
  ensure (items.length ≠ 0 ∧ items.length ≤ maxBatchItems) corrupt
  let _ ← items.foldlM (validatePersistedItem json engine kind) []
  pure ()

def isCharBoundary (bytes : List Byte) (index : Nat) : Bool :=
  decide (index = 0) || match bytes[index]? with
    | some byte => !(decide (128 ≤ byte) && decide (byte < 192))
    | none => decide (index = bytes.length)

def boundaryBelow (bytes : List Byte) : Nat -> Nat
  | 0 => 0
  | index + 1 => if isCharBoundary bytes (index + 1) then index + 1 else boundaryBelow bytes index

def indexedPrefix (value : Text) : List Byte :=
  value.bytes.take (boundaryBelow value.bytes (min value.len 64))

def termValue : PropertyType -> Value -> Option TermValue
  | .string, .string value => some (.string (indexedPrefix value))
  | .number, .number value => some (.number value)
  | .boolean, .bool value => some (.boolean value)
  | _, _ => none

def elements : Value -> List Value
  | .array values => values
  | value => [value]

def termsOf (propertyType : PropertyType) (value : Value) : List (Nat × TermValue) :=
  (elements value).zipIdx.filterMap fun entry =>
    (termValue propertyType entry.1).map fun term => (entry.2, term)

def insertTerms (vectorId : Text) (metadata : Value) (terms : Table Term.key)
    (index : MetadataIndex) : Result (Table Term.key) :=
  match metadata.resolve index.propertyName.components with
  | none => pure terms
  | some value => (termsOf index.propertyType value).foldlM (fun terms entry =>
    okOr (terms.insert? ⟨index.propertyName, vectorId, entry.1, entry.2⟩) corrupt) terms

namespace Store

variable (s : Store β)

def insertAllTerms (vectorId : Text) (metadata : Option β) (terms : Table Term.key) :
    Result (Table Term.key) :=
  match metadata with
  | none => pure terms
  | some metadata => do
    let value ← okOr (json.parse metadata) corrupt
    s.indexes.rows.foldlM (insertTerms vectorId value) terms

def applyWrite (kind : VectorMutationKind) (sequence : Nat) (s : Store β)
    (item : StoredItem β) : Result (Store β) := do
  let values ← okOr item.values corrupt
  let row : VectorRow β := ⟨item.id, item.namespaceName, values, item.metadata, sequence⟩
  ensure (1 ≤ sequence ∧ (sequence : Int) ≤ i64Max ∧ 1 ≤ item.id.len ∧ item.id.len ≤ 64 ∧
    item.namespaceName.all (fun value => decide (1 ≤ value.len ∧ value.len ≤ 64)) = true ∧
    item.metadata.all (fun metadata => decide (json.size metadata ≤ 10240)) = true) unavailable
  if kind = .insert ∧ (s.vectors.find? item.id).isSome = true then
    pure s
  else
    let vectors := s.vectors.put row
    let terms := s.terms.filter fun term => term.vectorId ≠ item.id
    let terms ← s.insertAllTerms json item.id item.metadata terms
    pure { s with vectors, terms }

def deleteVector (s : Store β) (item : StoredItem β) : Store β :=
  { s with
    vectors := s.vectors.erase item.id
    terms := s.terms.filter fun term => term.vectorId ≠ item.id }

def markFailed (mutation : VectorMutation β) (code : FailureCode) : Store β :=
  { s with mutations := s.mutations.replace { mutation with state := .failed code } }

def addedVectors (items : List (StoredItem β)) : Nat :=
  items.countP fun item => (s.vectors.find? item.id).isNone

/-- The bytes after one more item, as long as they can be computed. -/
def finalBytes (kind : VectorMutationKind) (total : Nat) (item : StoredItem β) : Result Nat :=
  match s.vectors.find? item.id with
  | none => do
    ensure (total + item.bytes json ≤ u64Max) limit
    pure (total + item.bytes json)
  | some row =>
    if kind = .insert then pure total
    else do
      ensure (row.bytes json ≤ total) corrupt
      ensure (total - row.bytes json + item.bytes json ≤ u64Max) limit
      pure (total - row.bytes json + item.bytes json)

def applyItems (mutation : VectorMutation β) : Result (Store β) :=
  match mutation.kind with
  | .delete => pure (mutation.items.foldl deleteVector s)
  | kind => mutation.items.foldlM (applyWrite json kind mutation.sequence) s

/-- The frontier moves on, and the payload of the mutation and old receipts go. -/
def settle (mutation : VectorMutation β) : Store β :=
  let mutations := s.mutations.replace { mutation with state := .applied, items := [] }
  { s with
    vectorCount := s.vectors.rows.length
    processedSequence := mutation.sequence
    mutations := mutations.filter fun m =>
      !(decide (m.state = .applied) &&
        decide (m.sequence ≤ mutation.sequence - retainAppliedMutations)) }

def exceededQuota (mutation : VectorMutation β) : Result (Option FailureCode) := do
  if mutation.kind = .delete then
    pure none
  else if engine.quotaVectors < s.vectors.rows.length + s.addedVectors mutation.items then
    pure (some .vectorQuotaExceeded)
  else
    let currentBytes : Nat := (s.vectors.rows.map fun row => row.bytes json).sum
    ensure ((currentBytes : Int) ≤ i64Max) corrupt
    let bytes ← mutation.items.foldlM (s.finalBytes json mutation.kind) currentBytes
    if engine.quotaBytes < bytes then
      pure (some .vectorByteQuotaExceeded)
    else
      pure none

abbrev Outcome (β : Type) := Store β × Result (Option (VectorMutation β))

def applyMutation [DecidableEq β] (mutation : VectorMutation β) (nowMs : Millis)
    (claimToken : Text) : Result (Outcome β) := do
  match mutation.state with
  | .claimed token untilMs =>
    ensure (token = claimToken ∧ nowMs < untilMs) frontierBlocked
    match validatePersistedItems json engine mutation.items mutation.kind with
    | .error error => pure (s.markFailed mutation (.rejected error.code), .error error)
    | .ok _ => do
      let exceeded ← s.exceededQuota json engine mutation
      match exceeded with
      | some code => pure (s.markFailed mutation code, .error limit)
      | none => do
        let t ← s.applyItems json mutation
        pure (t.settle mutation, .ok (some { mutation with state := .applied }))
  | _ => .error frontierBlocked

def applyClaimed [DecidableEq β] (claimToken : Text) (nowMs : Millis) : Outcome β :=
  match s.mutations.find? (s.processedSequence + 1) with
  | none => (s, .ok none)
  | some mutation =>
    match s.applyMutation json engine mutation nowMs claimToken with
    | .ok outcome => outcome
    | .error error => (s, .error error)

/-! ## Metadata indexes -/

end Store

def validPropertyPath (value : Text) : Bool :=
  !value.chars.isEmpty && decide (value.len ≤ 256) &&
    value.components.all fun part => !part.chars.isEmpty && !part.startsWith '$'

namespace Store

variable (s : Store β)

def materialize (index : MetadataIndex) (terms : Table Term.key) (row : VectorRow β) :
    Result (Table Term.key) :=
  match row.metadata with
  | none => pure terms
  | some metadata => do
    let value ← okOr (json.parse metadata) corrupt
    insertTerms row.id value terms index

def createMetadataIndex (index : MetadataIndex) : Result (Store β) := do
  ensure (validPropertyPath index.propertyName = true) invalid
  ensure (s.indexes.rows.length < 10) limit
  let indexes ← okOr (s.indexes.insert? index) conflict
  let terms ← s.vectors.rows.foldlM (materialize json index) s.terms
  pure { s with indexes, terms }

def deleteMetadataIndex (propertyName : Text) : Result (Store β) := do
  ensure (validPropertyPath propertyName = true) invalid
  ensure ((s.indexes.find? propertyName).isSome = true) notFound
  pure { s with
    indexes := s.indexes.erase propertyName
    terms := s.terms.filter fun term => term.propertyName ≠ propertyName }

end Store

/-! ## Calls in any order -/

structure Accepted (β : Type) where
  kind : VectorMutationKind
  items : List (StoredItem β)

/-- The index with the mutations that were accepted so far, for the specification only. -/
structure World (β : Type) where
  store : Store β
  accepted : List (Accepted β)

def World.initial (β : Type) : World β := ⟨Store.initial β, []⟩

inductive Action where
  | enqueue (kind : VectorMutationKind) (items : List VectorMutationInput) (mutationId : Uuid)
  | claimNext (claimToken : Text) (nowMs leaseMs : Millis)
  | applyClaimed (claimToken : Text) (nowMs : Millis)
  | createMetadataIndex (index : MetadataIndex)
  | deleteMetadataIndex (propertyName : Text)

def World.next [DecidableEq β] (w : World β) : Action -> Option (World β)
  | .enqueue kind items mutationId =>
    match w.store.enqueue json engine kind items mutationId with
    | .ok (store, mutation) => some ⟨store, w.accepted ++ [⟨mutation.kind, mutation.items⟩]⟩
    | .error _ => some w
  | .claimNext claimToken nowMs leaseMs =>
    match w.store.claimNext claimToken nowMs leaseMs with
    | .ok (store, _) => some { w with store }
    | .error _ => some w
  | .applyClaimed claimToken nowMs =>
    some { w with store := (w.store.applyClaimed json engine claimToken nowMs).1 }
  | .createMetadataIndex index =>
    match w.store.createMetadataIndex json index with
    | .ok store => some { w with store }
    | .error _ => some w
  | .deleteMetadataIndex propertyName =>
    match w.store.deleteMetadataIndex propertyName with
    | .ok store => some { w with store }
    | .error _ => some w

end Vectorize
end OpenCompute
