import SecureMcp.Decision
import SecureMcp.Python.Reordering

/-! The rows of the audit log: what `AuditWriter.write` makes of its arguments, and the hash
that chains a row to the one before it.
-/

namespace SecureMcp

/-- The gateway's signing key and its public half. That a signature made with the one
verifies with the other is the signature library's promise.
-/
structure KeyPair where
  sign : String → String
  verify : (signature text : String) → Bool
  verify_sign (text : String) : verify (sign text) text = true

/-- A key pair whose signatures are the signed texts themselves, for concrete runs. -/
def KeyPair.plain : KeyPair where
  sign text := text
  verify signature text := signature = text
  verify_sign text := by simp

/-- The arguments of `AuditWriter.write`. -/
structure AuditEntry where
  eventType : EventType
  identityId : String
  serverId : Option String := none
  toolName : Option String := none
  payloadExtra : List (String × Json) := []
  riskScore : Option Int := none

/-- One row of the audit log table. -/
structure AuditRow where
  seq : Nat
  prevHash : String
  currHash : String
  signature : String
  identityId : String
  serverId : Option String
  toolName : Option String
  policyVersion : Int
  eventType : String
  riskScore : Option Int
  payload : Json

namespace AuditLog

def genesisHash : String :=
  String.ofList (List.replicate 64 '0')

def computeHash (prevHash : String) (payload : Json) : Except Exn String :=
  return Sha256.hexdigest (prevHash ++ (← CanonicalJson.encode payload))

/-- A NUL becomes the six characters of its own escape. -/
def escapeChar (char : Char) : List Char :=
  if char = '\x00' then ['\\', 'u', '0', '0', '0', '0'] else [char]

def escapeNul (text : String) : String :=
  String.ofList (text.toList.flatMap escapeChar)

mutual

/-- Escape every string and every key. Keys that become equal collapse into one entry. -/
def jsonbSafe : Json → Json
  | .str text => .str (escapeNul text)
  | .obj fields => .obj (Dict.ofPairs (safeFields fields))
  | .arr items => .arr (safeItems items)
  | value => value

def safeItems : List Json → List Json
  | [] => []
  | item :: rest => jsonbSafe item :: safeItems rest

def safeFields : List (String × Json) → List (String × Json)
  | [] => []
  | (key, value) :: rest => (escapeNul key, jsonbSafe value) :: safeFields rest

end

end AuditLog

/-- A JSON string, or `null` for an absent one. -/
def Json.ofOption : Option String → Json
  | some text => .str text
  | none => .null

namespace AuditEntry

/-- The fields that every payload carries. -/
def base (policyVersion : Int) (entry : AuditEntry) : List (String × Json) :=
  [
    ("event_type", .str entry.eventType.value),
    ("identity_id", .str entry.identityId),
    ("server_id", .ofOption entry.serverId),
    ("tool_name", .ofOption entry.toolName),
    ("policy_version", .int policyVersion)
  ]

/-- The payload: the base fields, overridden by the caller's own, all escaped. -/
def payload (policyVersion : Int) (entry : AuditEntry) : Json :=
  AuditLog.jsonbSafe (.obj (Dict.update (entry.base policyVersion) entry.payloadExtra))

/-- The row that `_insert` adds. -/
def inserted (keys : KeyPair) (policyVersion : Int) (prevHash currHash : String) (seq : Nat)
    (entry : AuditEntry)
    : AuditRow where
  seq := seq
  prevHash := prevHash
  currHash := currHash
  signature := keys.sign currHash
  identityId := entry.identityId
  serverId := entry.serverId
  toolName := entry.toolName
  policyVersion := policyVersion
  eventType := entry.eventType.value
  riskScore := entry.riskScore
  payload := entry.payload policyVersion

/-- The row that a write makes after `prevHash`. The policy version is read for the payload
and again for the column, with nothing awaited in between that could change it.
-/
def row (keys : KeyPair) (policyVersion : Int) (prevHash : String) (seq : Nat)
    (entry : AuditEntry)
    : Except Exn AuditRow := do
  let currHash ← AuditLog.computeHash prevHash (entry.payload policyVersion)
  return entry.inserted keys policyVersion prevHash currHash seq

end AuditEntry

namespace AuditLog

/-- Fields set one by one into distinct fields stay distinct at every depth, by induction
on them.
-/
theorem distinctFields_update {entries extra : List (String × Json)}
    (old : Json.DistinctFields entries) (new : Json.DistinctFields extra)
    : Json.DistinctFields (Dict.update entries extra) := by
  induction extra generalizing entries with
  | nil => exact old
  | cons pair rest ih =>
      obtain ⟨head, tail⟩ := new
      refine ih ?_ tail
      clear ih tail
      induction entries with
      | nil => exact ⟨head, trivial⟩
      | cons entry later ih =>
          simp only [Dict.set]
          split
          · exact ⟨head, old.2⟩
          · exact ⟨old.1, ih old.2⟩

mutual

/-- What is written has distinct keys in every object, however the input's keys collide. -/
theorem jsonbSafe_distinct (value : Json) : (jsonbSafe value).DistinctKeys := by
  cases value with
  | null | bool _ | int _ | float _ | str _ => trivial
  | arr items => exact safeItems_distinct items
  | obj fields =>
      exact ⟨Dict.nodup_ofPairs _,
        distinctFields_update trivial (safeFields_distinct fields)⟩

theorem safeItems_distinct (items : List Json)
    : Json.DistinctItems (safeItems items) := by
  cases items with
  | nil => trivial
  | cons item rest => exact ⟨jsonbSafe_distinct item, safeItems_distinct rest⟩

theorem safeFields_distinct (fields : List (String × Json))
    : Json.DistinctFields (safeFields fields) := by
  match fields with
  | [] => trivial
  | (key, value) :: rest => exact ⟨jsonbSafe_distinct value, safeFields_distinct rest⟩

end

/-- Hashing succeeds exactly on a value that prints, with the digest of its text. -/
theorem computeHash_ok_iff {prevHash hash : String} {payload : Json}
    : computeHash prevHash payload = .ok hash
      ↔ ∃ text,
          CanonicalJson.encode payload = .ok text
          ∧ hash = Sha256.hexdigest (prevHash ++ text) := by
  unfold computeHash
  cases CanonicalJson.encode payload with
  | error exn => simp [bind, Except.bind]
  | ok text => simp [bind, Except.bind, pure, Except.pure, eq_comm]

/-- A row's hash after the one with the given characters, also as characters, which the
kernel evaluates quickly.
-/
def hashChars (previous : List Char) (payload : Json) : Except Exn (List Char) :=
  (CanonicalJson.chars payload).map (fun text => Sha256.digest (previous ++ text))

theorem computeHash_ofList (previous : List Char) (payload : Json)
    : computeHash (String.ofList previous) payload
      = (hashChars previous payload).map String.ofList := by
  unfold computeHash CanonicalJson.encode hashChars
  cases CanonicalJson.chars payload with
  | error exn => rfl
  | ok text => exact congrArg Except.ok (Sha256.hexdigest_ofList_append _ _)

/-- Hashes differ when they differ as characters. -/
theorem computeHash_ne {previous : List Char} {left right : Json}
    (differ : hashChars previous left ≠ hashChars previous right)
    : computeHash (String.ofList previous) left ≠ computeHash (String.ofList previous) right := by
  rw [computeHash_ofList, computeHash_ofList]
  intro equal
  cases first : hashChars previous left <;> cases second : hashChars previous right <;>
    rw [first, second] at equal differ
  · exact differ (congrArg _ (Except.error.inj equal))
  · cases equal
  · cases equal
  · exact differ (congrArg _ (String.ofList_injective (Except.ok.inj equal)))

end AuditLog

/-- A write makes a row exactly when its payload can be hashed. -/
theorem AuditEntry.row_ok_iff {keys : KeyPair} {policyVersion : Int} {prevHash : String}
    {seq : Nat} {entry : AuditEntry} {row : AuditRow}
    : entry.row keys policyVersion prevHash seq = .ok row
      ↔ ∃ currHash,
          AuditLog.computeHash prevHash (entry.payload policyVersion) = .ok currHash
          ∧ row = entry.inserted keys policyVersion prevHash currHash seq := by
  unfold AuditEntry.row
  generalize AuditLog.computeHash prevHash (entry.payload policyVersion) = hashed
  cases hashed with
  | error exn => simp [bind, Except.bind]
  | ok hash => simp [bind, Except.bind, pure, Except.pure, eq_comm]

/-- A payload that prints makes a row, after any hash and at any number. -/
theorem AuditEntry.exists_row (keys : KeyPair) (policyVersion : Int) (prevHash : String)
    (seq : Nat) (entry : AuditEntry)
    (prints : (CanonicalJson.encode (entry.payload policyVersion)).isOk)
    : ∃ row, entry.row keys policyVersion prevHash seq = .ok row := by
  cases printed : CanonicalJson.encode (entry.payload policyVersion) with
  | error exn =>
      rw [printed] at prints
      cases prints
  | ok text =>
      have hashed : AuditLog.computeHash prevHash (entry.payload policyVersion) = .ok _ :=
        AuditLog.computeHash_ok_iff.mpr ⟨text, printed, rfl⟩
      exact ⟨_, row_ok_iff.mpr ⟨_, hashed, rfl⟩⟩

end SecureMcp
