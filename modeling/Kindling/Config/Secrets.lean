import Kindling.Auth.Store
import Kindling.Deploy.Reconcile
import Kindling.Lib.Base64

/-!
# Project secrets

The envelopes of `internal/config/crypto.go` around the values of environment variables, the backfill
of `internal/config/project_secrets.go`, and the requests of `internal/rpc/project_secrets_api.go` that
write and delete variables. AES-GCM is a parameter; all that is known of it is that opening a sealed
value returns it.
-/

namespace Kindling

open Fallible

/-- `cipher.AEAD` for a key and a nonce. -/
structure Gcm where
  gcmSeal (key nonce : Bytes) (plaintext : String) : Bytes
  gcmOpen (key nonce ciphertext : Bytes) : Option String
  gcmOpen_gcmSeal : ∀ key nonce plaintext, gcmOpen key nonce (gcmSeal key nonce plaintext) = some plaintext

def nonceSize : Nat := 12

/-- What `io.ReadFull` reads from the source of randomness. -/
abbrev Nonce := { b : Bytes // b.length = nonceSize }

def secretKeyError (key : Bytes) : Err :=
  .of (.message ("cluster secret key: want 32 bytes, got " ++ toString key.length))

/-- The output of `encryptSecretBytes` for a nonce. -/
def sealWith (gcm : Gcm) (key : Bytes) (nonce : Nonce) (plaintext : String) : Bytes :=
  nonce.val ++ gcm.gcmSeal key nonce.val plaintext

def decryptSecretBytes (gcm : Gcm) (key ciphertext : Bytes) : Except Err String :=
  if key.length ≠ 32 then .error (secretKeyError key)
  else if ciphertext = [] then .ok ""
  else if ciphertext.length < nonceSize then
    .error (.of (.message "cluster secret: ciphertext too short"))
  else
    match gcm.gcmOpen key (ciphertext.take nonceSize) (ciphertext.drop nonceSize) with
    | some plain => .ok plain
    | none => .error (.of (.message "cipher: message authentication failed"))

def envelope (gcm : Gcm) (key : Bytes) (nonce : Nonce) (plaintext : String) : String :=
  projectSecretEnvelopePrefix ++ Base64.encode (sealWith gcm key nonce plaintext)

/-- The message of an error of `base64` is given without its position. -/
def decryptProjectSecretValue (gcm : Gcm) (key : Bytes) (stored : String) : Except Err String :=
  if stored = "" then .ok ""
  else if !isEncryptedProjectSecretValue stored then .ok stored
  else
    let raw := String.ofList (stored.toList.drop projectSecretEnvelopePrefix.length)
    if raw = "" then .error (.of (.message "project secret: missing ciphertext"))
    else
      match Base64.decode raw with
      | none => .error ((Err.of (.message "illegal base64 data")).wrap "project secret: decode envelope")
      | some ct => (decryptSecretBytes gcm key ct).mapError (Err.wrap "project secret: decrypt")

abbrev EnvironmentVariableTable := Table Id EnvironmentVariable (·.id)

structure SecretWorld where
  vars : EnvironmentVariableTable := .empty
  /-- The value that a user has written last for a variable. No program reads it. -/
  written : Id → Option String := fun _ => none

namespace SecretWorld

/-- `ORDER BY project_id, name` -/
def inOrder (a b : EnvironmentVariable) : Bool :=
  a.projectId < b.projectId || (a.projectId == b.projectId && decide (a.name ≤ b.name))

def environmentVariableFindAll (w : SecretWorld) : List EnvironmentVariable :=
  w.vars.rows.insertionSort (inOrder · ·)

def environmentVariableUpdateValue (w : SecretWorld) (id : Id) (value : String) :
    Except Err EnvironmentVariable × SecretWorld :=
  let r := w.vars.updateKey id (fun _ => true) ({ · with value }) fun _ => rfl
  (one r.1, { w with vars := r.2 })

/-- The variable of a project default or of a service. -/
def sameVariable (row ev : EnvironmentVariable) : Bool :=
  ev.projectId == row.projectId && ev.serviceId == row.serviceId && ev.name == row.name

/-- `EnvironmentVariableUpsertProjectDefault` and `EnvironmentVariableUpsertForService`: update the
variable, or insert it. The plaintext is recorded only. -/
def environmentVariableUpsert (w : SecretWorld) (row : EnvironmentVariable) (plain : String) :
    Except Err EnvironmentVariable × SecretWorld :=
  match w.vars.rows.find? (sameVariable row) with
  | some old =>
    (.ok { old with value := row.value },
      { vars := w.vars.updateWhere (sameVariable row) ({ · with value := row.value }) fun _ => rfl
        written := fun id =>
          if (w.vars.find? id).any (sameVariable row) then some plain else w.written id })
  | none =>
    match w.vars.insert? row with
    | some vars => (.ok row, { vars, written := Function.update w.written row.id (some plain) })
    | none => (.error (.of .uniqueViolation), w)

def environmentVariableDelete (w : SecretWorld) (which : EnvironmentVariable → Bool) :
    Except Err EnvironmentVariable × SecretWorld :=
  (one (w.vars.rows.find? which), { w with vars := w.vars.keep fun ev => !which ev })

end SecretWorld

inductive SecretOp : Type → Type 1
  | randNonce : SecretOp (Except Err Nonce)
  | environmentVariableFindAll : SecretOp (Except Err (List EnvironmentVariable))
  | environmentVariableUpdateValue (id : Id) (value : String) :
      SecretOp (Except Err EnvironmentVariable)
  | environmentVariableUpsert (row : EnvironmentVariable) (plain : String) :
      SecretOp (Except Err EnvironmentVariable)
  | environmentVariableDelete (which : EnvironmentVariable → Bool) :
      SecretOp (Except Err EnvironmentVariable)

/-- What the environment contributes to a call: whether it fails, and random bytes. -/
structure SecretAnswer where
  fail : Bool := false
  nonce : Nonce := ⟨List.replicate nonceSize 0, rfl⟩

instance : Inhabited SecretAnswer := ⟨{}⟩

/-- A call that fails changes nothing. -/
def unlessFails (a : SecretAnswer) (r : Except Err β × SecretWorld) (w : SecretWorld) :
    Except Err β × SecretWorld :=
  if a.fail then (.error (.of .unavailable), w) else r

def SecretOp.step : SecretOp β → SecretAnswer → SecretWorld → β × SecretWorld
  | randNonce, a, w => unlessFails a (.ok a.nonce, w) w
  | environmentVariableFindAll, a, w => unlessFails a (.ok w.environmentVariableFindAll, w) w
  | environmentVariableUpdateValue id value, a, w =>
    unlessFails a (w.environmentVariableUpdateValue id value) w
  | environmentVariableUpsert row plain, a, w =>
    unlessFails a (w.environmentVariableUpsert row plain) w
  | environmentVariableDelete which, a, w => unlessFails a (w.environmentVariableDelete which) w

instance : Atomic SecretOp SecretAnswer SecretWorld where
  step := SecretOp.step

def encryptProjectSecretValue (gcm : Gcm) (key : Bytes) (plaintext : String) : Go SecretOp String :=
  if key.length ≠ 32 then throw (secretKeyError key)
  else do
    let nonce ← ofCall .randNonce
    return envelope gcm key nonce plaintext

section backfill
variable (gcm : Gcm) (masterKey : Bytes)

/-- The loop of the backfill, which has updated some rows before. An error comes with the number of
rows updated so far. -/
def backfillRows : List EnvironmentVariable → Nat → Fallible (Nat × Err) SecretOp Nat
  | [], updated => return updated
  | row :: rows, updated =>
    if isEncryptedProjectSecretValue row.value then
      match decryptProjectSecretValue gcm masterKey row.value with
      | .error e => throw (updated, e.wrap ("validate project secret " ++ row.name))
      | .ok _ => backfillRows rows updated
    else do
      let enc ← mapError (fun e => (updated, e.wrap ("encrypt project secret " ++ row.name)))
        (encryptProjectSecretValue gcm masterKey row.value)
      let _ ← mapError (fun e => (updated, e.wrap ("update project secret " ++ row.name)))
        (ofCall (.environmentVariableUpdateValue row.id enc) : Go SecretOp _)
      backfillRows rows (updated + 1)

def backfillProjectSecrets : Fallible (Nat × Err) SecretOp Nat := do
  let rows ← mapError (fun e => (0, e.wrap "list project secrets"))
    (ofCall .environmentVariableFindAll : Go SecretOp _)
  backfillRows gcm masterKey rows 0

end backfill

/-- The pattern `^[A-Za-z_][A-Za-z0-9_]*$`. -/
def validProjectSecretName (name : String) : Bool :=
  match name.toList with
  | [] => false
  | c :: cs => (c.isAlpha || c == '_') && cs.all fun c => c.isAlphanum || c == '_'

structure SecretRequest where
  projectId : Id
  serviceId : Option Id := none
  name : String
  value : Option String
  /-- The identifier drawn for a new row. -/
  newId : Id
  deriving DecidableEq, Repr

/-- What `upsertProjectSecret` and `upsertServiceSecret` have in common; `kind` is the word in their
error codes. -/
def upsertSecret (gcm : Gcm) (masterKey : Option Bytes) (kind : String) (req : SecretRequest) :
    Go SecretOp EnvironmentVariable :=
  let name := trimSpace req.name
  if !validProjectSecretName name then
    throw (apiError "validation_error" "name must be a valid environment variable identifier")
  else
    match req.value, masterKey with
    | none, _ => throw (apiError "validation_error" "value is required")
    | some _, none => throw (apiError ("encrypt_" ++ kind) "config manager unavailable")
    | some value, some masterKey => do
      let enc ← context ("encrypt_" ++ kind) (encryptProjectSecretValue gcm masterKey value)
      context ("upsert_" ++ kind) (ofCall (.environmentVariableUpsert
        { id := req.newId, projectId := req.projectId, serviceId := req.serviceId, name, value := enc }
        value))

def upsertProjectSecret (gcm : Gcm) (masterKey : Option Bytes) (req : SecretRequest) :
    Go SecretOp EnvironmentVariable :=
  upsertSecret gcm masterKey "project_secret" { req with serviceId := none }

def upsertServiceSecret (gcm : Gcm) (masterKey : Option Bytes) (serviceId : Id) (req : SecretRequest) :
    Go SecretOp EnvironmentVariable :=
  upsertSecret gcm masterKey "service_secret" { req with serviceId := some serviceId }

def deleteSecret (kind notFound : String) (which : EnvironmentVariable → Bool) : Go SecretOp Unit := do
  match ← attempt (ofCall (.environmentVariableDelete which)) with
  | .error e =>
    if e.isNoRows then throw (apiError "not_found" notFound) else throw (e.wrap ("delete_" ++ kind))
  | .ok _ => return

def deleteProjectSecret (id projectId : Id) : Go SecretOp Unit :=
  deleteSecret "project_secret" "project secret not found"
    fun ev => ev.id == id && ev.projectId == projectId && ev.serviceId.isNone

def deleteServiceSecret (id serviceId : Id) : Go SecretOp Unit :=
  deleteSecret "service_secret" "service secret not found"
    fun ev => ev.id == id && ev.serviceId == some serviceId

inductive SecretActor
  | backfill (n : Nat)
  | request (n : Nat)
  deriving DecidableEq, Repr

/-- All servers have the same master key. -/
def secretStarts (gcm : Gcm) (masterKey : Bytes) : SecretActor → Prog SecretOp Unit → Prop
  | .backfill _, p => p = quietly (backfillProjectSecrets gcm masterKey)
  | .request _, p =>
    (∃ req, p = quietly (upsertProjectSecret gcm (some masterKey) req)) ∨
    (∃ serviceId req, p = quietly (upsertServiceSecret gcm (some masterKey) serviceId req)) ∨
    (∃ id projectId, p = quietly (deleteProjectSecret id projectId)) ∨
    (∃ id serviceId, p = quietly (deleteServiceSecret id serviceId)) ∨
    -- variables go with their project and with their service
    (∃ which, p = quietly (ofCall (.environmentVariableDelete which) : Go SecretOp _))

abbrev SecretTeam := Team SecretActor SecretOp Unit SecretWorld

end Kindling
