import Kindling.Config.Secrets

/-!
# What the backfill of secrets keeps

A backfill that runs by itself puts each plaintext value into an envelope and leaves envelopes alone.
With requests in between, a variable may no longer have the value that was read when its envelope is
written.
-/

namespace Kindling

open Fallible

-- Texts are not to be computed when a program is taken apart.
attribute [local irreducible] trimSpace validProjectSecretName

section envelopes
variable (gcm : Gcm) {key : Bytes}

theorem envelope_toList : (envelope gcm key nonce plain).toList =
    projectSecretEnvelopePrefix.toList ++ (Base64.encode (sealWith gcm key nonce plain)).toList :=
  String.toList_append

theorem isEncrypted_envelope (nonce : Nonce) (plain : String) :
    isEncryptedProjectSecretValue (envelope gcm key nonce plain) = true := by
  unfold isEncryptedProjectSecretValue
  rw [envelope_toList, List.isPrefixOf_iff_prefix]
  exact List.prefix_append _ _

theorem decrypt_plain (h : isEncryptedProjectSecretValue stored = false) :
    decryptProjectSecretValue gcm key stored = .ok stored := by
  unfold decryptProjectSecretValue
  by_cases hempty : stored = ""
  · rw [if_pos hempty, hempty]
  · rw [if_neg hempty, h]
    rfl

theorem decryptSecretBytes_sealWith (hkey : key.length = 32) (nonce : Nonce) (plain : String) :
    decryptSecretBytes gcm key (sealWith gcm key nonce plain) = .ok plain := by
  have hlength : nonceSize ≤ (sealWith gcm key nonce plain).length := by
    rw [sealWith, List.length_append]
    omega
  have hne : sealWith gcm key nonce plain ≠ [] := by
    intro h
    rw [h] at hlength
    revert hlength
    decide
  unfold decryptSecretBytes
  rw [if_neg (not_not.mpr hkey), if_neg hne, if_neg (by omega)]
  have htake : (sealWith gcm key nonce plain).take nonceSize = nonce.val :=
    List.take_left' nonce.property
  have hdrop : (sealWith gcm key nonce plain).drop nonceSize = gcm.gcmSeal key nonce.val plain :=
    List.drop_left' nonce.property
  rw [htake, hdrop, gcm.gcmOpen_gcmSeal]

theorem decrypt_envelope (hkey : key.length = 32) (nonce : Nonce) (plain : String) :
    decryptProjectSecretValue gcm key (envelope gcm key nonce plain) = .ok plain := by
  have hmarked := @isEncrypted_envelope gcm key nonce plain
  have hraw : .ofList ((envelope gcm key nonce plain).toList.drop
      projectSecretEnvelopePrefix.length) = Base64.encode (sealWith gcm key nonce plain) := by
    rw [envelope_toList, List.drop_left' (by rw [String.length_toList]), String.ofList_toList]
  have hseal : sealWith gcm key nonce plain ≠ [] := by
    intro h
    have hlength := congrArg List.length h
    rw [sealWith, List.length_append, nonce.property] at hlength
    simp [nonceSize] at hlength
  unfold decryptProjectSecretValue
  rw [hmarked]
  simp only [hraw]
  rw [if_neg (Base64.encode_ne_empty hseal), Base64.decode_encode]
  dsimp only
  rw [decryptSecretBytes_sealWith gcm hkey]
  rfl

end envelopes

/-! ## A backfill by itself -/

/-- What becomes of a variable: only its value may change, it decrypts to what it did before, and only
a plaintext value is put into an envelope. -/
structure Preserved (gcm : Gcm) (key : Bytes) (old new : EnvironmentVariable) : Prop where
  same : { new with value := old.value } = old
  decrypts : decryptProjectSecretValue gcm key new.value = decryptProjectSecretValue gcm key old.value
  once : new.value = old.value ∨ isEncryptedProjectSecretValue old.value = false ∧
    ∃ nonce, new.value = envelope gcm key nonce old.value

/-- What becomes of the table. -/
structure Migrated (gcm : Gcm) (key : Bytes) (w w' : SecretWorld) : Prop where
  ids : w'.vars.rows.map (·.id) = w.vars.rows.map (·.id)
  preserved : ∀ new ∈ w'.vars, ∃ old ∈ w.vars, Preserved gcm key old new

section preserved
variable {gcm : Gcm} {key : Bytes} {old mid new : EnvironmentVariable}

theorem Preserved.refl (ev : EnvironmentVariable) : Preserved gcm key ev ev := ⟨rfl, rfl, .inl rfl⟩

theorem Preserved.id_eq (h : Preserved gcm key old new) : new.id = old.id := by
  rw [← h.same]

theorem Preserved.encrypted (h : Preserved gcm key old new)
    (hold : isEncryptedProjectSecretValue old.value = true) :
    isEncryptedProjectSecretValue new.value = true := by
  rcases h.once with heq | ⟨hplain, -⟩
  · rw [heq]
    exact hold
  · rw [hold] at hplain
    cases hplain

theorem Preserved.trans (h : Preserved gcm key old mid) (h' : Preserved gcm key mid new) :
    Preserved gcm key old new := by
  refine ⟨?_, h'.decrypts.trans h.decrypts, ?_⟩
  · rw [← h.same, ← h'.same]
  · rcases h.once with heq | ⟨hplain, nonce, heq⟩
    · rw [← heq]
      exact h'.once
    · -- what has been put into an envelope stays as it is
      rcases h'.once with heq' | ⟨hplain', -⟩
      · exact .inr ⟨hplain, nonce, heq'.trans heq⟩
      · rw [heq, isEncrypted_envelope] at hplain'
        cases hplain'

theorem Migrated.refl (w : SecretWorld) : Migrated gcm key w w :=
  ⟨rfl, fun ev hev => ⟨ev, hev, .refl ev⟩⟩

theorem Migrated.trans (h : Migrated gcm key w w') (h' : Migrated gcm key w' w'') :
    Migrated gcm key w w'' := by
  refine ⟨h'.ids.trans h.ids, fun new hnew => ?_⟩
  obtain ⟨mid, hmid, hpres'⟩ := h'.preserved new hnew
  obtain ⟨old, hold, hpres⟩ := h.preserved mid hmid
  exact ⟨old, hold, hpres.trans hpres'⟩

theorem mem_updateValue {w : SecretWorld} {id : Id} {value : String} :
    new ∈ (w.environmentVariableUpdateValue id value).2.vars ↔
      ∃ ev ∈ w.vars, (if ev.id = id then { ev with value } else ev) = new := by
  refine (@Table.mem_updateWhere _ _ _ _ _ _ _ (fun _ => by rfl)).trans ?_
  simp

theorem updateValue_ids (w : SecretWorld) (id : Id) (value : String) :
    (w.environmentVariableUpdateValue id value).2.vars.rows.map (·.id) = w.vars.rows.map (·.id) := by
  simp only [SecretWorld.environmentVariableUpdateValue, Table.updateKey, Table.updateWhere,
    Table.modify, List.map_map]
  refine List.map_congr_left fun ev _ => ?_
  simp only [Function.comp_apply]
  split <;> rfl

/-- The statement of the backfill, for a plaintext row of the table it has read. -/
theorem Migrated.update (h : Migrated gcm key w w') (hkey : key.length = 32)
    {row : EnvironmentVariable} (hrow : row ∈ w.vars)
    (hplain : isEncryptedProjectSecretValue row.value = false) (nonce : Nonce) :
    Migrated gcm key w
      (w'.environmentVariableUpdateValue row.id (envelope gcm key nonce row.value)).2 := by
  constructor
  · rw [updateValue_ids, h.ids]
  · intro new hnew
    obtain ⟨ev, hev, rfl⟩ := mem_updateValue.mp hnew
    obtain ⟨old, hold, hpres⟩ := h.preserved ev hev
    split
    · next hid =>
      obtain rfl : old = row := Table.eq_of_key_eq hold hrow (hpres.id_eq.symm.trans hid)
      refine ⟨old, hold, hpres.same, ?_, .inr ⟨hplain, nonce, rfl⟩⟩
      rw [decrypt_envelope gcm hkey, decrypt_plain gcm hplain]
    · exact ⟨old, hold, hpres⟩

end preserved

/-- All variables with the identifier are in envelopes. -/
def EncryptedAt (w : SecretWorld) (id : Id) : Prop :=
  ∀ ev ∈ w.vars, ev.id = id → isEncryptedProjectSecretValue ev.value = true

section run
variable {gcm : Gcm} {key : Bytes} {w₀ : SecretWorld}

theorem EncryptedAt.update {id : Id} (h : EncryptedAt w id) (id' : Id)
    (nonce : Nonce) (plain : String) :
    EncryptedAt (w.environmentVariableUpdateValue id' (envelope gcm key nonce plain)).2 id := by
  intro ev hev hid
  obtain ⟨ev₀, hev₀, rfl⟩ := mem_updateValue.mp hev
  by_cases hid' : ev₀.id = id'
  · rw [if_pos hid']
    exact isEncrypted_envelope gcm nonce plain
  · rw [if_neg hid'] at hid ⊢
    exact h ev₀ hev₀ hid

theorem encryptedAt_updated (w : SecretWorld) (id : Id) (nonce : Nonce) (plain : String) :
    EncryptedAt (w.environmentVariableUpdateValue id (envelope gcm key nonce plain)).2 id := by
  intro ev hev hid
  obtain ⟨ev₀, hev₀, rfl⟩ := mem_updateValue.mp hev
  by_cases hid' : ev₀.id = id
  · rw [if_pos hid']
    exact isEncrypted_envelope gcm nonce plain
  · rw [if_neg hid'] at hid
    exact absurd hid hid'

theorem backfillRows_keeps (hrows : ∀ row ∈ rows, row ∈ w₀.vars) (updated : Nat)
    (hw : Migrated gcm key w₀ w) :
    KeepsFrom Prog.unguarded (Migrated gcm key w₀) (backfillRows gcm key rows updated)
      (fun _ w' => (∀ id, EncryptedAt w id → EncryptedAt w' id) ∧ ∀ row ∈ rows, EncryptedAt w' row.id)
      w := by
  induction rows generalizing updated w with
  | nil => exact .pure hw ⟨fun _ => id, fun _ hrow => by cases hrow⟩
  | cons row rows ih =>
    have hrow := hrows row List.mem_cons_self
    have hrest := fun r hr => hrows r (List.mem_cons_of_mem row hr)
    unfold backfillRows
    split
    · next henc =>
      split
      · exact .throw hw
      · -- the row was in an envelope, and still is
        have hat : EncryptedAt w row.id := by
          intro ev hev hid
          obtain ⟨old, hold, hpres⟩ := hw.preserved ev hev
          obtain rfl : old = row := Table.eq_of_key_eq hold hrow (hpres.id_eq.symm.trans hid)
          exact hpres.encrypted henc
        refine .mono (ih hrest updated hw) fun r w' ⟨hw', hpost⟩ => ⟨hw', fun a ha => ?_⟩
        obtain ⟨hkept, hdone⟩ := hpost a ha
        exact ⟨hkept, List.forall_mem_cons.mpr ⟨hkept _ hat, hdone⟩⟩
    · next henc =>
      have hplain : isEncryptedProjectSecretValue row.value = false := by simpa using henc
      have hencrypt : KeepsFrom Prog.unguarded (Migrated gcm key w₀)
          (encryptProjectSecretValue gcm key row.value) (fun enc w' => w' = w ∧ key.length = 32 ∧
            ∃ nonce, enc = envelope gcm key nonce row.value) w := by
        unfold encryptProjectSecretValue
        split
        · exact .throw hw
        · next hkey =>
          refine .bind (Q := fun _ w' => w' = w) (.ofCall fun as _ => ?_) fun nonce w' _ hw' => ?_
          · have hsame : (Effect.exec SecretOp.randNonce as w).state = w := by
              change (unlessFails _ _ w).2 = w
              unfold unlessFails
              split <;> rfl
            rw [hsame]
            exact ⟨hw, fun _ _ => rfl⟩
          · subst hw'
            exact .pure hw ⟨rfl, not_not.mp hkey, nonce, rfl⟩
      refine .bind hencrypt.mapError fun enc w₁ hw₁ ⟨hsame, hkey, nonce, henv⟩ => ?_
      subst hsame henv
      have hupdate : KeepsFrom Prog.unguarded (Migrated gcm key w₀)
          (ofCall (.environmentVariableUpdateValue row.id (envelope gcm key nonce row.value)) :
            Go SecretOp _)
          (fun _ w' => (∀ id, EncryptedAt w₁ id → EncryptedAt w' id) ∧ EncryptedAt w' row.id) w₁ := by
        refine .ofCall fun as _ => ?_
        change Migrated gcm key w₀ (unlessFails _ _ w₁).2 ∧ ∀ a, (unlessFails _ _ w₁).1 = .ok a →
            (∀ id, EncryptedAt w₁ id → EncryptedAt (unlessFails _ _ w₁).2 id) ∧
              EncryptedAt (unlessFails _ _ w₁).2 row.id
        unfold unlessFails
        split
        · exact ⟨hw₁, fun _ h => by cases h⟩
        · exact ⟨hw₁.update hkey hrow hplain nonce, fun _ _ =>
            ⟨fun id h => h.update row.id nonce row.value, encryptedAt_updated w₁ row.id nonce row.value⟩⟩
      refine .bind hupdate.mapError fun _ w₂ hw₂ ⟨hkept, hat⟩ => ?_
      refine .mono (ih hrest (updated + 1) hw₂) fun r w' ⟨hw', hpost⟩ => ⟨hw', fun a ha => ?_⟩
      obtain ⟨hkept', hdone⟩ := hpost a ha
      exact ⟨fun id h => hkept' id (hkept id h), List.forall_mem_cons.mpr ⟨hkept' _ hat, hdone⟩⟩

theorem backfill_keeps :
    KeepsFrom Prog.unguarded (Migrated gcm key w) (backfillProjectSecrets gcm key)
      (fun _ w' => ∀ ev ∈ w'.vars, isEncryptedProjectSecretValue ev.value = true) w := by
  have hfind : KeepsFrom Prog.unguarded (Migrated gcm key w)
      (ofCall .environmentVariableFindAll : Go SecretOp _)
      (fun rows w' => w' = w ∧ rows = w.environmentVariableFindAll) w := by
    refine .ofCall fun as _ => ?_
    change Migrated gcm key w (unlessFails _ _ w).2 ∧
      ∀ a, (unlessFails _ _ w).1 = .ok a → (unlessFails _ _ w).2 = w ∧ _
    unfold unlessFails
    split
    · exact ⟨.refl w, fun _ h => by cases h⟩
    · exact ⟨.refl w, fun _ h => by cases h; exact ⟨rfl, rfl⟩⟩
  refine .bind hfind.mapError fun rows w' hw' ⟨hsame, hrows⟩ => ?_
  subst hsame hrows
  have hmem : ∀ row, row ∈ w'.environmentVariableFindAll ↔ row ∈ w'.vars :=
    fun row => List.mem_insertionSort _
  refine .mono (backfillRows_keeps (fun row hrow => (hmem row).mp hrow) 0 hw')
    fun r w'' ⟨hw'', hpost⟩ => ⟨hw'', fun a ha ev hev => ?_⟩
  -- every row of the final table comes from a row that has been read
  obtain ⟨old, hold, hpres⟩ := hw''.preserved ev hev
  exact (hpost a ha).2 old ((hmem old).mpr hold) ev hev hpres.id_eq

end run

/-- Backfills one after the other, each with any answers: they end, with or without an error, or they
are stopped after any call. -/
inductive Backfills (gcm : Gcm) (key : Bytes) (w : SecretWorld) : SecretWorld → Prop
  | none : Backfills gcm key w w
  | run {w' : SecretWorld} (h : Backfills gcm key w w') (as : List SecretAnswer) :
    Backfills gcm key w ((backfillProjectSecrets gcm key).outcome as w').state
  | stopped {w' w'' : SecretWorld} (h : Backfills gcm key w w') (as : List SecretAnswer)
    (hvisit : w'' ∈ Prog.visits (backfillProjectSecrets gcm key) as w') : Backfills gcm key w w''

theorem Backfills.migrated {key : Bytes} (h : Backfills gcm key w w') : Migrated gcm key w w' := by
  induction h with
  | none => exact .refl w
  | run _ as ih => exact ih.trans ((backfill_keeps.run (Prog.meets_unguarded _ as _)).1.1)
  | stopped _ as hvisit ih =>
    exact ih.trans ((backfill_keeps.run (Prog.meets_unguarded _ as _)).2 _ hvisit)

section completes
variable {gcm : Gcm} {key : Bytes} (hkey : key.length = 32)
include hkey

def Unfailing : Prog.Guard SecretOp SecretAnswer SecretWorld :=
  fun _ _ as _ => (as.headD default).fail = false

theorem encrypt_completes (plain : String) (w : SecretWorld) :
    Ensures Unfailing (encryptProjectSecretValue gcm key plain)
      (Yields (fun _ w' => w' = w) fun _ => False) w := by
  unfold encryptProjectSecretValue
  rw [if_neg (not_not.mpr hkey)]
  have hnonce : Ensures Unfailing (ofCall .randNonce : Go SecretOp _)
      (Yields (fun _ w' => w' = w) fun _ => False) w := by
    refine .ofCall fun as hfail => ?_
    change Yields _ _ (unlessFails _ _ w).1 (unlessFails _ _ w).2
    unfold unlessFails
    rw [if_neg (Bool.eq_false_iff.mp hfail)]
    rfl
  exact hnonce.bind_yields (fun _ _ hw => .pure hw) fun _ _ h => h.elim

theorem backfillRows_completes
    (hdecrypts : ∀ row ∈ rows, ∃ plain, decryptProjectSecretValue gcm key row.value = .ok plain)
    (hids : ∀ row ∈ rows, row.id ∈ w.vars.rows.map (·.id)) (updated : Nat) :
    Ensures Unfailing (backfillRows gcm key rows updated)
      (Yields (fun _ _ => True) fun _ => False) w := by
  induction rows generalizing updated w with
  | nil => exact .pure trivial
  | cons row rows ih =>
    have hdecrypts' := fun r hr => hdecrypts r (List.mem_cons_of_mem row hr)
    have hids' := fun r hr => hids r (List.mem_cons_of_mem row hr)
    unfold backfillRows
    split
    · obtain ⟨plain, hplain⟩ := hdecrypts row List.mem_cons_self
      rw [hplain]
      exact ih hdecrypts' hids' updated
    · refine (encrypt_completes hkey _ w).mapError_yields.bind_yields (fun enc w' hw' => ?_)
        fun _ _ h => h.elim
      subst hw'
      have hupdate : Ensures Unfailing
          (ofCall (.environmentVariableUpdateValue row.id enc) : Go SecretOp _)
          (Yields (fun _ w'' => w'' = (w'.environmentVariableUpdateValue row.id enc).2)
            fun _ => False) w' := by
        refine .ofCall fun as hfail => ?_
        change Yields _ _ (unlessFails _ _ w').1 (unlessFails _ _ w').2
        unfold unlessFails
        rw [if_neg (Bool.eq_false_iff.mp hfail)]
        -- the row is still there
        obtain ⟨ev, hev, hid⟩ := List.mem_map.mp (hids row List.mem_cons_self)
        have hfind : w'.vars.find? row.id = some ev := Table.find?_eq_some.mpr ⟨hev, hid⟩
        simp only [SecretWorld.environmentVariableUpdateValue, Table.updateKey_fst, hfind]
        rfl
      refine hupdate.mapError_yields.bind_yields (fun _ w'' hw'' => ?_) fun _ _ h => h.elim
      subst hw''
      refine ih hdecrypts' (fun r hr => ?_) (updated + 1)
      rw [updateValue_ids]
      exact hids' r hr

theorem backfill_completes (hdecrypts : ∀ row ∈ w.vars,
      ∃ plain, decryptProjectSecretValue gcm key row.value = .ok plain)
    (has : ∀ a ∈ as, a.fail = false) :
    ∃ n, ((backfillProjectSecrets gcm key).outcome as w).value = .ok n := by
  have hfind : Ensures Unfailing (ofCall .environmentVariableFindAll : Go SecretOp _)
      (Yields (fun rows w' => w' = w ∧ rows = w.environmentVariableFindAll) fun _ => False) w := by
    refine .ofCall fun as hfail => ?_
    change Yields _ _ (unlessFails _ _ w).1 (unlessFails _ _ w).2
    unfold unlessFails
    rw [if_neg (Bool.eq_false_iff.mp hfail)]
    exact ⟨rfl, rfl⟩
  have hrun : Ensures Unfailing (backfillProjectSecrets gcm key)
      (Yields (fun _ _ => True) fun _ => False) w := by
    refine hfind.mapError_yields.bind_yields (fun rows w' hw' => ?_) fun _ _ h => h.elim
    obtain ⟨rfl, rfl⟩ := hw'
    have hmem : ∀ row ∈ w'.environmentVariableFindAll, row ∈ w'.vars :=
      fun row hrow => (List.mem_insertionSort _).mp hrow
    exact backfillRows_completes hkey (fun row hrow => hdecrypts row (hmem row hrow))
      (fun row hrow => List.mem_map_of_mem (hmem row hrow)) 0
  have hmeets : Meets Unfailing (backfillProjectSecrets gcm key) as w :=
    Prog.meets_answers (P := fun a : SecretAnswer => a.fail = false) rfl _ has w
  have houtcome := hrun.outcome hmeets
  cases hvalue : ((backfillProjectSecrets gcm key).outcome as w).value with
  | ok n => exact ⟨n, rfl⟩
  | error e =>
    rw [hvalue] at houtcome
    exact houtcome.elim

end completes

/-- **The backfill keeps values.** However often the backfill has run on a table and wherever it was
stopped, the rows are those of the table, each decrypts to what it did, an envelope was left as it was,
and only plaintext has been put into an envelope. A backfill that then runs to its end leaves every row
in an envelope; and it does run to its end if the key has the right size, the envelopes of the table
can be opened and no call fails. -/
theorem backfill_preserves (gcm : Gcm) (key : Bytes) {w w' : SecretWorld}
    (h : Backfills gcm key w w') : Migrated gcm key w w' ∧
      (∀ as n, ((backfillProjectSecrets gcm key).outcome as w').value = .ok n →
        ∀ ev ∈ ((backfillProjectSecrets gcm key).outcome as w').state.vars,
          isEncryptedProjectSecretValue ev.value = true) ∧
      (key.length = 32 →
        (∀ ev ∈ w.vars, ∃ plain, decryptProjectSecretValue gcm key ev.value = .ok plain) →
        ∀ as : List SecretAnswer, (∀ a ∈ as, a.fail = false) →
          ∃ n, ((backfillProjectSecrets gcm key).outcome as w').value = .ok n) := by
  refine ⟨h.migrated, fun as n hn ev hev => ?_, fun hkey hopens as has => ?_⟩
  · exact (backfill_keeps.run (Prog.meets_unguarded _ as _)).1.2 n hn ev hev
  · refine backfill_completes hkey (fun ev hev => ?_) has
    obtain ⟨old, hold, hpres⟩ := h.migrated.preserved ev hev
    rw [hpres.decrypts]
    exact hopens old hold

/-! ## Requests in between -/

/-- A backfill puts values that it has read into envelopes, a request the value it has been given. -/
@[simps] def secretSight (gcm : Gcm) (key : Bytes) : Typestate SecretOp (List EnvironmentVariable) where
  start := []
  allows
    | m, .environmentVariableUpdateValue id value => ∃ row ∈ m, row.id = id ∧ key.length = 32 ∧
        ∃ nonce, value = envelope gcm key nonce row.value
    | _, .environmentVariableUpsert row plain => key.length = 32 ∧
        ∃ nonce, row.value = envelope gcm key nonce plain
    | _, _ => True
  possible _ _ _ := True
  next
    | m, .environmentVariableFindAll, .ok rows => rows ++ m
    | m, _, _ => m

section sight
variable {gcm : Gcm} {key : Bytes} {m : List EnvironmentVariable}

attribute [local simp] Yields context Except.mapError

theorem encrypt_follows (plain : String) :
    (secretSight gcm key).Follows (encryptProjectSecretValue gcm key plain)
      (Yields (fun enc m' => m' = m ∧ key.length = 32 ∧ ∃ nonce, enc = envelope gcm key nonce plain)
        fun m' => m' = m) m := by
  unfold encryptProjectSecretValue
  split <;> simp_all
  exact fun nonce h => ⟨nonce, h, rfl⟩

theorem backfillRows_follows (hrows : ∀ row ∈ rows, row ∈ m) (updated : Nat) :
    (secretSight gcm key).Follows (backfillRows gcm key rows updated) (fun _ _ => True) m := by
  induction rows generalizing updated with
  | nil => exact .pure trivial
  | cons row rows ih =>
    have hrest := ih fun r hr => hrows r (List.mem_cons_of_mem row hr)
    unfold backfillRows
    split
    · split
      · exact .throw trivial
      · exact hrest updated
    · refine (encrypt_follows _).mapError_yields.yields_andThen (fun enc m' hm' => ?_)
      obtain ⟨rfl, hkey, henc⟩ := hm'
      have hread : ∃ r ∈ m', r.id = row.id ∧ ∃ nonce, enc = envelope gcm key nonce r.value :=
        ⟨row, hrows row List.mem_cons_self, rfl, henc⟩
      simpa [hrest, hkey] using hread

theorem backfill_follows :
    (secretSight gcm key).Follows (backfillProjectSecrets gcm key) (fun _ _ => True) m := by
  have hrows rows : (secretSight gcm key).Follows (backfillRows gcm key rows 0) (fun _ _ => True)
      (rows ++ m) := backfillRows_follows (fun _ hrow => List.mem_append_left m hrow) 0
  simp_all [backfillProjectSecrets]

theorem upsertSecret_follows {kind : String} :
    (secretSight gcm key).Follows (upsertSecret gcm (some key) kind req) (fun _ _ => True) m := by
  unfold upsertSecret
  dsimp only
  split
  · exact .throw trivial
  · cases req.value with
    | none => exact .throw trivial
    | some value =>
      refine (encrypt_follows value).wrap_yields.yields_andThen (fun enc m' hm' => ?_)
      obtain ⟨-, hkey, hnonce⟩ := hm'
      simp [hkey, hnonce]

theorem deleteSecret_follows {kind : String} :
    (secretSight gcm key).Follows (deleteSecret kind notFound which) (fun _ _ => True) m := by
  simp [deleteSecret]

theorem secretStarts_follows (hp : secretStarts gcm key i p) :
    (secretSight gcm key).Admits p (fun _ _ => True) [] := by
  cases i with
  | backfill n =>
    cases hp
    exact backfill_follows.quietly
  | request n =>
    rcases hp with ⟨req, rfl⟩ | ⟨serviceId, req, rfl⟩ | ⟨id, projectId, rfl⟩ | ⟨id, serviceId, rfl⟩ |
      ⟨which, rfl⟩
    · exact upsertSecret_follows.quietly
    · exact upsertSecret_follows.quietly
    · exact deleteSecret_follows.quietly
    · exact deleteSecret_follows.quietly
    · exact Typestate.Follows.quietly (.call trivial)

end sight

/-- A variable decrypts to the value that a user has written last. -/
def UpToDate (gcm : Gcm) (key : Bytes) (w : SecretWorld) : Prop :=
  ∀ ev ∈ w.vars, ∀ value, w.written ev.id = some value →
    decryptProjectSecretValue gcm key ev.value = .ok value

/-- When a backfill writes the envelope of a row, the variable still has the value it has read. -/
def StillRead (gcm : Gcm) (key : Bytes) (_ : SecretActor) (log : List (Call SecretOp)) :
    Prog.Guard SecretOp SecretAnswer SecretWorld
  | _, .environmentVariableUpdateValue id _, _, w =>
    ∀ row ∈ (secretSight gcm key).after log, row.id = id → ∀ ev ∈ w.vars.find? id,
      decryptProjectSecretValue gcm key ev.value = .ok row.value
  | _, _, _, _ => True

section upToDate
variable {gcm : Gcm} {key : Bytes} {w : SecretWorld}

theorem UpToDate.unlessFails (hw : UpToDate gcm key w) (hr : UpToDate gcm key r.2)
    (a : SecretAnswer) :
    UpToDate gcm key (Kindling.unlessFails a r w).2 := by
  unfold Kindling.unlessFails
  split
  · exact hw
  · exact hr

theorem UpToDate.updateValue (hw : UpToDate gcm key w) (hkey : key.length = 32) {id : Id}
    (hread : ∀ ev ∈ w.vars.find? id,
      decryptProjectSecretValue gcm key ev.value = .ok plain) (nonce : Nonce) :
    UpToDate gcm key (w.environmentVariableUpdateValue id (envelope gcm key nonce plain)).2 := by
  intro ev hev value hvalue
  obtain ⟨ev₀, hev₀, rfl⟩ := mem_updateValue.mp hev
  by_cases hid : ev₀.id = id
  · rw [if_pos hid] at hvalue ⊢
    have hsame := hread ev₀ (Table.find?_eq_some.mpr ⟨hev₀, hid⟩)
    rw [hw ev₀ hev₀ value hvalue] at hsame
    cases hsame
    exact decrypt_envelope gcm hkey nonce _
  · rw [if_neg hid] at hvalue ⊢
    exact hw ev₀ hev₀ value hvalue

theorem UpToDate.upsert (hw : UpToDate gcm key w) (hkey : key.length = 32)
    {row : EnvironmentVariable} (hrow : row.value = envelope gcm key nonce plain) :
    UpToDate gcm key (w.environmentVariableUpsert row plain).2 := by
  have hnew : decryptProjectSecretValue gcm key row.value = .ok plain := by
    rw [hrow, decrypt_envelope gcm hkey]
  unfold SecretWorld.environmentVariableUpsert
  split
  · -- the variable is there
    intro ev hev value hvalue
    obtain ⟨ev₀, hev₀, rfl⟩ := (@Table.mem_updateWhere _ _ _ _ _ _ _ (fun _ => by rfl)).mp hev
    have hfind := Table.find?_of_mem hev₀
    by_cases hsame : SecretWorld.sameVariable row ev₀ = true
    · rw [if_pos hsame] at hvalue ⊢
      simp only [hfind, Option.any_some, hsame, if_true, Option.some.injEq] at hvalue
      subst hvalue
      exact hnew
    · rw [if_neg hsame] at hvalue ⊢
      simp only [hfind, Option.any_some, hsame] at hvalue
      exact hw ev₀ hev₀ value hvalue
  · split
    · -- a new row
      next vars hinsert =>
      intro ev hev value hvalue
      change Function.update w.written row.id (some plain) ev.id = some value at hvalue
      rcases (Table.mem_insert? hinsert).mp hev with hold | rfl
      · have hid : ev.id ≠ row.id := Table.find?_eq_none.mp (Table.insert?_fresh hinsert) ev hold
        rw [Function.update_of_ne hid] at hvalue
        exact hw ev hold value hvalue
      · rw [Function.update_self] at hvalue
        cases hvalue
        exact hnew
    · exact hw

end upToDate

theorem secrets_kept :
    Team.Keeps (secretStarts gcm key) (fun _ => id) (StillRead gcm key) (fun _ => secretSight gcm key)
      (fun _ _ => True) fun _ w => UpToDate gcm key w where
  starts i p hp := secretStarts_follows hp
  rest _ := trivial
  call M i log w β op as hM hallows hguard hw := by
    refine ⟨trivial, ?_⟩
    rw [hM] at hallows
    cases op with
    | environmentVariableUpdateValue id value =>
      obtain ⟨row, hrow, hid, hkey, nonce, rfl⟩ := hallows
      exact hw.unlessFails (hw.updateValue hkey (hguard row hrow hid) nonce) _
    | environmentVariableUpsert row plain =>
      obtain ⟨hkey, nonce, henv⟩ := hallows
      exact hw.unlessFails (hw.upsert hkey henv) _
    | environmentVariableDelete which =>
      exact hw.unlessFails (fun ev hev => hw ev (Table.mem_keep.mp hev).1) _
    | randNonce => exact hw.unlessFails hw _
    | environmentVariableFindAll => exact hw.unlessFails hw _
  start _ _ _ _ hw := hw
  crash _ _ _ hw := hw

/-- **No update is lost.** Let backfills of any servers and requests interleave. In every run in which
a variable still has the value that a backfill has read when the backfill writes its envelope, every
variable that a user has written decrypts to the value written last. -/
theorem last_update_kept (gcm : Gcm) (key : Bytes) (w : SecretWorld) (c : SecretTeam)
    (hw : ∀ id, w.written id = none)
    (hc : Team.Run (secretStarts gcm key) (fun _ => id) (StillRead gcm key) (Team.idle () w) c) :
    ∀ ev ∈ c.state.vars, ∀ value, c.state.written ev.id = some value →
      decryptProjectSecretValue gcm key ev.value = .ok value := by
  refine (secrets_kept.run (secrets_kept.follow_idle () w) ?_ hc).2
  intro ev hev value hvalue
  change w.written ev.id = some value at hvalue
  rw [hw] at hvalue
  cases hvalue

/-! ## Samples -/

/-- Three bytes for each character. -/
def charBytes (c : Char) : Bytes :=
  [.ofNat (c.toNat / 65536), .ofNat (c.toNat / 256), .ofNat c.toNat]

def bytesChars : Bytes → Option (List Char)
  | [] => some []
  | a :: b :: c :: rest =>
    (bytesChars rest).map (Char.ofNat (a.toNat * 65536 + b.toNat * 256 + c.toNat) :: ·)
  | _ => none

theorem bytesChars_flatMap : bytesChars (cs.flatMap charBytes) = some cs := by
  induction cs with
  | nil => rfl
  | cons c cs ih =>
    have hvalid : c.toNat < 0x110000 := by
      have hc := c.valid
      change c.val.toNat < 0x110000
      omega
    have hsum : c.toNat / 65536 % 256 * 65536 + c.toNat / 256 % 256 * 256 + c.toNat % 256 = c.toNat := by
      omega
    simp [charBytes, bytesChars, ih, hsum]

/-- A cipher that hides nothing. -/
def sampleGcm : Gcm where
  gcmSeal _ _ plaintext := plaintext.toList.flatMap charBytes
  gcmOpen _ _ ciphertext := (bytesChars ciphertext).map String.ofList
  gcmOpen_gcmSeal _ _ plaintext := by
    rw [bytesChars_flatMap, Option.map_some, String.ofList_toList]

def sampleKey : Bytes := List.replicate 32 7

/-- A plaintext variable. -/
def secretSampleWorld : SecretWorld where
  vars := .single { id := 1, projectId := 3, name := "TOKEN", value := "old" }

/-- A backfill that is stopped by an error when it writes, and another one. -/
theorem stopped_backfill_resumes : ∃ w, Backfills sampleGcm sampleKey secretSampleWorld w ∧
    Migrated sampleGcm sampleKey secretSampleWorld w ∧
    ∃ n, ((backfillProjectSecrets sampleGcm sampleKey).outcome [] w).value = .ok n := by
  have hstopped : Backfills sampleGcm sampleKey secretSampleWorld _ :=
    .run .none [{}, {}, { fail := true }]
  obtain ⟨hmigrated, -, hcompletes⟩ := backfill_preserves sampleGcm sampleKey hstopped
  refine ⟨_, hstopped, hmigrated, hcompletes (by decide) (fun ev hev => ?_) [] (by decide)⟩
  obtain rfl := List.mem_singleton.mp hev
  exact ⟨"old", by rfl⟩

def sampleRequest : SecretRequest where
  projectId := 3
  name := "TOKEN"
  value := some "new"
  newId := 2

def secretSampleTeam : SecretTeam := ((Team.idle () secretSampleWorld).begin (.backfill 0)
    (quietly (backfillProjectSecrets sampleGcm sampleKey))).begin (.request 0)
    (quietly (upsertProjectSecret sampleGcm (some sampleKey) sampleRequest))

theorem secretSampleTeam_run :
    Team.Run (secretStarts sampleGcm sampleKey) (fun _ => id) G (.idle () secretSampleWorld)
      secretSampleTeam := by
  have hbackfill : Team.Run (secretStarts sampleGcm sampleKey) (fun _ => id) G
      (.idle () secretSampleWorld) ((Team.idle () secretSampleWorld).begin (.backfill 0)
        (quietly (backfillProjectSecrets sampleGcm sampleKey))) :=
    .begin (SecretActor.backfill 0) _ rfl rfl
  have hrequest : secretStarts sampleGcm sampleKey (.request 0)
      (quietly (upsertProjectSecret sampleGcm (some sampleKey) sampleRequest)) :=
    .inl ⟨sampleRequest, rfl⟩
  exact hbackfill.trans (Team.Run.begin (SecretActor.request 0) _ rfl hrequest)

/-- The request writes the variable after the backfill has read it. -/
def updatedAfterRead : SecretTeam :=
  secretSampleTeam.turns [(.backfill 0, []), (.request 0, []), (.request 0, []), (.backfill 0, []),
    (.backfill 0, [])]

theorem backfill_restores_old_value : ∃ c : SecretTeam,
    Team.Run (secretStarts sampleGcm sampleKey) (fun _ => id) (fun _ _ => Prog.unguarded)
      (Team.idle () secretSampleWorld) c ∧
    c.resting (.backfill 0) = true ∧ c.resting (.request 0) = true ∧
    c.state.written 1 = some "new" ∧
    c.state.vars.rows.map (fun ev =>
      (ev.id, decryptProjectSecretValue sampleGcm sampleKey ev.value)) = [(1, .ok "old")] := by
  refine ⟨updatedAfterRead, secretSampleTeam_run.trans
    (Team.Run.turns (Team.turnsMeet_unguarded _ _)), ?_, ?_, ?_, ?_⟩ <;> decide +kernel

instance : Decidable (StillRead gcm key i log β op as w) := by
  unfold StillRead
  split <;> infer_instance

/-- The request comes after the backfill. -/
theorem later_update_kept : (∀ id, secretSampleWorld.written id = none) ∧
    ∀ ev ∈ (secretSampleTeam.turns [(.backfill 0, []), (.backfill 0, []),
      (.backfill 0, []), (.request 0, []), (.request 0, [])]).state.vars,
    decryptProjectSecretValue sampleGcm sampleKey ev.value = .ok "new" := by
  refine ⟨fun _ => rfl, fun ev hev => ?_⟩
  refine last_update_kept sampleGcm sampleKey secretSampleWorld _ (fun _ => rfl)
    (secretSampleTeam_run.trans (Team.Run.turns ?_)) ev hev "new" ?_
  · decide +kernel
  · revert ev
    decide +kernel

end Kindling
