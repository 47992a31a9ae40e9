import LunaZTrust.Control.Confirm

/-!
# Operations and the registries of devices

Four of the operations of the control socket change the registries of devices and of
workstations.  Here is what each of them leaves in the two (`mobileAfter`, `cliAfter`); all
others leave them alone (`handled_handle`).
-/

namespace LunaZTrust.Control

open LunaZTrust.Go LunaZTrust.Cli LunaZTrust.Keystore

variable {Key Signer PublicKey PrivateKey : Type} (pf : Platform Key Signer PublicKey PrivateKey)

/-- What `handleCLIEnroll` of the control server issues: the label, the certificate and its
fingerprint. -/
def controlIssue (csrSigner : Option (CSRSigner PrivateKey)) (req : Request)
    (draw : Draw) : Option (GoString × Certificate × GoString) := do
  let csrSigner ← csrSigner
  let inp ← pf.lib.unmarshalCliEnroll req.data
  if inp.label = [] ∨ inp.csrPEM = [] then none
  else
    match validateLabel inp.label, csrSigner.sign pf.x509 pf.crypto inp.csrPEM draw with
    | .ok (), .ok (cert, _, fp) => some (inp.label, cert, fp)
    | _, _ => none

/-- The registry of devices after an operation. -/
def mobileAfter (mobile : Mobile.Store) (req : Request) (env : Env) :
    Mobile.Store :=
  match req.op? with
  | some .mobileEnroll =>
      match pf.lib.unmarshalMobileEnroll req.data with
      | none => mobile
      | some inp =>
          if inp.certFingerprint = [] then mobile
          else (mobile.enrollBound inp.label inp.devicePubKey inp.certFingerprint env.id env.now).2
  | some .mobileDelete =>
      match pf.lib.unmarshalMobileDelete req.data with
      | none => mobile
      | some id => (mobile.delete id).2
  | _ => mobile

/-- The registry of workstations after an operation. -/
def cliAfter (csrSigner : Option (CSRSigner PrivateKey)) (cli : Cli.Store) (req : Request)
    (env : Env) : Cli.Store :=
  match req.op? with
  | some .cliEnroll =>
      match controlIssue pf csrSigner req env.draw with
      | none => cli
      | some (label, _, fp) => (cli.enroll label fp env.id env.now).2
  | some .cliDelete =>
      match pf.lib.unmarshalCliDelete req.data with
      | none => cli
      | some id => (cli.delete id).2
  | _ => cli

/-- What an operation does to the registries, and to the limiter. -/
structure Handled (d : ServerDeps Signer PrivateKey) (req : Request)
    (env : Env) (d' : ServerDeps Signer PrivateKey) : Prop where
  mobile : d'.mobile = mobileAfter pf d.mobile req env
  cli : d'.cli = cliAfter pf d.csrSigner d.cli req env
  limiter : d'.loadLimiter = d.loadLimiter ∨ ∃ id dev, AList.lookup id d.cli = some dev ∧
    d'.loadLimiter = d.loadLimiter.map (·.forget id)

/-- The registries and the limiter are the same. -/
def SameDevices (d d' : ServerDeps Signer PrivateKey) : Prop :=
  d'.mobile = d.mobile ∧ d'.cli = d.cli ∧ d'.loadLimiter = d.loadLimiter

variable {pf} {d d' : ServerDeps Signer PrivateKey} {req : Request}
  {env : Env}

/-- An operation that goes to neither registry. -/
theorem SameDevices.handled (h : SameDevices d d')
    (hop : req.op? ≠ some .mobileEnroll ∧ req.op? ≠ some .mobileDelete ∧
      req.op? ≠ some .cliEnroll ∧ req.op? ≠ some .cliDelete) : Handled pf d req env d' := by
  obtain ⟨h₁, h₂, h₃, h₄⟩ := hop
  refine ⟨?_, ?_, .inl h.2.2⟩
  · rw [mobileAfter, h.1]
    split
    · next h => exact absurd h h₁
    · next h => exact absurd h h₂
    · rfl
  · rw [cliAfter, h.2.1]
    split
    · next h => exact absurd h h₃
    · next h => exact absurd h h₄
    · rfl

theorem sameDevices_keyLoad (pf : Platform Key Signer PublicKey PrivateKey)
    (d : ServerDeps Signer PrivateKey) (req : Request) (env : Env) :
    SameDevices d (d.handleKeyLoad pf req env).2 := by
  rw [ServerDeps.handleKeyLoad]
  split
  · exact ⟨rfl, rfl, rfl⟩
  · split
    · exact ⟨rfl, rfl, rfl⟩
    · split
      · exact ⟨rfl, rfl, rfl⟩
      · split <;> exact ⟨rfl, rfl, rfl⟩

theorem sameDevices_keyRemove (pf : Platform Key Signer PublicKey PrivateKey)
    (d : ServerDeps Signer PrivateKey) (req : Request) :
    SameDevices d (d.handleKeyRemove pf req).2 := by
  rw [ServerDeps.handleKeyRemove]
  split
  · exact ⟨rfl, rfl, rfl⟩
  · split <;> exact ⟨rfl, rfl, rfl⟩

theorem sameDevices_keyReject (pf : Platform Key Signer PublicKey PrivateKey)
    (d : ServerDeps Signer PrivateKey) (req : Request) :
    SameDevices d (d.handleKeyReject pf req).2 := by
  rw [ServerDeps.handleKeyReject]
  split
  · exact ⟨rfl, rfl, rfl⟩
  · split <;> exact ⟨rfl, rfl, rfl⟩

theorem sameDevices_confirmGet (pf : Platform Key Signer PublicKey PrivateKey)
    (d : ServerDeps Signer PrivateKey) (req : Request) (now : Time) :
    SameDevices d (d.confirmGet pf req now).2 := by
  rw [ServerDeps.confirmGet]
  split
  · exact ⟨rfl, rfl, rfl⟩
  · split
    · exact ⟨rfl, rfl, rfl⟩
    · split <;> exact ⟨rfl, rfl, rfl⟩

theorem sameDevices_confirmLoad (pf : Platform Key Signer PublicKey PrivateKey)
    (d : ServerDeps Signer PrivateKey) (c : ServerDeps.Confirmation)
    (mlock : Keystore.Mlock) (now failedAt : Time) :
    SameDevices d (d.confirmLoad pf c mlock now failedAt).2 := by
  have h := confirmLoad_ends pf d c mlock now failedAt
  generalize d.confirmLoad pf c mlock now failedAt = res at h ⊢
  cases h <;> exact ⟨rfl, rfl, rfl⟩

theorem sameDevices_keyConfirm (pf : Platform Key Signer PublicKey PrivateKey)
    (d : ServerDeps Signer PrivateKey) (req : Request) (env : Env) :
    SameDevices d (d.handleKeyConfirm pf req env).2 := by
  rw [ServerDeps.handleKeyConfirm]
  have hget := sameDevices_confirmGet pf d req env.now
  split
  · next heq => rwa [heq] at hget
  · next c d₁ heq =>
      rw [heq] at hget
      obtain ⟨hmobile, hcli, hlimiter⟩ := hget
      have hload := sameDevices_confirmLoad pf d₁ c env.mlock env.loadAt env.failedAt
      split <;> next heq =>
        rw [heq] at hload
        exact ⟨hload.1.trans hmobile, hload.2.1.trans hcli, hload.2.2.trans hlimiter⟩

theorem handled_mobileEnroll (hop : req.op? = some .mobileEnroll) :
    Handled pf d req env (d.handleMobileEnroll pf req env).2 := by
  rw [ServerDeps.handleMobileEnroll]
  have hcli : d.cli = cliAfter pf d.csrSigner d.cli req env := by rw [cliAfter, hop]
  cases hinp : pf.lib.unmarshalMobileEnroll req.data with
  | none => exact ⟨by simp only [mobileAfter, hop, hinp], hcli, .inl rfl⟩
  | some inp =>
      dsimp only
      by_cases hfp : inp.certFingerprint = []
      · rw [if_pos hfp]
        exact ⟨by simp only [mobileAfter, hop, hinp, if_pos hfp], hcli, .inl rfl⟩
      · rw [if_neg hfp]
        split <;> next hres =>
          exact ⟨by simp only [mobileAfter, hop, hinp, if_neg hfp, hres], hcli, .inl rfl⟩

theorem handled_mobileDelete (hop : req.op? = some .mobileDelete) :
    Handled pf d req env (d.handleMobileDelete pf req).2 := by
  rw [ServerDeps.handleMobileDelete]
  have hcli : d.cli = cliAfter pf d.csrSigner d.cli req env := by rw [cliAfter, hop]
  cases hinp : pf.lib.unmarshalMobileDelete req.data with
  | none => exact ⟨by simp only [mobileAfter, hop, hinp], hcli, .inl rfl⟩
  | some id =>
      dsimp only
      split <;> next hres =>
        exact ⟨by simp only [mobileAfter, hop, hinp, hres], hcli, .inl rfl⟩

theorem handled_cliEnroll (hop : req.op? = some .cliEnroll) :
    Handled pf d req env (d.handleCLIEnroll pf req env).2 := by
  rw [ServerDeps.handleCLIEnroll]
  have hmobile : d.mobile = mobileAfter pf d.mobile req env := by rw [mobileAfter, hop]
  have hnone : controlIssue pf d.csrSigner req env.draw = none →
      d.cli = cliAfter pf d.csrSigner d.cli req env := by
    intro h
    simp only [cliAfter, hop, h]
  cases hsigner : d.csrSigner with
  | none => exact ⟨hmobile, hnone (by rw [hsigner]; rfl), .inl rfl⟩
  | some csrSigner =>
      dsimp only
      cases hinp : pf.lib.unmarshalCliEnroll req.data with
      | none =>
          exact ⟨hmobile, hnone (by simp [controlIssue, hinp]), .inl rfl⟩
      | some inp =>
          dsimp only
          by_cases hreq : inp.label = [] ∨ inp.csrPEM = []
          · rw [if_pos hreq]
            exact ⟨hmobile, hnone (by simp [controlIssue, hsigner, hinp, hreq]), .inl rfl⟩
          · rw [if_neg hreq]
            cases hlabel : validateLabel inp.label with
            | error e =>
                exact ⟨hmobile, hnone (by simp [controlIssue, hsigner, hinp, hlabel]), .inl rfl⟩
            | ok u =>
                dsimp only
                cases hsign : csrSigner.sign pf.x509 pf.crypto inp.csrPEM env.draw with
                | error e =>
                    have hissue : controlIssue pf d.csrSigner req env.draw = none := by
                      simp [controlIssue, hsigner, hinp, hsign]
                    cases e <;> exact ⟨hmobile, hnone hissue, .inl rfl⟩
                | ok issued =>
                    have hissue : controlIssue pf d.csrSigner req env.draw =
                        some (inp.label, issued.1, issued.2.2) := by
                      simp [controlIssue, hsigner, hinp, hreq, hlabel, hsign]
                    dsimp only
                    split <;> next hres =>
                      exact ⟨hmobile, by simp only [cliAfter, hop, hissue, hres], .inl rfl⟩

theorem handled_cliDelete (hop : req.op? = some .cliDelete) :
    Handled pf d req env (d.handleCLIDelete pf req).2 := by
  rw [ServerDeps.handleCLIDelete]
  have hmobile : d.mobile = mobileAfter pf d.mobile req env := by rw [mobileAfter, hop]
  cases hinp : pf.lib.unmarshalCliDelete req.data with
  | none => exact ⟨hmobile, by simp only [cliAfter, hop, hinp], .inl rfl⟩
  | some id =>
      dsimp only
      cases hdev : AList.lookup id d.cli with
      | none =>
          have hres : d.cli.delete id = (.error .notFound, d.cli) := by rw [Store.delete, hdev]
          rw [hres]
          exact ⟨hmobile, by simp only [cliAfter, hop, hinp, hres], .inl rfl⟩
      | some dev =>
          have hres : d.cli.delete id = (.ok (), d.cli.erase id) := by rw [Store.delete, hdev]
          rw [hres]
          exact ⟨hmobile, by simp only [cliAfter, hop, hinp, hres], .inr ⟨id, dev, hdev, rfl⟩⟩

variable (pf) in
/-- **What every operation does to the registries.** -/
theorem handled_handle (d : ServerDeps Signer PrivateKey) (req : Request)
    (env : Env) : Handled pf d req env (d.handle pf req env).2 := by
  rw [ServerDeps.handle]
  cases hop : req.op? with
  | none => exact SameDevices.handled ⟨rfl, rfl, rfl⟩ (by simp [hop])
  | some op =>
      cases op with
      | status | keyList | keyPendingList | mobileList | cliList =>
          exact SameDevices.handled ⟨rfl, rfl, rfl⟩ (by simp [hop])
      | keyLoad => exact (sameDevices_keyLoad pf d req env).handled (by simp [hop])
      | keyRemove => exact (sameDevices_keyRemove pf d req).handled (by simp [hop])
      | keyConfirm => exact (sameDevices_keyConfirm pf d req env).handled (by simp [hop])
      | keyReject => exact (sameDevices_keyReject pf d req).handled (by simp [hop])
      | mobileEnroll => exact handled_mobileEnroll hop
      | mobileDelete => exact handled_mobileDelete hop
      | cliEnroll => exact handled_cliEnroll hop
      | cliDelete => exact handled_cliDelete hop

end LunaZTrust.Control
