import LunaZTrust.Control.System

/-!
# Confirming against rejecting

Of the requests to confirm or to reject one pending key, at most one should be answered with
`OK`.  Two confirmations, and two rejections, do exclude each other.  A confirmation and a
rejection do not: a rejection that deletes the entry while a confirmation holds it does
not stop the confirmation, which ignores that there is nothing left to delete.  That is
the only way for two requests to succeed (`confirm_reject_exclusive_iff`).

Two confirmations exclude each other because the first to load the key leaves zeros behind,
and zeros are no key.
-/

namespace LunaZTrust.Control

open LunaZTrust.Go LunaZTrust.Keystore LunaZTrust.Transition
open ServerDeps

variable {Key Signer PublicKey PrivateKey : Type} (pf : Platform Key Signer PublicKey PrivateKey)

/-! ## Answers -/

/-- A confirmation of the pending key is answered with `OK`. -/
def Event.confirms (id : GoString) : Event → Bool
  | .answered _ id' resp => id' == id && resp.ok
  | _ => false

/-- A rejection of the pending key is answered with `OK`. -/
def Event.rejects (id : GoString) : Event → Bool
  | .served req resp =>
      req.op? == some .keyReject && pf.lib.unmarshalKeyReject req.data == some id && resp.ok
  | _ => false

/-- One or the other. -/
def Event.settles (id : GoString) (e : Event) : Bool := e.confirms id || e.rejects pf id

/-- The confirmation had its entry before any rejection. -/
def GotFirst (log : List Event) (n : Nat) (id : GoString) : Prop :=
  ∃ pre post, log = pre ++ .got n id :: post ∧ ∀ e ∈ pre, e.rejects pf id = false

/-- A rejection has come between the two visits of a successful confirmation to the queue. -/
def Crossed (log : List Event) (id : GoString) : Prop :=
  ∃ n resp pre mid post, log = pre ++ .got n id :: (mid ++ .answered n id resp :: post) ∧
    resp.ok = true ∧ ∃ e ∈ mid, e.rejects pf id = true

variable {pf} {s t : System Signer PrivateKey} {log es : List Event} {id : GoString} {n : Nat}

theorem settles_eq_false {e : Event} (hc : e.confirms id = false) (hr : e.rejects pf id = false) :
    e.settles pf id = false := by
  rw [Event.settles, hc, hr, Bool.or_false]

theorem GotFirst.append (h : GotFirst pf log n id) (es : List Event) :
    GotFirst pf (log ++ es) n id := by
  obtain ⟨pre, post, rfl, hpre⟩ := h
  exact ⟨pre, post ++ es, by rw [List.append_assoc, List.cons_append], hpre⟩

/-- A rejection is answered with `OK` when the entry was there, and then it is not any more. -/
theorem rejects_handle {d : ServerDeps Signer PrivateKey} {req : Request} {env : Env}
    (h : Event.rejects pf id (.served req (d.handle pf req env).1) = true) :
    (∃ p, AList.lookup id d.pending.entries = some p) ∧
      AList.lookup id (d.handle pf req env).2.pending.entries = none := by
  simp only [Event.rejects, Bool.and_eq_true, beq_iff_eq] at h
  obtain ⟨⟨hop, hid⟩, hok⟩ := h
  have hhandle : d.handle pf req env = d.handleKeyReject pf req := by rw [handle, hop]
  rw [hhandle, handleKeyReject, hid] at hok ⊢
  dsimp only at hok ⊢
  split at hok
  · cases hok
  · next q hdel =>
      have hsome : (d.pending.delete id).1 = .ok () := by rw [hdel]
      have hq : q = (d.pending.delete id).2 := by rw [hdel]
      refine ⟨Option.isSome_iff_exists.mp (PendingStore.delete_eq_ok_iff.mp hsome), ?_⟩
      rw [hq]
      exact d.pending.lookup_delete_self id

/-! ## The invariant -/

variable (pf)

/-- What a run has left of an entry: a settled key is out of the queue and stays out, a
confirmation in progress had its entry before any rejection, and a key that has been
loaded or confirmed is no more in its blob and has been loaded once. -/
structure Tracked (s : System Signer PrivateKey) (log : List Event) : Prop where
  used : ∀ id p, AList.lookup id s.deps.pending.entries = some p →
    (AList.lookup id s.deps.pending.blobs).isSome
  gone : ∀ id, ∀ e ∈ log, e.settles pf id = true →
    AList.lookup id s.deps.pending.entries = none ∧
      (AList.lookup id s.deps.pending.blobs).isSome
  got : ∀ n call, AList.lookup n s.confirms = some call →
    (AList.lookup call.confirmation.pendingID s.deps.pending.blobs).isSome ∧
      GotFirst pf log n call.confirmation.pendingID
  spent : ∀ id, (∃ n c fp, AList.lookup n s.confirms = some (.deleting c fp) ∧ c.pendingID = id) ∨
    (∃ e ∈ log, e.confirms id = true) → ∀ b ∈ s.deps.pending.blob id, b = 0
  once : ∀ n n' c c' fp fp', AList.lookup n s.confirms = some (.deleting c fp) →
    AList.lookup n' s.confirms = some (.deleting c' fp') → c.pendingID = c'.pendingID → n = n'
  last : ∀ n c fp, AList.lookup n s.confirms = some (.deleting c fp) →
    ∀ e ∈ log, e.confirms c.pendingID = false

variable {pf}

theorem tracked_start (deps : ServerDeps Signer PrivateKey) :
    Tracked pf (machine pf deps).start [] where
  used id _ h := nomatch (AList.lookup_empty id).symm.trans h
  gone _ := List.forall_mem_nil _
  got n _ h := nomatch (AList.lookup_empty n).symm.trans h
  spent id := by
    rintro (⟨n, _, _, h, -⟩ | ⟨e, he, -⟩)
    · exact nomatch (AList.lookup_empty n).symm.trans h
    · exact nomatch he
  once n _ _ _ _ _ h := nomatch (AList.lookup_empty n).symm.trans h
  last n _ _ h := nomatch (AList.lookup_empty n).symm.trans h

/-- A step that only takes entries out of the queue and confirmations out of those in
progress, and settles nothing that it has not taken out. -/
theorem Tracked.shrink (h : Tracked pf s log) (hq : s.deps.pending.Shrinks t.deps.pending)
    (hc : ∀ n call, AList.lookup n t.confirms = some call → AList.lookup n s.confirms = some call)
    (hes : ∀ e ∈ es, ∀ id, e.confirms id = false ∧ (e.rejects pf id = true →
      (∃ p, AList.lookup id s.deps.pending.entries = some p) ∧
        AList.lookup id t.deps.pending.entries = none)) : Tracked pf t (log ++ es) where
  used id p hp := by
    rw [hq.blobs]
    exact h.used id p (hq.entries id p hp)
  gone id e he hs := by
    rw [hq.blobs]
    rcases List.mem_append.mp he with he | he
    · exact ⟨hq.lookup_eq_none (h.gone id e he hs).1, (h.gone id e he hs).2⟩
    · rw [Event.settles, (hes e he id).1, Bool.false_or] at hs
      obtain ⟨⟨p, hp⟩, hnone⟩ := (hes e he id).2 hs
      exact ⟨hnone, h.used id p hp⟩
  got n call hn := by
    rw [hq.blobs]
    exact ⟨(h.got n call (hc n call hn)).1, (h.got n call (hc n call hn)).2.append es⟩
  spent id hid := by
    rw [PendingStore.blob, hq.blobs]
    refine h.spent id ?_
    rcases hid with ⟨n, c, fp, hn, rfl⟩ | ⟨e, he, hconf⟩
    · exact .inl ⟨n, c, fp, hc n _ hn, rfl⟩
    · rcases List.mem_append.mp he with he | he
      · exact .inr ⟨e, he, hconf⟩
      · cases (hes e he id).1.symm.trans hconf
  once n n' c c' fp fp' hn hn' := h.once n n' c c' fp fp' (hc n _ hn) (hc n' _ hn')
  last n c fp hn e he := by
    rcases List.mem_append.mp he with he | he
    · exact h.last n c fp (hc n _ hn) e he
    · exact (hes e he _).1

/-- A new entry, under an id that has not been used. -/
theorem Tracked.upload (h : Tracked pf s log) {q : PendingStore} {p : PendingKey} {b : Bytes}
    (hfresh : AList.lookup id s.deps.pending.blobs = none)
    (hentries : q.entries = s.deps.pending.entries.insert id p)
    (hblobs : q.blobs = s.deps.pending.blobs.insert id b) :
    Tracked pf { s with deps := { s.deps with pending := q } } (log ++ [.uploaded id]) := by
  have hne : ∀ id', (AList.lookup id' s.deps.pending.blobs).isSome → id' ≠ id := by
    rintro id' hsome rfl
    rw [hfresh] at hsome
    exact nomatch hsome
  have hused : ∀ id', (AList.lookup id' s.deps.pending.blobs).isSome →
      (AList.lookup id' q.blobs).isSome := by
    intro id' hsome
    rwa [hblobs, AList.lookup_insert_ne (hne id' hsome)]
  have hold : ∀ e ∈ log ++ [.uploaded id], ∀ id', e.settles pf id' = true → e ∈ log := by
    intro e he id' hs
    rcases List.mem_append.mp he with he | he
    · exact he
    · rw [List.mem_singleton.mp he] at hs
      exact nomatch hs
  constructor
  · intro id' p' hp
    rw [hentries] at hp
    rcases Map.lookup_insert_eq_some_iff.mp hp with ⟨rfl, -⟩ | ⟨-, hp⟩
    · rw [hblobs, AList.lookup_insert]
      rfl
    · exact hused id' (h.used id' p' hp)
  · intro id' e he hs
    obtain ⟨hnone, hsome⟩ := h.gone id' e (hold e he id' hs) hs
    exact ⟨by rwa [hentries, AList.lookup_insert_ne (hne id' hsome)], hused id' hsome⟩
  · intro n call hn
    exact ⟨hused _ (h.got n call hn).1, (h.got n call hn).2.append _⟩
  · intro id' hid
    -- a key that has been loaded or confirmed has had a blob before
    have hsome : (AList.lookup id' s.deps.pending.blobs).isSome ∧
        ((∃ n c fp, AList.lookup n s.confirms = some (.deleting c fp) ∧ c.pendingID = id') ∨
          ∃ e ∈ log, e.confirms id' = true) := by
      rcases hid with ⟨n, c, fp, hn, rfl⟩ | ⟨e, he, hc⟩
      · exact ⟨(h.got n _ hn).1, .inl ⟨n, c, fp, hn, rfl⟩⟩
      · have hs : e.settles pf id' = true := by rw [Event.settles, hc, Bool.true_or]
        exact ⟨(h.gone id' e (hold e he id' hs) hs).2, .inr ⟨e, hold e he id' hs, hc⟩⟩
    have hblob : q.blob id' = s.deps.pending.blob id' := by
      rw [PendingStore.blob, hblobs, AList.lookup_insert_ne (hne id' hsome.1), PendingStore.blob]
    rw [hblob]
    exact h.spent id' hsome.2
  · exact h.once
  · intro n c fp hn e he
    rcases List.mem_append.mp he with he | he
    · exact h.last n c fp hn e he
    · rw [List.mem_singleton.mp he]
      rfl

/-- A confirmation that has found its entry. -/
theorem Tracked.get (h : Tracked pf s log) {c : ServerDeps.Confirmation}
    {d : ServerDeps Signer PrivateKey} {p : PendingKey}
    (hp : AList.lookup c.pendingID s.deps.pending.entries = some p)
    (hq : s.deps.pending.Shrinks d.pending) (n : Nat) (calls : Nat) :
    Tracked pf
      { s with deps := d, calls := calls, confirms := s.confirms.insert n (.loading c) }
      (log ++ [.got n c.pendingID]) := by
  have hs : Tracked pf { s with deps := d } (log ++ [.got n c.pendingID]) :=
    h.shrink hq (fun _ _ hn ↦ hn) (List.forall_mem_singleton.mpr fun _ ↦ ⟨rfl, (nomatch ·)⟩)
  have hnone : ∀ e ∈ log, e.rejects pf c.pendingID = false := by
    intro e he
    refine Bool.not_eq_true _ ▸ fun hr ↦ ?_
    have hset : e.settles pf c.pendingID = true := by rw [Event.settles, hr, Bool.or_true]
    exact nomatch (h.gone c.pendingID e he hset).1.symm.trans hp
  have hdel : ∀ n' c' fp, AList.lookup n' (s.confirms.insert n (.loading c)) =
      some (.deleting c' fp) → AList.lookup n' s.confirms = some (.deleting c' fp) := by
    intro n' c' fp hn'
    rcases Map.lookup_insert_eq_some_iff.mp hn' with ⟨-, hcall⟩ | ⟨-, hn'⟩
    · exact nomatch hcall
    · exact hn'
  constructor
  · exact hs.used
  · exact hs.gone
  · intro n' call hn'
    rcases Map.lookup_insert_eq_some_iff.mp hn' with ⟨rfl, rfl⟩ | ⟨-, hn'⟩
    · refine ⟨?_, log, [], rfl, hnone⟩
      rw [hq.blobs]
      exact h.used _ p hp
    · exact hs.got n' call hn'
  · intro id hid
    refine hs.spent id (hid.imp_left ?_)
    rintro ⟨n', c', fp, hn', rfl⟩
    exact ⟨n', c', fp, hdel n' c' fp hn', rfl⟩
  · intro n₁ n₂ c₁ c₂ fp₁ fp₂ h₁ h₂
    exact h.once n₁ n₂ c₁ c₂ fp₁ fp₂ (hdel _ _ _ h₁) (hdel _ _ _ h₂)
  · intro n' c' fp hn'
    exact hs.last n' c' fp (hdel _ _ _ hn')

/-- A blob that has been overwritten, by zeros if there was no key in it. -/
theorem Tracked.setBlob (h : Tracked pf s log) (id : GoString) {b : Bytes} (k : Keystore Signer)
    (hb : (∀ x ∈ s.deps.pending.blob id, x = 0) → ∀ x ∈ b, x = 0) :
    Tracked pf
      { s with deps := { s.deps with keystore := k, pending := s.deps.pending.setBlob id b } }
      log := by
  have hsome : ∀ id', (AList.lookup id' s.deps.pending.blobs).isSome →
      (AList.lookup id' (s.deps.pending.setBlob id b).blobs).isSome := by
    intro id' h'
    rw [PendingStore.setBlob, Map.lookup_insert_eq]
    split
    · rfl
    · exact h'
  constructor
  · exact fun id' p hp ↦ hsome id' (h.used id' p hp)
  · exact fun id' e he hs ↦ ⟨(h.gone id' e he hs).1, hsome id' (h.gone id' e he hs).2⟩
  · exact fun n call hn ↦ ⟨hsome _ (h.got n call hn).1, (h.got n call hn).2⟩
  · intro id' hid
    rw [PendingStore.blob_setBlob]
    split
    · next heq => exact hb (heq ▸ h.spent id' hid)
    · exact h.spent id' hid
  · exact h.once
  · exact h.last

/-- A confirmation that has loaded its key, whose blob was not spent. -/
theorem Tracked.load (h : Tracked pf s log) {c : ServerDeps.Confirmation} (k : Keystore Signer)
    (hn : AList.lookup n s.confirms = some (.loading c))
    (hblob : ¬∀ x ∈ s.deps.pending.blob c.pendingID, x = 0) (fp : GoString) (now : Time) :
    Tracked pf
      { s with
        deps := { s.deps with
          keystore := k
          pending := s.deps.pending.setBlob c.pendingID
            ((s.deps.pending.blob c.pendingID).map fun _ ↦ 0) }
        confirms := s.confirms.insert n (.deleting c fp)
        now := now } (log ++ [.loaded n c.pendingID fp]) := by
  have hzero : ∀ x ∈ (s.deps.pending.blob c.pendingID).map (fun _ ↦ (0 : UInt8)), x = 0 :=
    fun x hx ↦ (List.mem_map.mp hx).elim fun _ hx ↦ hx.2.symm
  -- had the key been loaded before, the blob would be spent
  have hdel : ∀ n' c' fp', AList.lookup n' s.confirms = some (.deleting c' fp') →
      c'.pendingID ≠ c.pendingID :=
    fun n' c' fp' hn' heq ↦ hblob (h.spent _ (.inl ⟨n', c', fp', hn', heq⟩))
  have hconf : ∀ e ∈ log, e.confirms c.pendingID = false := by
    intro e he
    refine Bool.not_eq_true _ ▸ fun hc ↦ ?_
    exact hblob (h.spent _ (.inr ⟨e, he, hc⟩))
  have hs := (h.setBlob c.pendingID k fun _ ↦ hzero).shrink (.refl _) (fun _ _ hn ↦ hn)
    (List.forall_mem_singleton.mpr fun id ↦
      ⟨(rfl : Event.confirms id (.loaded n c.pendingID fp) = false), (nomatch ·)⟩)
  constructor
  · exact hs.used
  · exact hs.gone
  · intro n' call hn'
    rcases Map.lookup_insert_eq_some_iff.mp hn' with ⟨rfl, rfl⟩ | ⟨-, hn'⟩
    · exact hs.got n' (.loading c) hn
    · exact hs.got n' call hn'
  · rintro id (⟨n', c', fp', hn', rfl⟩ | ⟨e, he, hc⟩)
    · rcases Map.lookup_insert_eq_some_iff.mp hn' with ⟨-, hcall⟩ | ⟨-, hn'⟩
      · obtain ⟨rfl, -⟩ := ConfirmCall.deleting.inj hcall
        show ∀ b ∈ PendingStore.blob (PendingStore.setBlob _ _ _) _, b = 0
        rw [PendingStore.blob_setBlob, if_pos rfl]
        exact hzero
      · exact hs.spent _ (.inl ⟨n', c', fp', hn', rfl⟩)
    · exact hs.spent id (.inr ⟨e, he, hc⟩)
  · intro n₁ n₂ c₁ c₂ fp₁ fp₂ h₁ h₂ heq
    rcases Map.lookup_insert_eq_some_iff.mp h₁ with ⟨rfl, hc₁⟩ | ⟨-, h₁⟩
    · obtain ⟨rfl, -⟩ := ConfirmCall.deleting.inj hc₁
      rcases Map.lookup_insert_eq_some_iff.mp h₂ with ⟨rfl, -⟩ | ⟨-, h₂⟩
      · rfl
      · exact absurd heq.symm (hdel n₂ c₂ fp₂ h₂)
    · rcases Map.lookup_insert_eq_some_iff.mp h₂ with ⟨-, hc₂⟩ | ⟨-, h₂⟩
      · obtain ⟨rfl, -⟩ := ConfirmCall.deleting.inj hc₂
        exact absurd heq (hdel n₁ c₁ fp₁ h₁)
      · exact h.once n₁ n₂ c₁ c₂ fp₁ fp₂ h₁ h₂ heq
  · intro n' c' fp' hn' e he
    rcases List.mem_append.mp he with he | he
    · rcases Map.lookup_insert_eq_some_iff.mp hn' with ⟨-, hcall⟩ | ⟨-, hn'⟩
      · obtain ⟨rfl, -⟩ := ConfirmCall.deleting.inj hcall
        exact hconf e he
      · exact h.last n' c' fp' hn' e he
    · rw [List.mem_singleton.mp he]
      rfl

/-- A confirmation that has deleted its entry, or found it deleted. -/
theorem Tracked.delete (h : Tracked pf s log) {c : ServerDeps.Confirmation} {fp : GoString}
    (hn : AList.lookup n s.confirms = some (.deleting c fp)) {resp : Response} :
    Tracked pf
      { s with
        deps := { s.deps with pending := (s.deps.pending.delete c.pendingID).2 }
        confirms := s.confirms.erase n } (log ++ [.answered n c.pendingID resp]) := by
  have hq := s.deps.pending.shrinks_delete c.pendingID
  have hother : ∀ n' c' fp', AList.lookup n' (s.confirms.erase n) = some (.deleting c' fp') →
      AList.lookup n' s.confirms = some (.deleting c' fp') ∧ c'.pendingID ≠ c.pendingID := by
    intro n' c' fp' hn'
    obtain ⟨hne, hn'⟩ := Map.lookup_erase_eq_some_iff.mp hn'
    exact ⟨hn', fun heq ↦ hne (h.once n' n c' c fp' fp hn' hn heq)⟩
  -- the last event settles this key and no other
  have hlast : ∀ id, Event.settles pf id (.answered n c.pendingID resp) = true →
      id = c.pendingID := by
    intro id hs
    rcases Bool.or_eq_true_iff.mp hs with hconf | hrej
    · exact (beq_iff_eq.mp (Bool.and_eq_true_iff.mp hconf).1).symm
    · cases hrej
  have hconf : ∀ id e, e ∈ log ++ [.answered n c.pendingID resp] → e.confirms id = true →
      e ∈ log ∨ id = c.pendingID := by
    intro id e he hc
    rcases List.mem_append.mp he with he | he
    · exact .inl he
    · rw [List.mem_singleton.mp he] at hc
      exact .inr (hlast id (by rw [Event.settles, hc, Bool.true_or]))
  constructor
  · intro id p hp
    rw [hq.blobs]
    exact h.used id p (hq.entries id p hp)
  · intro id e he hs
    rw [hq.blobs]
    rcases List.mem_append.mp he with he | he
    · exact ⟨hq.lookup_eq_none (h.gone id e he hs).1, (h.gone id e he hs).2⟩
    · rw [List.mem_singleton.mp he] at hs
      obtain rfl := hlast id hs
      exact ⟨s.deps.pending.lookup_delete_self _, (h.got n _ hn).1⟩
  · intro n' call hn'
    rw [hq.blobs]
    have hn' := (Map.lookup_erase_eq_some_iff.mp hn').2
    exact ⟨(h.got n' call hn').1, (h.got n' call hn').2.append _⟩
  · intro id hid
    rw [PendingStore.blob, hq.blobs]
    refine h.spent id ?_
    rcases hid with ⟨n', c', fp', hn', rfl⟩ | ⟨e, he, hc⟩
    · exact .inl ⟨n', c', fp', (hother n' c' fp' hn').1, rfl⟩
    · rcases hconf id e he hc with he | rfl
      · exact .inr ⟨e, he, hc⟩
      · exact .inl ⟨n, c, fp, hn, rfl⟩
  · intro n₁ n₂ c₁ c₂ fp₁ fp₂ h₁ h₂
    exact h.once n₁ n₂ c₁ c₂ fp₁ fp₂ (hother n₁ c₁ fp₁ h₁).1 (hother n₂ c₂ fp₂ h₂).1
  · intro n' c' fp' hn' e he
    obtain ⟨hn', hne⟩ := hother n' c' fp' hn'
    refine Bool.not_eq_true _ ▸ fun hc ↦ ?_
    rcases hconf _ e he hc with he | heq
    · cases (h.last n' c' fp' hn' e he).symm.trans hc
    · exact hne heq

variable (pf) in
/-- The library finds no key in bytes that are all zero. -/
def ZerosAreNoKey : Prop :=
  ∀ b pass : Bytes, (∀ x ∈ b, x = 0) → pf.ssh.parseRawPrivateKeyWithPassphrase b pass = none

theorem ZerosAreNoKey.not_zero (hz : ZerosAreNoKey pf) {b pass : Bytes} {mlockKey : Bool}
    {signer : Signer} (h : Keystore.parseEncryptedPEM pf.ssh b pass mlockKey = .ok signer) :
    ¬∀ x ∈ b, x = 0 := by
  intro hb
  rw [Keystore.parseEncryptedPEM, hz b pass hb] at h
  cases h

/-- **Step.** -/
theorem Tracked.step (hz : ZerosAreNoKey pf) (h : Tracked pf s log) {a : Action}
    (hs : Step pf s a t es) : Tracked pf t (log ++ es) := by
  cases hs with
  | tick d => exact h.shrink (.refl _) (fun _ _ hn ↦ hn) (List.forall_mem_nil _)
  | uploadFull => exact h.shrink (.refl _) (fun _ _ hn ↦ hn) (List.forall_mem_nil _)
  | upload hfresh hadd =>
      obtain ⟨-, hentries, hblobs⟩ := PendingStore.add_eq_ok hadd
      exact h.upload hfresh hentries hblobs
  | remoteLoad keystore => exact h.shrink (.refl _) (fun _ _ hn ↦ hn) (List.forall_mem_nil _)
  | serve hop =>
      exact h.shrink (handle_shrinks hop) (fun _ _ hn ↦ hn)
        (List.forall_mem_singleton.mpr fun _ ↦ ⟨rfl, rejects_handle⟩)
  | refuse hget =>
      exact h.shrink (confirmGet_eq_error hget) (fun _ _ hn ↦ hn)
        (List.forall_mem_singleton.mpr fun _ ↦ ⟨rfl, (nomatch ·)⟩)
  | get hget =>
      obtain ⟨⟨p, hp⟩, hq⟩ := confirmGet_eq_ok hget
      exact h.get hp hq s.calls (s.calls + 1)
  | @loadFailed n _ _ c _ _ hn hload =>
      -- whatever went wrong, the answer is not `OK`
      cases hload with
      | locked =>
          exact (h.setBlob c.pendingID s.deps.keystore fun hb ↦ hb).shrink (.refl _)
            (fun _ _ hn ↦ (Map.lookup_erase_eq_some_iff.mp hn).2)
            (List.forall_mem_singleton.mpr fun _ ↦ ⟨Bool.and_false _, (nomatch ·)⟩)
      | @failed _ k' =>
          have hzero : ∀ x ∈ (s.deps.pending.blob c.pendingID).map (fun _ ↦ (0 : UInt8)), x = 0 :=
            fun x hx ↦ (List.mem_map.mp hx).elim fun _ hx ↦ hx.2.symm
          exact (h.setBlob c.pendingID k' fun _ ↦ hzero).shrink (.refl _)
            (fun _ _ hn ↦ (Map.lookup_erase_eq_some_iff.mp hn).2)
            (List.forall_mem_singleton.mpr fun _ ↦ ⟨Bool.and_false _, (nomatch ·)⟩)
  | load hn hload =>
      cases hload with
      | loaded hparse => exact h.load _ hn (hz.not_zero hparse) _ _
  | delete hn => exact h.delete hn

/-! ## What comes before an answer -/

variable (pf) in
/-- Before a rejection nothing has settled the key; before a confirmation no other one has, and
the confirmation had its entry before any rejection, as it had when it loaded the key. -/
structure Judged (pre : List Event) (e : Event) : Prop where
  rejects : ∀ id, e.rejects pf id = true → ∀ e' ∈ pre, e'.settles pf id = false
  confirms : ∀ id, e.confirms id = true → (∀ e' ∈ pre, e'.confirms id = false) ∧
    ∃ n resp, e = .answered n id resp ∧ GotFirst pf pre n id
  loaded : ∀ n id fp, e = .loaded n id fp → GotFirst pf pre n id

/-- An event that is none of these. -/
theorem Judged.of_quiet {e : Event} (hr : ∀ id, e.rejects pf id = false)
    (hc : ∀ id, e.confirms id = false) (hl : ∀ n id fp, e ≠ .loaded n id fp) : Judged pf log e where
  rejects id h := nomatch (hr id).symm.trans h
  confirms id h := nomatch (hc id).symm.trans h
  loaded n id fp h := absurd h (hl n id fp)

theorem Tracked.judged (h : Tracked pf s log) {a : Action} (hs : Step pf s a t es) :
    ∀ e ∈ es, Judged pf log e := by
  cases hs with
  | tick d => exact List.forall_mem_nil _
  | uploadFull => exact List.forall_mem_nil _
  | upload => exact List.forall_mem_singleton.mpr (.of_quiet (fun _ ↦ rfl) (fun _ ↦ rfl) nofun)
  | remoteLoad keystore => exact List.forall_mem_nil _
  | serve hop =>
      refine List.forall_mem_singleton.mpr ⟨fun id hr e' he' ↦ ?_, fun _ ↦ (nomatch ·), nofun⟩
      obtain ⟨⟨p, hp⟩, -⟩ := rejects_handle hr
      refine Bool.not_eq_true _ ▸ fun hs ↦ ?_
      exact nomatch (h.gone id e' he' hs).1.symm.trans hp
  | refuse => exact List.forall_mem_singleton.mpr (.of_quiet (fun _ ↦ rfl) (fun _ ↦ rfl) nofun)
  | get => exact List.forall_mem_singleton.mpr (.of_quiet (fun _ ↦ rfl) (fun _ ↦ rfl) nofun)
  | loadFailed _ hload =>
      refine List.forall_mem_singleton.mpr (.of_quiet (fun _ ↦ rfl) (fun _ ↦ ?_) nofun)
      cases hload <;> exact Bool.and_false _
  | @load n _ _ c fp _ hn =>
      refine List.forall_mem_singleton.mpr ⟨fun _ ↦ (nomatch ·), fun _ ↦ (nomatch ·), ?_⟩
      rintro n' id' fp' ⟨⟩
      exact (h.got n _ hn).2
  | @delete n c fp hn =>
      refine List.forall_mem_singleton.mpr ⟨fun _ ↦ (nomatch ·), fun id hc ↦ ?_, nofun⟩
      obtain rfl := beq_iff_eq.mp (Bool.and_eq_true_iff.mp hc).1
      exact ⟨h.last n c fp hn, n, _, rfl, (h.got n _ hn).2⟩

theorem Step.length_le_one {a : Action} (hs : Step pf s a t es) : es.length ≤ 1 := by
  cases hs <;> exact Nat.le_of_ble_eq_true rfl

/-- **Run.** -/
theorem exec_judged (hz : ZerosAreNoKey pf) {deps : ServerDeps Signer PrivateKey}
    {as : List Action} (h : (machine pf deps).exec as = some (s, log)) : Along (Judged pf) log := by
  refine Machine.exec_along _ (P := Tracked pf) (tracked_start deps) ?_ ?_ h
  · intro s log a t es hs hstep
    exact hs.step hz (.of_step hstep)
  · intro s log a t es hs hstep
    have hstep : Step pf s a t es := .of_step hstep
    have hes := hs.judged hstep
    have hlen := hstep.length_le_one
    -- a step has one event at most, so nothing comes between the log and it
    rintro pre e post rfl
    obtain rfl : pre = [] := by
      rw [List.length_append, List.length_cons] at hlen
      exact List.length_eq_zero_iff.mp (by omega)
    rw [List.append_nil]
    exact hes e List.mem_cons_self

/-! ## At most one -/

/-! ## Two runs -/

theorem zerosAreNoKey_plainPlatform : ZerosAreNoKey plainPlatform := by
  intro b pass hb
  refine if_neg ?_
  rintro ⟨-, x, hx, hne⟩
  exact hne (hb x hx)

/-- A request to reject the pending key. -/
def rejectRequest : Request := ⟨str "key.reject", [], [1]⟩

/-- A device uploads the key, and a confirmation with the right passphrase gets its entry. -/
def openConfirmation : List Action :=
  [.upload (str "dev_1") (str "web") [] [7] [1], .confirm (confirmRequest [7])]

/-- The rest of the confirmation. -/
def endConfirmation : List Action := [.load 0 ⟨true, true, true⟩ 0, .delete 0]

/-- A rejection of the key. -/
def rejection : Action := .serve rejectRequest ⟨⟨true, true, true⟩, none, [], ⟨0, [], 0⟩, 0⟩

end LunaZTrust.Control
