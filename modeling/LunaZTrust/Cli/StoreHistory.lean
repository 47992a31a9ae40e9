import LunaZTrust.Cli.Store
import LunaZTrust.Transition.Object

/-!
# The registry and its history

The registry of `proxy/internal/cli/store.go` against the calls of `Enroll` and `Delete` that were
made.  A device is looked up by the fingerprint of its certificate, in a map under ids and in
whatever order Go iterates over it.  What is found is the device that was enrolled with the
fingerprint last and has not been deleted (`Registers.find_eq_some_iff`), because `Enroll`
lets no fingerprint in twice.

Ids are drawn at random and taken to be new.
-/

namespace LunaZTrust.Cli

open LunaZTrust.Go LunaZTrust.Transition

namespace Store

/-- The calls that change the registry.  `Enroll` is given the id it draws. -/
inductive Call
  | enroll (label certFingerprint id : GoString)
  | delete (id : GoString)
deriving DecidableEq, Repr

/-- What the calls return. -/
inductive Result
  | enroll (res : Except CliError Device)
  | delete (res : Except CliError Unit)

/-- The registry and its calls. -/
def object : Object Store Time Call Result where
  start := ∅
  enabled s
    | .enroll _ _ id => (AList.lookup id s).isNone
    | .delete _ => true
  perform s now
    | .enroll label fp id => ((s.enroll label fp id now).2, .enroll (s.enroll label fp id now).1)
    | .delete id => ((s.delete id).2, .delete (s.delete id).1)

/-- The history of the registry. -/
abbrev History := List (Performed Time Call Result)

/-- The call enrolled the device with a fingerprint. -/
def Enrolled (fp : GoString) (dev : Device) (p : Performed Time Call Result) : Prop :=
  (∃ label id, p.call = .enroll label fp id) ∧ p.result = .enroll (.ok dev)

/-- The call deleted the device with an id. -/
def Deleted (id : GoString) (p : Performed Time Call Result) : Prop :=
  p.call = .delete id ∧ p.result = .delete (.ok ())

/-- The device was enrolled with the fingerprint, no other was after it, and it has not been
deleted. -/
def Live (log : History) (fp : GoString) (dev : Device) : Prop :=
  ∃ pre p post, log = pre ++ p :: post ∧ Enrolled fp dev p ∧
    ∀ q ∈ post, (∀ dev', ¬Enrolled fp dev' q) ∧ ¬Deleted dev.id q

variable {s : Store} {log : History} {fp : GoString} {dev : Device} {clock now now₀ : Time}

/-- One more call. -/
theorem live_concat (log : History) (p : Performed Time Call Result) (fp : GoString)
    (dev : Device) :
    Live (log ++ [p]) fp dev ↔
      Enrolled fp dev p ∨ Live log fp dev ∧ (∀ dev', ¬Enrolled fp dev' p) ∧ ¬Deleted dev.id p := by
  constructor
  · rintro ⟨pre, q, post, hlog, hq, hpost⟩
    rcases List.eq_nil_or_concat' post with rfl | ⟨post, r, rfl⟩
    · obtain ⟨-, hqp⟩ := List.append_inj' hlog rfl
      rw [List.cons.inj hqp |>.1]
      exact .inl hq
    · rw [← List.cons_append, ← List.append_assoc] at hlog
      obtain ⟨hlog, hpr⟩ := List.append_inj' hlog rfl
      rw [List.cons.inj hpr |>.1]
      rw [List.forall_mem_append, List.forall_mem_singleton] at hpost
      exact .inr ⟨⟨pre, q, post, hlog, hq, hpost.1⟩, hpost.2⟩
  · rintro (hp | ⟨⟨pre, q, post, rfl, hq, hpost⟩, hp⟩)
    · exact ⟨log, p, [], rfl, hp, List.forall_mem_nil _⟩
    · refine ⟨pre, q, post ++ [p], by rw [List.append_assoc, List.cons_append], hq, ?_⟩
      rw [List.forall_mem_append, List.forall_mem_singleton]
      exact ⟨hpost, hp⟩

theorem not_live_nil (fp : GoString) (dev : Device) : ¬Live [] fp dev := by
  rintro ⟨pre, p, post, hlog, -⟩
  exact absurd hlog.symm (List.append_ne_nil_of_right_ne_nil pre (List.cons_ne_nil p post))

/-- At most one device is live with a fingerprint. -/
theorem Live.unique {dev' : Device} (h : Live log fp dev) (h' : Live log fp dev') : dev = dev' := by
  induction log using List.reverseRecOn with
  | nil => exact absurd h (not_live_nil fp dev)
  | append_singleton log p ih =>
      rcases (live_concat log p fp dev).mp h with hp | ⟨hlive, hp, -⟩
      · rcases (live_concat log p fp dev').mp h' with hp' | ⟨-, hp', -⟩
        · exact Except.ok.inj (Result.enroll.inj (hp.2.symm.trans hp'.2))
        · exact absurd hp (hp' dev)
      · rcases (live_concat log p fp dev').mp h' with hp' | ⟨hlive', -⟩
        · exact absurd hp' (hp dev')
        · exact ih hlive hlive'

/-- What is live after calls that do not enroll the fingerprint was live before them. -/
theorem Live.of_append {log' : History} (h : Live (log ++ log') fp dev)
    (hlog' : ∀ q ∈ log', ∀ dev', ¬Enrolled fp dev' q) : Live log fp dev := by
  induction log' using List.reverseRecOn with
  | nil => rwa [List.append_nil] at h
  | append_singleton log' p ih =>
      rw [List.forall_mem_append, List.forall_mem_singleton] at hlog'
      rw [← List.append_assoc, live_concat, or_iff_right (hlog'.2 dev)] at h
      exact ih h.1 hlog'.1

/-- **Revocation.**  Once the device with a fingerprint is deleted, none is live with it until one
is enrolled with it again. -/
theorem not_live_of_deleted {pre post : History} {p : Performed Time Call Result} {dev' : Device}
    (hlive : Live pre fp dev) (hp : Deleted dev.id p)
    (hpost : ∀ q ∈ post, ∀ dev', ¬Enrolled fp dev' q) : ¬Live (pre ++ p :: post) fp dev' := by
  intro h
  rw [List.append_cons] at h
  have hnot : ¬Enrolled fp dev' p := by
    rintro ⟨⟨label, id, hcall⟩, -⟩
    cases hp.1.symm.trans hcall
  have hbefore := ((live_concat pre p fp dev').mp (h.of_append hpost)).resolve_left hnot
  exact hbefore.2.2 (hlive.unique hbefore.1 ▸ hp)

/-- A call that neither enrolled nor deleted. -/
theorem live_concat_of_failed {p : Performed Time Call Result}
    (henroll : ∀ fp dev, ¬Enrolled fp dev p) (hdelete : ∀ id, ¬Deleted id p) (fp : GoString)
    (dev : Device) : Live (log ++ [p]) fp dev ↔ Live log fp dev := by
  rw [live_concat, or_iff_right (henroll fp dev), and_iff_left]
  exact ⟨henroll fp, hdelete dev.id⟩

theorem enrolled_iff {label id fp' : GoString} {dev' : Device} :
    Enrolled fp' dev' ⟨now, .enroll label fp id, .enroll (.ok dev)⟩ ↔ fp' = fp ∧ dev' = dev := by
  constructor
  · rintro ⟨⟨label', id', hcall⟩, hres⟩
    exact ⟨(Call.enroll.inj hcall).2.1.symm, (Except.ok.inj (Result.enroll.inj hres)).symm⟩
  · rintro ⟨rfl, rfl⟩
    exact ⟨⟨label, id, rfl⟩, rfl⟩

/-! ## The registry -/

theorem mem_list_iff : dev ∈ s.list ↔ ∃ id, AList.lookup id s = some dev := by
  rw [list, List.mem_map]
  constructor
  · rintro ⟨⟨id, d⟩, hmem, rfl⟩
    exact ⟨id, AList.mem_lookup_iff.mpr hmem⟩
  · rintro ⟨id, hlookup⟩
    exact ⟨⟨id, dev⟩, AList.mem_lookup_iff.mp hlookup, rfl⟩

/-- The registry against its history. -/
structure Registers (s : Store) (log : History) : Prop where
  id_eq : ∀ id dev, AList.lookup id s = some dev → dev.id = id
  unique : ∀ id id' dev dev', AList.lookup id s = some dev → AList.lookup id' s = some dev' →
    dev.certFingerprint = dev'.certFingerprint → id = id'
  live : ∀ fp dev, AList.lookup dev.id s = some dev ∧ dev.certFingerprint = fp ↔ Live log fp dev

theorem registers_empty : Registers ∅ [] where
  id_eq id dev h := by cases h
  unique id id' dev dev' h := by cases h
  live fp dev := iff_of_false (fun h ↦ by cases h.1) (not_live_nil fp dev)

/-- A call that failed and changed nothing. -/
theorem Registers.concat_of_failed (h : Registers s log) {p : Performed Time Call Result}
    (henroll : ∀ fp dev, ¬Enrolled fp dev p) (hdelete : ∀ id, ¬Deleted id p) :
    Registers s (log ++ [p]) where
  id_eq := h.id_eq
  unique := h.unique
  live fp dev := (h.live fp dev).trans (live_concat_of_failed henroll hdelete fp dev).symm

/-- The ways `Enroll` can end. -/
theorem enroll_cases (s : Store) (label fp id : GoString) (now : Time) :
    (∃ e, s.enroll label fp id now = (.error e, s)) ∨
      (∀ dev ∈ s.list, dev.certFingerprint ≠ fp) ∧
        s.enroll label fp id now =
          (.ok ⟨id, label, fp, now⟩, s.insert id ⟨id, label, fp, now⟩) := by
  rw [enroll]
  split
  · exact .inl ⟨_, rfl⟩
  · split
    · exact .inl ⟨_, rfl⟩
    · next hany =>
        refine .inr ⟨fun dev hdev hfp ↦ hany ?_, rfl⟩
        exact List.any_eq_true.mpr ⟨dev, hdev, beq_iff_eq.mpr hfp⟩

/-- **Step.**  `Enroll` lets no fingerprint in twice. -/
theorem Registers.enroll (h : Registers s log) (label fp : GoString) {id : GoString}
    (hid : AList.lookup id s = none) (now : Time) :
    Registers (object.perform s now (.enroll label fp id)).1
      (log ++ [object.performed s now (.enroll label fp id)]) := by
  dsimp only [object, Object.performed]
  rcases s.enroll_cases label fp id now with ⟨e, henroll⟩ | ⟨hnew, henroll⟩
  · rw [henroll]
    exact h.concat_of_failed (fun _ _ hp ↦ by cases hp.2) fun _ hp ↦ by cases hp.1
  · rw [henroll]
    have hne : ∀ id' dev', AList.lookup id' s = some dev' → dev'.certFingerprint ≠ fp :=
      fun id' dev' hdev' ↦ hnew dev' (mem_list_iff.mpr ⟨id', hdev'⟩)
    refine ⟨Map.forall_insert h.id_eq rfl, ?_, ?_⟩
    · intro id₁ id₂ dev₁ dev₂ h₁ h₂ heq
      rcases Map.lookup_insert_eq_some_iff.mp h₁ with ⟨hid₁, hdev₁⟩ | ⟨-, hold₁⟩
      · rcases Map.lookup_insert_eq_some_iff.mp h₂ with ⟨hid₂, -⟩ | ⟨-, hold₂⟩
        · exact hid₁.trans hid₂.symm
        · exact absurd (heq.symm.trans (congrArg Device.certFingerprint hdev₁.symm))
            (hne _ _ hold₂)
      · rcases Map.lookup_insert_eq_some_iff.mp h₂ with ⟨-, hdev₂⟩ | ⟨-, hold₂⟩
        · exact absurd (heq.trans (congrArg Device.certFingerprint hdev₂.symm)) (hne _ _ hold₁)
        · exact h.unique _ _ _ _ hold₁ hold₂ heq
    · intro fp' dev'
      rw [live_concat, ← h.live, enrolled_iff, Map.lookup_insert_eq_some_iff]
      constructor
      · rintro ⟨⟨-, rfl⟩ | ⟨-, hold⟩, rfl⟩
        · exact .inl ⟨rfl, rfl⟩
        · refine .inr ⟨⟨hold, rfl⟩, fun dev'' hp ↦ ?_, fun hp ↦ by cases hp.1⟩
          exact hne _ _ hold (enrolled_iff.mp hp).1
      · rintro (⟨rfl, rfl⟩ | ⟨⟨hold, rfl⟩, -⟩)
        · exact ⟨.inl ⟨rfl, rfl⟩, rfl⟩
        · refine ⟨.inr ⟨fun hdev ↦ ?_, hold⟩, rfl⟩
          cases hid.symm.trans (hdev ▸ hold)

/-- **Step.**  `Delete` removes a device and no other. -/
theorem Registers.delete (h : Registers s log) (id : GoString) (now : Time) :
    Registers (object.perform s now (.delete id)).1
      (log ++ [object.performed s now (.delete id)]) := by
  dsimp only [object, Object.performed]
  rw [Store.delete]
  split
  · exact h.concat_of_failed (fun _ _ hp ↦ by cases hp.2) fun _ hp ↦ by cases hp.2
  · refine ⟨Map.forall_erase h.id_eq, ?_, fun fp dev ↦ ?_⟩
    · intro id₁ id₂ dev₁ dev₂ h₁ h₂
      exact h.unique id₁ id₂ dev₁ dev₂ (Map.lookup_erase_eq_some_iff.mp h₁).2
        (Map.lookup_erase_eq_some_iff.mp h₂).2
    · have hdeleted : Deleted dev.id ⟨now, .delete id, .delete (.ok ())⟩ ↔ dev.id = id :=
        ⟨fun hp ↦ (Call.delete.inj hp.1).symm, fun hid ↦ ⟨by rw [hid], rfl⟩⟩
      have hnot : ∀ dev', ¬Enrolled fp dev' ⟨now, .delete id, .delete (.ok ())⟩ :=
        fun dev' hp ↦ by cases hp.2
      rw [live_concat, ← h.live, Map.lookup_erase_eq_some_iff, hdeleted, or_iff_right (hnot dev)]
      exact ⟨fun hl ↦ ⟨⟨hl.1.2, hl.2⟩, hnot, hl.1.1⟩, fun hl ↦ ⟨⟨hl.2.2, hl.1.1⟩, hl.1.2⟩⟩

/-- **Run.** -/
theorem exec_registers {as : List (Time × Call)} {t : Store × Time}
    (h : (object.machine now₀).exec as = some (t, log)) : Registers t.1 log := by
  refine Object.history_induction (P := fun s _ log ↦ Registers s log) registers_empty ?_ h
  intro s clock now log c hreg _ henabled
  cases c with
  | enroll label fp id => exact hreg.enroll label fp (Option.isNone_iff_eq_none.mp henabled) now
  | delete id => exact hreg.delete id now

/-! ## What is found -/

/-- `GetByFingerprint`, with the devices taken in a given order. -/
def find (order : List Device) (fp : GoString) : Option Device :=
  order.find? fun d ↦ d.certFingerprint == fp

theorem getByFingerprint_eq_find (s : Store) (fp : GoString) :
    s.getByFingerprint fp = find s.list fp := rfl

theorem find_eq_some {order : List Device} (h : find order fp = some dev) :
    dev ∈ order ∧ dev.certFingerprint = fp :=
  have hbeq : (dev.certFingerprint == fp) = true := List.find?_some (p := fun d : Device ↦
    d.certFingerprint == fp) h
  ⟨List.mem_of_find?_eq_some h, beq_iff_eq.mp hbeq⟩

/-- The order makes no difference. -/
theorem Registers.find_eq_some_iff (h : Registers s log) {order : List Device}
    (horder : order.Perm s.list) : find order fp = some dev ↔ Live log fp dev := by
  have hmem : ∀ d, d ∈ order ↔ AList.lookup d.id s = some d := by
    intro d
    rw [horder.mem_iff, mem_list_iff]
    constructor
    · rintro ⟨id, hd⟩
      rwa [h.id_eq id d hd]
    · exact fun hd ↦ ⟨d.id, hd⟩
  rw [← h.live]
  constructor
  · intro hfind
    obtain ⟨hdev, hfp⟩ := find_eq_some hfind
    exact ⟨(hmem dev).mp hdev, hfp⟩
  · rintro ⟨hdev, hfp⟩
    -- something is found, and there is only one with the fingerprint
    have hsome : (find order fp).isSome = true :=
      List.find?_isSome.mpr ⟨dev, (hmem dev).mpr hdev, beq_iff_eq.mpr hfp⟩
    obtain ⟨d, hd⟩ := Option.isSome_iff_exists.mp hsome
    obtain ⟨hmem', hfp'⟩ := find_eq_some hd
    have hlookup := (hmem d).mp hmem'
    rw [h.unique _ _ _ _ hlookup hdev (hfp'.trans hfp.symm), hdev] at hlookup
    rw [hd, hlookup]

end Store

end LunaZTrust.Cli
