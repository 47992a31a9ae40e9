import LunaZTrust.Approval.Callback
import LunaZTrust.Go.Separators
import LunaZTrust.Go.Strconv

/-!
# The forms of a callback

The data of a callback has a few documented forms: `deny:<tx>`, `approve:<tx>` and
`approve:<tx>:<n>`.  `ParseCallbackData` accepts these and more
(`parseCallbackData_eq_some_iff`): it does not look at what follows the number, and it takes
every spelling of the number that `strconv.Atoi` takes.
-/

namespace LunaZTrust.Approval

open LunaZTrust.Go

/-- Segments with colons between them. -/
def joined (segments : List GoString) : GoString := [0x3a].intercalate segments

/-- What `ParseCallbackData` takes for the id of a transaction. -/
def IsTxID (txID : GoString) : Prop := str "tx_" <+: txID ∧ 0x3a ∉ txID

instance (txID : GoString) : Decidable (IsTxID txID) :=
  inferInstanceAs (Decidable (_ ∧ _))

variable {allowed : List Int} {data : GoString}

/-- The documented forms, with the number in decimal. -/
inductive Documented (allowed : List Int) : GoString → Prop
  | deny {txID : GoString} (htx : IsTxID txID) : Documented allowed (joined [str "deny", txID])
  | approve {txID : GoString} (htx : IsTxID txID) :
      Documented allowed (joined [str "approve", txID])
  | approveFor {txID : GoString} {n : Int} (htx : IsTxID txID) (hn : n ∈ allowed) :
      Documented allowed (joined [str "approve", txID, Strconv.formatInt n])

/-- The accepted forms, and what they are read as. -/
inductive Accepted (allowed : List Int) : GoString → Callback → Prop
  | deny {txID : GoString} (htx : IsTxID txID) :
      Accepted allowed (joined [str "deny", txID]) (.deny txID)
  | approve {txID : GoString} (htx : IsTxID txID) :
      Accepted allowed (joined [str "approve", txID]) (.approve txID 0)
  /-- Anything may follow the number. -/
  | approveFor {txID number : GoString} {n : Int} {rest : List GoString} (htx : IsTxID txID)
      (hsep : ∀ segment ∈ number :: rest, 0x3a ∉ segment)
      (hnumber : Strconv.parseInt number = some n) (hn : n ∈ allowed) :
      Accepted allowed (joined (str "approve" :: txID :: number :: rest))
        (.approve txID (Time.ofSeconds n))

theorem ttlAllowed_eq_true_iff {sec : Int} : ttlAllowed sec allowed = true ↔ sec ∈ allowed := by
  rw [ttlAllowed, List.any_beq', List.contains_iff_mem]

theorem not_hasPrefix_iff {txID : GoString} (hsep : 0x3a ∉ txID) :
    (!Strings.hasPrefix txID (str "tx_")) = true ↔ ¬IsTxID txID := by
  rw [Bool.not_eq_true', ← Bool.not_eq_true, Strings.hasPrefix, List.isPrefixOf_iff_prefix, IsTxID,
    and_iff_left hsep]

theorem IsTxID.not_refused {txID : GoString} (h : IsTxID txID) :
    ¬(!Strings.hasPrefix txID (str "tx_")) = true :=
  fun hrefused ↦ (not_hasPrefix_iff h.2).mp hrefused h

/-- The data is split where it was joined. -/
theorem split_joined {segments : List GoString} (hne : segments ≠ [])
    (hsep : ∀ segment ∈ segments, 0x3a ∉ segment) :
    Strings.split (joined segments) 0x3a = segments :=
  Separators.split_eq_iff.mpr ⟨hne, hsep, rfl⟩

theorem Accepted.of_parseCallbackData {callback : Callback}
    (h : parseCallbackData data allowed = some callback) : Accepted allowed data callback := by
  rw [parseCallbackData] at h
  split at h
  · next action txID rest hsplit =>
      obtain ⟨-, hsep, hdata⟩ := Separators.split_eq_iff.mp hsplit
      rw [← joined] at hdata
      subst hdata
      rw [List.forall_mem_cons, List.forall_mem_cons] at hsep
      obtain ⟨-, htx, hrest⟩ := hsep
      split at h
      · next hdeny =>
          rw [Option.ite_none_left_eq_some, not_or, not_not, not_hasPrefix_iff htx, not_not] at h
          obtain ⟨⟨rfl, hid⟩, hcallback⟩ := h
          cases hcallback
          subst hdeny
          exact .deny hid
      · split at h
        · next happrove =>
            subst happrove
            rw [Option.ite_none_left_eq_some, not_hasPrefix_iff htx, not_not] at h
            obtain ⟨hid, h⟩ := h
            cases rest with
            | nil =>
                cases h
                exact .approve hid
            | cons number rest =>
                dsimp only at h
                split at h
                · cases h
                · next n hnumber =>
                    rw [Option.ite_none_right_eq_some, ttlAllowed_eq_true_iff] at h
                    obtain ⟨hn, hcallback⟩ := h
                    cases hcallback
                    exact .approveFor hid hrest hnumber hn
        · cases h
  · cases h

theorem split_joined_deny {txID : GoString} (htx : IsTxID txID) :
    Strings.split (joined [str "deny", txID]) 0x3a = [str "deny", txID] := by
  refine split_joined (List.cons_ne_nil _ _) ?_
  rw [List.forall_mem_cons, List.forall_mem_singleton]
  exact ⟨by decide, htx.2⟩

theorem split_joined_approve {txID : GoString} {rest : List GoString} (htx : IsTxID txID)
    (hsep : ∀ segment ∈ rest, 0x3a ∉ segment) :
    Strings.split (joined (str "approve" :: txID :: rest)) 0x3a =
      str "approve" :: txID :: rest := by
  refine split_joined (List.cons_ne_nil _ _) ?_
  rw [List.forall_mem_cons, List.forall_mem_cons]
  exact ⟨by decide, htx.2, hsep⟩

theorem Accepted.parseCallbackData {callback : Callback} (h : Accepted allowed data callback) :
    parseCallbackData data allowed = some callback := by
  have happrove : str "approve" ≠ str "deny" := by decide
  cases h with
  | deny htx =>
      rw [Approval.parseCallbackData, split_joined_deny htx]
      dsimp only
      rw [if_pos rfl, if_neg]
      rintro (hne | h)
      · exact hne rfl
      · exact htx.not_refused h
  | approve htx =>
      rw [Approval.parseCallbackData, split_joined_approve htx (List.forall_mem_nil _)]
      dsimp only
      rw [if_neg happrove, if_pos rfl, if_neg htx.not_refused]
  | approveFor htx hsep hnumber hn =>
      rw [Approval.parseCallbackData, split_joined_approve htx hsep]
      dsimp only
      rw [if_neg happrove, if_pos rfl, if_neg htx.not_refused, hnumber]
      exact if_pos (ttlAllowed_eq_true_iff.mpr hn)

/-- **What the parser accepts.** -/
theorem parseCallbackData_eq_some_iff {callback : Callback} :
    parseCallbackData data allowed = some callback ↔ Accepted allowed data callback :=
  ⟨.of_parseCallbackData, Accepted.parseCallbackData⟩

/-! ## Beyond the documented forms -/

/-- No segment follows the number, and the number is written as `strconv.Itoa` writes it. -/
def Canonical (data : GoString) : Prop :=
  (Strings.split data 0x3a).length ≤ 3 ∧
    ∀ number n, (Strings.split data 0x3a)[2]? = some number → Strconv.parseInt number = some n →
      number = Strconv.formatInt n

theorem canonical_deny {txID : GoString} (htx : IsTxID txID) :
    Canonical (joined [str "deny", txID]) := by
  rw [Canonical, split_joined_deny htx]
  exact ⟨Nat.le_succ 2, fun number n h ↦ by cases h⟩

theorem canonical_approve {txID : GoString} (htx : IsTxID txID) :
    Canonical (joined [str "approve", txID]) := by
  rw [Canonical, split_joined_approve htx (List.forall_mem_nil _)]
  exact ⟨Nat.le_succ 2, fun number n h ↦ by cases h⟩

theorem canonical_approveFor_iff {txID number : GoString} {rest : List GoString} {n : Int}
    (htx : IsTxID txID) (hsep : ∀ segment ∈ number :: rest, 0x3a ∉ segment)
    (hnumber : Strconv.parseInt number = some n) :
    Canonical (joined (str "approve" :: txID :: number :: rest)) ↔
      rest = [] ∧ number = Strconv.formatInt n := by
  rw [Canonical, split_joined_approve htx hsep]
  constructor
  · rintro ⟨hlength, hcanon⟩
    have hrest : rest.length ≤ 0 := by
      simp only [List.length_cons] at hlength
      omega
    exact ⟨List.length_eq_zero_iff.mp (Nat.le_zero.mp hrest), hcanon number n rfl hnumber⟩
  · rintro ⟨rfl, hn⟩
    refine ⟨le_rfl, fun number' n' h hnumber' ↦ ?_⟩
    cases h
    rw [hnumber] at hnumber'
    cases hnumber'
    exact hn

theorem Documented.canonical (h : Documented allowed data) : Canonical data := by
  cases h with
  | deny htx => exact canonical_deny htx
  | approve htx => exact canonical_approve htx
  | @approveFor txID n htx hn =>
      have hsep : ∀ segment ∈ [Strconv.formatInt n], 0x3a ∉ segment := by
        rw [List.forall_mem_singleton]
        exact Strconv.colon_notMem_formatInt n
      rw [Canonical, split_joined_approve htx hsep]
      refine ⟨le_rfl, fun number m h hnumber ↦ ?_⟩
      cases h
      rw [Strconv.parseInt_formatInt, Option.ite_none_right_eq_some] at hnumber
      cases hnumber.2
      rfl

theorem Accepted.documented {callback : Callback} (h : Accepted allowed data callback)
    (hcanon : Canonical data) : Documented allowed data := by
  cases h with
  | deny htx => exact .deny htx
  | approve htx => exact .approve htx
  | approveFor htx hsep hnumber hn =>
      obtain ⟨rfl, rfl⟩ := (canonical_approveFor_iff htx hsep hnumber).mp hcanon
      exact .approveFor htx hn

/-- An approval with a further segment or another spelling of the number is not documented. -/
theorem not_documented_of_ne {txID number : GoString} {rest : List GoString} {n : Int}
    (htx : IsTxID txID) (hsep : ∀ segment ∈ number :: rest, 0x3a ∉ segment)
    (hnumber : Strconv.parseInt number = some n)
    (hne : ¬(rest = [] ∧ number = Strconv.formatInt n)) :
    ¬Documented allowed (joined (str "approve" :: txID :: number :: rest)) :=
  fun h ↦ hne ((canonical_approveFor_iff htx hsep hnumber).mp h.canonical)

/-- **Which accepted data is documented.**  The parser accepts the forms of `Accepted`, and the
documented ones among them are those without further segments whose number is in
decimal. -/
theorem parseCallbackData_documented_iff (data : GoString) (allowed : List Int)
    (callback : Callback) :
    (parseCallbackData data allowed = some callback ↔ Accepted allowed data callback) ∧
      (parseCallbackData data allowed = some callback →
        (Documented allowed data ↔ Canonical data)) := by
  refine ⟨parseCallbackData_eq_some_iff, fun h ↦ ⟨Documented.canonical, fun hcanon ↦ ?_⟩⟩
  exact (parseCallbackData_eq_some_iff.mp h).documented hcanon

/-- A callback of a button. -/
theorem parseCallbackData_documented_300 :
    Documented [180, 300, 900] (str "approve:tx_1:300") := by
  have h := parseCallbackData_documented_iff (str "approve:tx_1:300") [180, 300, 900]
    (.approve (str "tx_1") (300 * Time.second))
  have hsplit : Strings.split (str "approve:tx_1:300") 0x3a =
      [str "approve", str "tx_1", Strconv.formatInt 300] := by decide +kernel
  refine (h.2 (by decide +kernel)).mpr ?_
  rw [Canonical, hsplit]
  refine ⟨by decide, fun number n hnumber hn ↦ ?_⟩
  cases hnumber
  rw [Strconv.parseInt_formatInt, Option.ite_none_right_eq_some] at hn
  cases hn.2
  rfl

/-- Three spellings of an approval that are accepted and not documented: with another segment, with
a sign and with a leading zero. -/
theorem undocumented_accepted :
    (parseCallbackData (str "approve:tx_1:300:junk") [180, 300, 900] =
        some (.approve (str "tx_1") (300 * Time.second)) ∧
      ¬Documented [180, 300, 900] (str "approve:tx_1:300:junk")) ∧
    (parseCallbackData (str "approve:tx_1:+300") [180, 300, 900] =
        some (.approve (str "tx_1") (300 * Time.second)) ∧
      ¬Documented [180, 300, 900] (str "approve:tx_1:+300")) ∧
    parseCallbackData (str "approve:tx_1:0300") [180, 300, 900] =
        some (.approve (str "tx_1") (300 * Time.second)) ∧
      ¬Documented [180, 300, 900] (str "approve:tx_1:0300") := by
  have hsegment : str "approve:tx_1:300:junk" =
      joined [str "approve", str "tx_1", str "300", str "junk"] := by decide
  have hsign : str "approve:tx_1:+300" = joined [str "approve", str "tx_1", str "+300"] := by decide
  have hzero : str "approve:tx_1:0300" = joined [str "approve", str "tx_1", str "0300"] := by decide
  refine ⟨⟨by decide +kernel, ?_⟩, ⟨by decide +kernel, ?_⟩, by decide +kernel, ?_⟩
  · rw [hsegment]
    exact not_documented_of_ne (n := 300) (by decide) (by decide) (by decide +kernel)
      (by decide +kernel)
  · rw [hsign]
    exact not_documented_of_ne (n := 300) (by decide) (by decide) (by decide +kernel)
      (by decide +kernel)
  · rw [hzero]
    exact not_documented_of_ne (n := 300) (by decide) (by decide) (by decide +kernel)
      (by decide +kernel)

end LunaZTrust.Approval
